import AudioFork.Buffers.SendBuffer

/-!
# Alignment — buffers that are only cut between sample frames

The buffers count bytes and know nothing of sample frames.  When slabs, caps and everything that comes
in are multiples of a frame size `F`, every offset in a `SlabQueue` is one too, and so is every number
of bytes a `SendBuffer` drops.  `appendDrops` lists the drops of an `Append` one by one, at the places
where it makes them.
-/

namespace AudioFork
namespace Buffers

variable {β : Type} {S : ℕ+} {F : Nat}

theorem dvd_min {a b : Nat} (ha : F ∣ a) (hb : F ∣ b) : F ∣ min a b := by
  rcases Nat.le_total a b with hle | hle
  · rwa [Nat.min_eq_left hle]
  · rwa [Nat.min_eq_right hle]

theorem dvd_length_drop {xs : List β} {k : Nat} (h : F ∣ xs.length) (hk : F ∣ k) :
    F ∣ (xs.drop k).length := by
  rw [List.length_drop]
  exact Nat.dvd_sub h hk

/-! ## SlabQueue -/

structure Chunk.Aligned (F : Nat) (c : Chunk β) : Prop where
  begins : F ∣ c.begin
  ends : F ∣ c.endAt

theorem Chunk.Aligned.size {c : Chunk β} (h : c.Aligned F) : F ∣ c.size :=
  Nat.dvd_sub h.ends h.begins

namespace SlabQueue

/-- Every offset in the queue is a multiple of `F`. -/
def Aligned (F : Nat) (q : SlabQueue β) : Prop := ∀ c ∈ q.chunks, c.Aligned F

variable {q : SlabQueue β}

theorem aligned_empty (F : Nat) : Aligned F (empty : SlabQueue β) := by
  intro c hc
  cases hc

theorem Aligned.length (h : q.Aligned F) : F ∣ q.toList.length := by
  have hall : ∀ cs : List (Chunk β), (∀ c ∈ cs, c.Aligned F) →
      F ∣ (cs.flatMap Chunk.bytes).length := by
    intro cs hcs
    induction cs with
    | nil => exact Nat.dvd_zero F
    | cons c cs ih =>
        rw [List.flatMap_cons, List.length_append, Chunk.length_bytes]
        refine Nat.dvd_add (hcs c List.mem_cons_self).size (ih ?_)
        exact fun d hd => hcs d (List.mem_cons_of_mem c hd)
  exact hall q.chunks h

theorem Aligned.fillTail (hS : F ∣ (S : Nat)) (h : q.Aligned F) {read : List β}
    (hread : F ∣ read.length) :
    (q.fillTail S read).1.Aligned F ∧ F ∣ (q.fillTail S read).2.length := by
  unfold SlabQueue.fillTail
  split
  · exact ⟨h, hread⟩
  · rename_i tail htail
    have htail := h tail (List.mem_of_getLast? htail)
    have htake : F ∣ min ((S : Nat) - tail.endAt) read.length :=
      dvd_min (Nat.dvd_sub hS htail.ends) hread
    refine ⟨?_, dvd_length_drop hread htake⟩
    intro c hc
    rcases List.mem_append.mp hc with hinit | hlast
    · exact h c (List.dropLast_subset _ hinit)
    · rw [List.mem_singleton.mp hlast]
      refine ⟨htail.begins, ?_⟩
      show F ∣ (tail.storage ++ read.take _).length
      rw [List.length_append, List.length_take, Nat.min_eq_left (Nat.min_le_right _ _)]
      exact Nat.dvd_add htail.ends htake

/-- A fresh chunk begins and ends at 0. -/
theorem Aligned.withFresh (h : q.Aligned F) : q.withFresh.Aligned F := by
  intro c hc
  rcases List.mem_append.mp hc with hold | hnew
  · exact h c hold
  · rw [List.mem_singleton.mp hnew]
    exact ⟨Nat.dvd_zero F, Nat.dvd_zero F⟩

theorem Aligned.round {others : Nat → Nat → Nat} {p p' : SlabSupply} {q' : SlabQueue β}
    {read rest : List β} (hS : F ∣ (S : Nat)) (h : q.Aligned F) (hread : F ∣ read.length)
    (hround : Round S others q p read q' p' rest) : q'.Aligned F ∧ F ∣ rest.length := by
  cases hround with
  | room hneed => exact h.fillTail hS hread
  | fresh p' hneed hacquire => exact h.withFresh.fillTail hS hread

theorem Aligned.appendLoop (hS : F ∣ (S : Nat)) (others : Nat → Nat → Nat) (fuel : Nat)
    (h : q.Aligned F) (p : SlabSupply) {read : List β} (hread : F ∣ read.length) :
    (appendLoop S others fuel q p read).1.Aligned F ∧
      F ∣ (appendLoop S others fuel q p read).2.2.length := by
  refine appendLoop_invariant (P := fun q _ read => q.Aligned F ∧ F ∣ read.length) ?_ ?_ fuel
    ⟨h, hread⟩
  · rintro q p read q' p' rest _ hround ⟨haligned, hread⟩
    exact haligned.round hS hread hround
  · exact fun _ haligned => haligned

theorem Aligned.append (hS : F ∣ (S : Nat)) (h : q.Aligned F) (others : Nat → Nat → Nat)
    (p : SlabSupply) {bytes : List β} (hbytes : F ∣ bytes.length) :
    (q.append S others p bytes).2.1.Aligned F ∧ F ∣ (q.append S others p bytes).1 := by
  have hloop := h.appendLoop hS others bytes.length p hbytes
  exact ⟨hloop.1, Nat.dvd_sub hbytes hloop.2⟩

theorem popFrontIfDrained_subset (S : ℕ+) (cs : List (Chunk β)) :
    ∀ c ∈ popFrontIfDrained S cs, c ∈ cs := by
  induction cs with
  | nil => exact fun c hc => hc
  | cons front rest ih =>
      intro c hc
      cases rest with
      | nil =>
          unfold popFrontIfDrained at hc
          split at hc
          · cases hc
          · exact hc
      | cons d rest =>
          unfold popFrontIfDrained at hc
          split at hc
          · exact List.mem_cons_of_mem front (ih c hc)
          · exact hc

theorem Aligned.consumeLoop (S : ℕ+) (fuel : Nat) (h : q.Aligned F) {remaining : Nat}
    (hremaining : F ∣ remaining) : (consumeLoop S fuel q remaining).Aligned F := by
  induction fuel generalizing q remaining with
  | zero => exact h
  | succ fuel ih =>
      unfold SlabQueue.consumeLoop
      split
      · exact h
      · rename_i front rest hchunks
        split
        · exact h
        · have hfront : front.Aligned F := h front (by rw [hchunks]; exact List.mem_cons_self)
          have htake : F ∣ min front.size remaining := dvd_min hfront.size hremaining
          refine ih ?_ (Nat.dvd_sub hremaining htake)
          intro c hc
          rcases List.mem_cons.mp (popFrontIfDrained_subset S _ c hc) with rfl | hrest
          · exact ⟨Nat.dvd_add hfront.begins htake, hfront.ends⟩
          · exact h c (by rw [hchunks]; exact List.mem_cons_of_mem front hrest)

theorem Aligned.consume (h : q.Aligned F) (hok : q.Ok S) (p : SlabSupply) {bytes : Nat}
    (hbytes : F ∣ bytes) : (q.consume S p bytes).1.Aligned F :=
  h.consumeLoop S q.chunks.length (dvd_min hbytes (hok.size_eq ▸ h.length))

theorem Aligned.peek (h : q.Aligned F) {maxBytes : Nat} (hmax : F ∣ maxBytes) :
    F ∣ (q.peek maxBytes).length := by
  unfold SlabQueue.peek
  split
  · exact Nat.dvd_zero F
  · rename_i front rest hchunks
    split
    · exact Nat.dvd_zero F
    · rw [List.length_take, Chunk.length_bytes]
      exact dvd_min hmax (h front (by rw [hchunks]; exact List.mem_cons_self)).size

end SlabQueue

/-! ## SendBuffer -/

namespace SendBuffer

/-- The drops of the store-or-drop loop, one entry for each `DropOldest` and one for a lost rest. -/
def retryDrops (others : Nat → Nat → Nat) : Nat → SendBuffer β S → SlabSupply → List β → List Nat
  | 0, _, _, _ => []
  | fuel + 1, b, p, read =>
      if read.isEmpty then
        []
      else
        match b.store others p read with
        | (stored, b₁, p₁) =>
            let rest := read.drop stored
            if rest.isEmpty then
              []
            else
              match b₁.dropOldest p₁ rest.length with
              | (reclaimed, b₂, p₂) =>
                  if reclaimed = 0 then
                    [reclaimed + rest.length]
                  else
                    reclaimed :: retryDrops others fuel b₂ p₂ rest

/-- The drops of an `Append`: a frame that cannot be stored at all, the front of an oversized one, the
overflow of the cap, and those of the loop. -/
def appendDrops (others : Nat → Nat → Nat) (b : SendBuffer β S) (p : SlabSupply) (bytes : List β) :
    List Nat :=
  if bytes.isEmpty ∨ b.capBytes = 0 then
    [bytes.length]
  else
    let skip := bytes.length - b.capBytes
    let read := bytes.drop skip
    match
      (if b.size + read.length > b.capBytes then
        b.dropOldest p (b.size + read.length - b.capBytes)
      else
        (0, b, p)) with
    | (dropped, b₁, p₁) =>
        skip :: dropped :: retryDrops others (b₁.size + read.length + 1) b₁ p₁ read

theorem droppedBytes_retryLoop (others : Nat → Nat → Nat) (fuel : Nat) (b : SendBuffer β S)
    (p : SlabSupply) (read : List β) (result : AppendResult) :
    (retryLoop others fuel b p read result).1.droppedBytes =
      result.droppedBytes + (retryDrops others fuel b p read).sum := by
  induction fuel generalizing b p read result with
  | zero => rfl
  | succ fuel ih =>
      unfold retryLoop retryDrops
      split
      · rfl
      · simp only
        split
        · rfl
        · split
          · simp [Nat.add_assoc]
          · rw [ih, List.sum_cons, Nat.add_assoc]

/-- The list is complete: its entries make up what `Append` reports. -/
theorem droppedBytes_append (others : Nat → Nat → Nat) (b : SendBuffer β S) (p : SlabSupply)
    (bytes : List β) :
    (b.append others p bytes).1.droppedBytes = (b.appendDrops others p bytes).sum := by
  unfold append appendDrops
  split
  · simp
  · simp only
    rw [droppedBytes_retryLoop, List.sum_cons, List.sum_cons, Nat.add_assoc]

structure Aligned (F : Nat) (b : SendBuffer β S) : Prop where
  queue : b.queue.Aligned F
  cap : F ∣ b.capBytes

variable {b : SendBuffer β S}

theorem Aligned.content (h : b.Aligned F) : F ∣ b.content.length := h.queue.length

theorem Aligned.size (h : b.Aligned F) : F ∣ b.size := by
  rw [size_eq]
  exact h.content

theorem Aligned.consume (h : b.Aligned F) (p : SlabSupply) {bytes : Nat} (hbytes : F ∣ bytes) :
    (b.consume p bytes).1.Aligned F :=
  ⟨h.queue.consume b.ok p hbytes, h.cap⟩

theorem Aligned.clear (h : b.Aligned F) (p : SlabSupply) : (b.clear p).1.Aligned F :=
  ⟨SlabQueue.aligned_empty F, h.cap⟩

theorem Aligned.dropOldest (h : b.Aligned F) (p : SlabSupply) {bytes : Nat} (hbytes : F ∣ bytes) :
    F ∣ (b.dropOldest p bytes).1 ∧ (b.dropOldest p bytes).2.1.Aligned F :=
  ⟨Nat.dvd_sub h.size (h.consume p hbytes).size, h.consume p hbytes⟩

theorem Aligned.retryLoop (hS : F ∣ (S : Nat)) (others : Nat → Nat → Nat) (fuel : Nat)
    (h : b.Aligned F) (p : SlabSupply) {read : List β} (hread : F ∣ read.length)
    (result : AppendResult) :
    (retryLoop others fuel b p read result).2.1.Aligned F ∧
      ∀ n ∈ retryDrops others fuel b p read, F ∣ n := by
  induction fuel generalizing b p read result with
  | zero => exact ⟨h, by simp [retryDrops]⟩
  | succ fuel ih =>
      unfold SendBuffer.retryLoop retryDrops
      split
      · exact ⟨h, by simp⟩
      · have hstore := h.queue.append hS others p hread
        rcases hstored : b.store others p read with ⟨stored, b₁, p₁⟩
        have hb₁ : b₁.Aligned F := by
          obtain rfl : (b.store others p read).2.1 = b₁ := by rw [hstored]
          exact ⟨hstore.1, h.cap⟩
        have hrest : F ∣ (read.drop stored).length := by
          obtain rfl : (b.store others p read).1 = stored := by rw [hstored]
          exact dvd_length_drop hread hstore.2
        simp only
        split
        · exact ⟨hb₁, by simp⟩
        · have hdrop := hb₁.dropOldest p₁ hrest
          rcases hdropped : b₁.dropOldest p₁ (read.drop stored).length with ⟨reclaimed, b₂, p₂⟩
          rw [hdropped] at hdrop
          simp only
          split
          · refine ⟨hdrop.2, ?_⟩
            intro n hn
            rw [List.mem_singleton.mp hn]
            exact Nat.dvd_add hdrop.1 hrest
          · rcases ih hdrop.2 p₂ hrest
              { droppedBytes := result.droppedBytes + reclaimed, poolExhausted := true } with
              ⟨hbuffer, hdrops⟩
            refine ⟨hbuffer, ?_⟩
            intro n hn
            rcases List.mem_cons.mp hn with rfl | hn
            · exact hdrop.1
            · exact hdrops n hn

/-- `Append` keeps the alignment, and cuts between frames wherever it cuts. -/
theorem Aligned.append (hS : F ∣ (S : Nat)) (h : b.Aligned F) (others : Nat → Nat → Nat)
    (p : SlabSupply) {bytes : List β} (hbytes : F ∣ bytes.length) :
    (b.append others p bytes).2.1.Aligned F ∧ ∀ n ∈ b.appendDrops others p bytes, F ∣ n := by
  unfold SendBuffer.append appendDrops
  split
  · refine ⟨h, ?_⟩
    intro n hn
    rw [List.mem_singleton.mp hn]
    exact hbytes
  · have hskip : F ∣ bytes.length - b.capBytes := Nat.dvd_sub hbytes h.cap
    have hread : F ∣ (bytes.drop (bytes.length - b.capBytes)).length := dvd_length_drop hbytes hskip
    generalize hr : (if b.size + (bytes.drop (bytes.length - b.capBytes)).length > b.capBytes then
        b.dropOldest p (b.size + (bytes.drop (bytes.length - b.capBytes)).length - b.capBytes)
      else
        (0, b, p)) = r
    have hcut : F ∣ r.1 ∧ r.2.1.Aligned F := by
      rw [← hr]
      split
      · exact h.dropOldest p (Nat.dvd_sub (Nat.dvd_add h.size hread) h.cap)
      · exact ⟨Nat.dvd_zero F, h⟩
    rcases r with ⟨dropped, b₁, p₁⟩
    simp only [hr]
    rcases Aligned.retryLoop hS others (b₁.size + (bytes.drop (bytes.length - b.capBytes)).length + 1)
      hcut.2 p₁ hread
      { droppedBytes := bytes.length - b.capBytes + dropped, poolExhausted := false } with
      ⟨hbuffer, hdrops⟩
    refine ⟨hbuffer, ?_⟩
    intro n hn
    rcases List.mem_cons.mp hn with rfl | hn
    · exact hskip
    · rcases List.mem_cons.mp hn with rfl | hn
      · exact hcut.1
      · exact hdrops n hn

theorem Aligned.setCap (h : b.Aligned F) (p : SlabSupply) {capBytes : Nat} (hcap : F ∣ capBytes) :
    F ∣ (b.setCap p capBytes).1 ∧ (b.setCap p capBytes).2.1.Aligned F := by
  have hcapped : Aligned F { b with capBytes := capBytes } := ⟨h.queue, hcap⟩
  unfold SendBuffer.setCap
  simp only
  split
  · exact ⟨Nat.dvd_zero F, hcapped⟩
  · exact hcapped.dropOldest p (Nat.dvd_sub h.size hcap)

end SendBuffer

end Buffers
end AudioFork
