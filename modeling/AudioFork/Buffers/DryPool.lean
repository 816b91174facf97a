import AudioFork.Buffers.SendBuffer

/-!
# DryPool — what a dry pool can cost

A buffer that holds or can lease `N` slabs keeps at least `(N - 1) * S + 1` bytes of what it is given,
as far as there are so many and the cap allows them.  Only the front slab of a queue is ever partly
read (`Packed`), so when the pool refuses a slab every other slab the buffer holds is full of unread
audio, and the front one has a byte left.  What the loop drops after that it makes up for with the
rest of the frame.
-/

namespace AudioFork
namespace Buffers

variable {β : Type} {S : ℕ+}

namespace SlabQueue

/-! ## Only the front slab is partly read -/

def Packed (q : SlabQueue β) : Prop := ∀ n ∈ (q.chunks.map Chunk.begin).tail, n = 0

/-- The offsets of the chunks are not changed by a fill. -/
theorem begins_fillTail (S : ℕ+) (q : SlabQueue β) (read : List β) :
    (q.fillTail S read).1.chunks.map Chunk.begin = q.chunks.map Chunk.begin := by
  unfold fillTail
  split
  · rfl
  · rename_i tail htail
    have hchunks : q.chunks = q.chunks.dropLast ++ [tail] :=
      (List.dropLast_append_getLast? tail htail).symm
    conv_rhs => rw [hchunks]
    simp

theorem length_fillTail (S : ℕ+) (q : SlabQueue β) (read : List β) :
    (q.fillTail S read).1.chunks.length = q.chunks.length := by
  have hsame := congrArg List.length (begins_fillTail S q read)
  rwa [List.length_map, List.length_map] at hsame

theorem popFrontIfDrained_suffix (S : ℕ+) (cs : List (Chunk β)) :
    popFrontIfDrained S cs <:+ cs := by
  induction cs with
  | nil => exact List.suffix_refl []
  | cons c rest ih =>
      cases rest with
      | nil =>
          unfold popFrontIfDrained
          split
          · exact List.nil_suffix
          · exact List.suffix_refl _
      | cons d rest =>
          unfold popFrontIfDrained
          split
          · exact ih.trans (List.suffix_cons c _)
          · exact List.suffix_refl _

/-- The offsets behind the front one, after a consume, are some of those behind the front one before. -/
theorem begins_consumeLoop (S : ℕ+) (fuel : Nat) (q : SlabQueue β) (n : Nat) :
    ((consumeLoop S fuel q n).chunks.map Chunk.begin).tail <:+ (q.chunks.map Chunk.begin).tail ∧
      (consumeLoop S fuel q n).chunks.length ≤ q.chunks.length := by
  induction fuel generalizing q n with
  | zero => exact ⟨List.suffix_refl _, Nat.le_refl _⟩
  | succ fuel ih =>
      unfold consumeLoop
      split
      · exact ⟨List.suffix_refl _, Nat.le_refl _⟩
      · rename_i front rest hchunks
        split
        · exact ⟨List.suffix_refl _, Nat.le_refl _⟩
        · -- one round moves the front offset and then only pops
          have hpop := popFrontIfDrained_suffix S
            ({ front with begin := front.begin + min front.size n } :: rest)
          have hround := ih { size := q.size - min front.size n
                              chunks := popFrontIfDrained S
                                ({ front with begin := front.begin + min front.size n } :: rest) }
            (n - min front.size n)
          refine ⟨hround.1.trans ?_, Nat.le_trans hround.2 ?_⟩
          · rw [hchunks, List.map_cons, List.tail_cons]
            rcases List.suffix_cons_iff.mp hpop with hkept | hpopped
            · simp only [hkept, List.map_cons, List.tail_cons]
              exact List.suffix_refl _
            · exact (List.tail_suffix _).trans (hpopped.map Chunk.begin)
          · rw [hchunks]
            exact hpop.length_le

theorem Packed.round {others : Nat → Nat → Nat} {q q' : SlabQueue β} {p p' : SlabSupply}
    {read rest : List β} (h : q.Packed) (hround : Round S others q p read q' p' rest) :
    q'.Packed := by
  cases hround with
  | room hneed =>
      unfold Packed
      rw [begins_fillTail]
      exact h
  | fresh p' hneed hacquire =>
      unfold Packed
      rw [begins_fillTail]
      intro n hn
      have hlast : n ∈ (q.chunks.map Chunk.begin).tail ∨ n = 0 := by
        cases hchunks : q.chunks with
        | nil => simp [withFresh, hchunks] at hn
        | cons front rest => simpa [withFresh, hchunks] using hn
      exact hlast.elim (h n) id

theorem Packed.appendLoop {others : Nat → Nat → Nat} (fuel : Nat) {q : SlabQueue β}
    (p : SlabSupply) (read : List β) (h : q.Packed) :
    (appendLoop S others fuel q p read).1.Packed := by
  refine appendLoop_invariant (P := fun q _ _ => q.Packed) ?_ ?_ fuel h
  · intro q p read q' p' rest _ hround hpacked
    exact hpacked.round hround
  · exact fun _ hpacked => hpacked

theorem Packed.consume {q : SlabQueue β} (h : q.Packed) (p : SlabSupply) (bytes : Nat) :
    (q.consume S p bytes).1.Packed := by
  intro n hn
  exact h n ((begins_consumeLoop S q.chunks.length q (min bytes q.size)).1.subset hn)

/-- Full slabs of which only the front one is partly read. -/
theorem Packed.holds {q : SlabQueue β} (h : q.Packed) (hfilled : ∀ c ∈ q.chunks, Filled S c)
    (hsome : q.chunks ≠ []) : (q.chunks.length - 1) * S + 1 ≤ q.toList.length := by
  cases hchunks : q.chunks with
  | nil => exact absurd hchunks hsome
  | cons front rest =>
      rw [hchunks] at hfilled
      have hfront : 1 ≤ front.bytes.length := by
        have hunread := (hfilled front List.mem_cons_self).1
        rw [Chunk.length_bytes]
        unfold Chunk.size
        omega
      have hrest : ∀ c ∈ rest, c.bytes.length = (S : Nat) := by
        intro c hc
        have hbegin : c.begin = 0 := h c.begin (by simp [hchunks]; exact ⟨c, hc, rfl⟩)
        rw [Chunk.length_bytes, Chunk.size, hbegin, Nat.sub_zero]
        exact (hfilled c (List.mem_cons_of_mem front hc)).2
      have hsum : (rest.flatMap Chunk.bytes).length = rest.length * S := by
        rw [List.length_flatMap, List.map_congr_left hrest, List.map_const',
          List.sum_replicate_nat]
      calc ((front :: rest).length - 1) * S + 1
          = (rest.flatMap Chunk.bytes).length + 1 := by rw [hsum]; rfl
        _ ≤ (rest.flatMap Chunk.bytes).length + front.bytes.length := Nat.add_le_add_left hfront _
        _ = q.toList.length := by
            unfold toList
            rw [hchunks, List.flatMap_cons, List.length_append, Nat.add_comm]

/-! ## Slabs held and slabs left -/

/-- Nobody else touches the pool. -/
def alone : Nat → Nat → Nat := fun _ left => left

/-- The slabs a queue holds and those the pool could still lease. -/
def slabs (q : SlabQueue β) (p : SlabSupply) : Nat := q.chunks.length + p.available

theorem acquired_alone {p p' : SlabSupply} (h : p.acquire alone = (true, p')) :
    p'.available + 1 = p.available := by
  rcases Nat.eq_zero_or_pos p.available with hnone | hpos
  · simp [SlabSupply.acquire, alone, hnone] at h
  · have hafter : { available := p.available - 1, calls := p.calls + 1 } = p' := by
      simpa [SlabSupply.acquire, alone, hpos] using h
    rw [← hafter]
    exact Nat.sub_add_cancel hpos

theorem refused_alone {p p' : SlabSupply} (h : p.acquire alone = (false, p')) :
    p.available = 0 ∧ p'.available = 0 := by
  rcases Nat.eq_zero_or_pos p.available with hnone | hpos
  · have hafter : { available := 0, calls := p.calls + 1 } = p' := by
      simpa [SlabSupply.acquire, alone, hnone] using h
    rw [← hafter]
    exact ⟨hnone, rfl⟩
  · simp [SlabSupply.acquire, alone, hpos] at h

theorem slabs_round {q q' : SlabQueue β} {p p' : SlabSupply} {read rest : List β}
    (h : Round S alone q p read q' p' rest) : q'.slabs p' = q.slabs p := by
  unfold slabs
  cases h with
  | room hneed => rw [length_fillTail]
  | fresh p' hneed hacquire =>
      have hheld : (q.withFresh.fillTail S read).1.chunks.length = q.chunks.length + 1 := by
        rw [length_fillTail]
        simp [withFresh]
      have hleft := acquired_alone hacquire
      omega

/-- The append loop keeps the number of slabs; when it leaves something over, the queue holds them all
and has filled them. -/
theorem slabs_appendLoop (fuel : Nat) {q : SlabQueue β} (p : SlabSupply) {read : List β}
    (hok : Ok S q) (hfuel : read.length ≤ fuel) :
    let r := appendLoop S alone fuel q p read
    r.1.slabs r.2.1 = q.slabs p ∧
      (r.2.2 ≠ [] → r.1.chunks.length = q.slabs p ∧ ∀ c ∈ r.1.chunks, Filled S c) := by
  induction fuel generalizing q p read with
  | zero =>
      have hnil : read = [] := List.length_eq_zero_iff.mp (Nat.le_zero.mp hfuel)
      exact ⟨rfl, fun hrest => absurd hnil hrest⟩
  | succ fuel ih =>
      by_cases hread : read = []
      · rw [hread, appendLoop_nil]
        exact ⟨rfl, fun hrest => absurd rfl hrest⟩
      rcases dry_or_round S alone q p read with ⟨hneed, p', hacquire⟩ | ⟨q', p', rest, hround⟩
      · rw [appendLoop_dry fuel hread hneed hacquire]
        rcases refused_alone hacquire with ⟨hnone, hnone'⟩
        have hall : q.slabs p = q.chunks.length := by
          unfold slabs
          rw [hnone, Nat.add_zero]
        rw [hall]
        exact ⟨congrArg (q.chunks.length + ·) hnone',
          fun _ => ⟨rfl, hok.filled_of_needsChunk hneed⟩⟩
      · rw [appendLoop_round fuel hread hround, ← slabs_round hround]
        rcases hround.spec hok hread with ⟨k, hpos, hk, rfl, -, hok'⟩
        refine ih p' hok' ?_
        rw [List.length_drop]
        omega

theorem slabs_consume (S : ℕ+) (q : SlabQueue β) (p : SlabSupply) (bytes : Nat) :
    (q.consume S p bytes).1.slabs (q.consume S p bytes).2 = q.slabs p := by
  have hle := (begins_consumeLoop S q.chunks.length q (min bytes q.size)).2
  show (consumeLoop S q.chunks.length q (min bytes q.size)).chunks.length +
    (p.available + (q.chunks.length -
      (consumeLoop S q.chunks.length q (min bytes q.size)).chunks.length)) = _
  unfold slabs
  omega

end SlabQueue

namespace SendBuffer

open SlabQueue (alone)

/-! ## Buffers as the operations make them -/

/-- The buffers that can exist: made by `create`, then changed by the operations, whatever the pool
does. -/
inductive Built : SendBuffer β S → Prop where
  | create (capBytes : Nat) : Built (create capBytes)
  | append {b : SendBuffer β S} (h : Built b) (others : Nat → Nat → Nat) (p : SlabSupply)
      (bytes : List β) : Built (b.append others p bytes).2.1
  | consume {b : SendBuffer β S} (h : Built b) (p : SlabSupply) (bytes : Nat) :
      Built (b.consume p bytes).1
  | clear {b : SendBuffer β S} (h : Built b) (p : SlabSupply) : Built (b.clear p).1
  | setCap {b : SendBuffer β S} (h : Built b) (p : SlabSupply) (capBytes : Nat) :
      Built (b.setCap p capBytes).2.1

theorem packed_retryLoop (others : Nat → Nat → Nat) (fuel : Nat) {b : SendBuffer β S}
    (p : SlabSupply) (read : List β) (result : AppendResult) (h : b.queue.Packed) :
    (retryLoop others fuel b p read result).2.1.queue.Packed := by
  refine retryLoop_invariant (P := fun b _ => b.queue.Packed) ?_ ?_ fuel result h
  · intro b p read hpacked
    exact hpacked.appendLoop read.length p read
  · intro b p bytes hpacked
    exact hpacked.consume p bytes

theorem packed_capped {b : SendBuffer β S} (p : SlabSupply) (n : Nat) (h : b.queue.Packed) :
    (b.capped p n).2.1.queue.Packed := by
  unfold capped
  split
  · exact h.consume p _
  · exact h

theorem packed_append (others : Nat → Nat → Nat) {b : SendBuffer β S} (p : SlabSupply)
    (bytes : List β) (h : b.queue.Packed) : (b.append others p bytes).2.1.queue.Packed := by
  by_cases hskip : bytes = [] ∨ b.capBytes = 0
  · rw [append_skip others p hskip]
    exact h
  · rcases not_or.mp hskip with ⟨hbytes, hcap⟩
    rw [append_eq others p hbytes hcap]
    exact packed_retryLoop others _ _ _ _ (packed_capped p _ h)

theorem Built.packed {b : SendBuffer β S} (h : Built b) : b.queue.Packed := by
  induction h with
  | create capBytes => exact fun n hn => absurd hn (List.not_mem_nil)
  | append _ others p bytes ih => exact packed_append others p bytes ih
  | consume _ p bytes ih => exact ih.consume p bytes
  | clear _ p ih => exact fun n hn => absurd hn (List.not_mem_nil)
  | setCap _ p capBytes ih =>
      unfold SendBuffer.setCap
      simp only
      split
      · exact ih
      · exact ih.consume p _

/-! ## The loss -/

/-- The slabs the buffer holds and those the pool could still lease. -/
def slabs (b : SendBuffer β S) (p : SlabSupply) : Nat := b.queue.slabs p

theorem slabs_store (b : SendBuffer β S) (p : SlabSupply) (read : List β) :
    (b.store alone p read).2.1.slabs (b.store alone p read).2.2 = b.slabs p :=
  (SlabQueue.slabs_appendLoop read.length p b.ok (Nat.le_refl _)).1

theorem slabs_reclaim (b : SendBuffer β S) (p : SlabSupply) (read : List β) :
    (b.reclaim alone p read).1.slabs (b.reclaim alone p read).2 = b.slabs p := by
  rw [← slabs_store b p read]
  exact SlabQueue.slabs_consume S _ _ _

theorem slabs_capped (b : SendBuffer β S) (p : SlabSupply) (n : Nat) :
    (b.capped p n).2.1.slabs (b.capped p n).2.2 = b.slabs p := by
  unfold capped
  split
  · exact SlabQueue.slabs_consume S _ _ _
  · rfl

/-- An attempt that leaves something over has filled every slab there is. -/
theorem store_full {b : SendBuffer β S} {p : SlabSupply} {read : List β} (hpacked : b.queue.Packed)
    (hslabs : 1 ≤ b.slabs p) (hleft : b.leftover alone p read ≠ []) :
    (b.slabs p - 1) * S + 1 ≤ (b.store alone p read).2.1.content.length := by
  rw [leftover_eq] at hleft
  rcases (SlabQueue.slabs_appendLoop read.length p b.ok (Nat.le_refl _)).2 hleft with
    ⟨hall, hfilled⟩
  have hheld : (b.store alone p read).2.1.queue.chunks.length = b.slabs p := hall
  rw [← hheld] at hslabs ⊢
  exact (hpacked.appendLoop read.length p read).holds hfilled (List.length_pos_iff.mp hslabs)

/-- The loop keeps all of contents and frame, or as much as all slabs but one can hold. -/
theorem retryLoop_keeps (fuel : Nat) {b : SendBuffer β S} (p : SlabSupply) (read : List β)
    (result : AppendResult) (hpacked : b.queue.Packed) (hslabs : 1 ≤ b.slabs p)
    (hfuel : b.content.length + read.length < fuel) :
    min (b.content.length + read.length) ((b.slabs p - 1) * S + 1) ≤
      (retryLoop alone fuel b p read result).2.1.content.length := by
  induction fuel generalizing b p read result with
  | zero => exact absurd hfuel (Nat.not_lt_zero _)
  | succ fuel ih =>
      by_cases hread : read = []
      · rw [hread, retryLoop_nil]
        exact Nat.min_le_left _ _
      have hlength := length_append_leftover alone b p read
      by_cases hleft : b.leftover alone p read = []
      · rw [retryLoop_stored fuel result hread hleft]
        rw [hleft, List.length_nil, Nat.add_zero] at hlength
        rw [← hlength]
        exact Nat.min_le_left _ _
      have hfull := store_full hpacked hslabs hleft
      have hsome : (b.store alone p read).2.1.content ≠ [] :=
        List.length_pos_iff.mp (Nat.le_trans (Nat.le_add_left 1 _) hfull)
      rw [retryLoop_again fuel result hleft hsome]
      have hshort := reclaim_shrinks hleft hsome
      have hround := ih (b.reclaim alone p read).2 (b.leftover alone p read)
        { droppedBytes := result.droppedBytes +
            min (b.leftover alone p read).length (b.store alone p read).2.1.content.length
          poolExhausted := true }
        ((hpacked.appendLoop read.length p read).consume (b.store alone p read).2.2 _)
        (by rw [slabs_reclaim]; exact hslabs) (by omega)
      -- what was dropped is no more than the rest of the frame puts in its place
      have hback : (b.store alone p read).2.1.content.length ≤
          (b.reclaim alone p read).1.content.length + (b.leftover alone p read).length := by
        rw [content_reclaim, List.length_drop]
        omega
      rw [slabs_reclaim] at hround
      refine Nat.le_trans ?_ hround
      refine Nat.le_trans (Nat.min_le_right _ _) ?_
      exact Nat.le_min.mpr ⟨Nat.le_trans hfull hback, Nat.le_refl _⟩

/-- While nobody else touches the pool, a buffer that has `N` slabs, held or to be leased, keeps all of
contents and frame, or the cap, or what `N - 1` slabs hold and a byte. -/
theorem dry_pool_loss {b : SendBuffer β S} (hbuilt : Built b) (p : SlabSupply) (bytes : List β)
    (hcap : b.capBytes ≠ 0) (hslabs : 1 ≤ b.slabs p) :
    min (b.content.length + bytes.length) (min b.capBytes ((b.slabs p - 1) * S + 1)) ≤
      (b.append alone p bytes).2.1.content.length := by
  by_cases hbytes : bytes = []
  · rw [append_skip alone p (Or.inl hbytes), hbytes]
    exact Nat.min_le_left _ _
  · rw [append_eq alone p hbytes hcap]
    have hkept := retryLoop_keeps
      ((b.capped p (b.newest bytes).length).2.1.size + (b.newest bytes).length + 1)
      (b.capped p (b.newest bytes).length).2.2 (b.newest bytes)
      { droppedBytes := bytes.length - b.capBytes + (b.capped p (b.newest bytes).length).1
        poolExhausted := false }
      (packed_capped p (b.newest bytes).length hbuilt.packed)
      (by rw [slabs_capped]; exact hslabs) (by rw [← size_eq]; exact Nat.lt_succ_self _)
    rw [slabs_capped] at hkept
    refine Nat.le_trans ?_ hkept
    rcases capped_spec b p (b.newest bytes).length with ⟨hdropped, hcontent⟩
    have hnewest := length_newest b bytes
    rw [hcontent, List.length_drop]
    omega

/-- A buffer of two slabs of two bytes that holds three bytes keeps three of the six, of which the cap
would allow five. -/
theorem dry_pool_loss_two_slabs :
    let b : SendBuffer Nat 2 :=
      ((create 5 : SendBuffer Nat 2).append alone { available := 2, calls := 0 } [1, 2, 3]).2.1
    let p : SlabSupply := { available := 0, calls := 2 }
    min (b.content.length + 3) (min b.capBytes ((b.slabs p - 1) * 2 + 1)) = 3 ∧
      3 ≤ (b.append alone p [4, 5, 6]).2.1.content.length := by
  intro b p
  have hthree : min (b.content.length + 3) (min b.capBytes ((b.slabs p - 1) * 2 + 1)) = 3 := by
    decide +kernel
  have hbuilt : Built b := .append (.create 5) alone { available := 2, calls := 0 } [1, 2, 3]
  have hkept := dry_pool_loss hbuilt p [4, 5, 6] (by decide +kernel) (by decide +kernel)
  exact ⟨hthree, Nat.le_trans (Nat.le_of_eq hthree.symm) hkept⟩

end SendBuffer

end Buffers
end AudioFork
