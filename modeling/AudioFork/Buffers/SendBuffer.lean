import AudioFork.Buffers.SlabQueue

/-!
# SendBuffer — outbound audio, oldest dropped first

A `SlabQueue` plus one policy: when the cap or the pool is reached, the oldest audio goes.  A
buffer carries the invariant of its queue.  `append_spec` is the accounting law of `Append`: the
new contents are the old contents followed by the frame, less exactly the reported number of bytes
from the front.
-/

namespace AudioFork
namespace Buffers

variable {β : Type} {S : ℕ+}

structure SendBuffer (β : Type) (S : ℕ+) where
  queue : SlabQueue β
  capBytes : Nat
  ok : queue.Ok S

structure AppendResult where
  droppedBytes : Nat
  poolExhausted : Bool
  deriving DecidableEq, Repr

namespace SendBuffer

def create (capBytes : Nat) : SendBuffer β S :=
  { queue := .empty
    capBytes := capBytes
    ok := SlabQueue.ok_empty S }

/-- The buffered audio, oldest byte first. -/
def content (b : SendBuffer β S) : List β := b.queue.toList

def size (b : SendBuffer β S) : Nat := b.queue.size

def empty (b : SendBuffer β S) : Bool := b.queue.size == 0

def peek (b : SendBuffer β S) (maxBytes : Nat) : List β := b.queue.peek maxBytes

def consume (b : SendBuffer β S) (p : SlabSupply) (bytes : Nat) : SendBuffer β S × SlabSupply :=
  ({ b with
     queue := (b.queue.consume S p bytes).1
     ok := (SlabQueue.consume_spec p bytes b.ok).2 },
    (b.queue.consume S p bytes).2)

def clear (b : SendBuffer β S) (p : SlabSupply) : SendBuffer β S × SlabSupply :=
  ({ b with
     queue := .empty
     ok := SlabQueue.ok_empty S },
    (b.queue.clear p).2)

/-- `queue_.Append`: the number of bytes stored, and the buffer with them. -/
def store (others : Nat → Nat → Nat) (b : SendBuffer β S) (p : SlabSupply) (bytes : List β) :
    Nat × SendBuffer β S × SlabSupply :=
  ((b.queue.append S others p bytes).1,
    { b with
      queue := (b.queue.append S others p bytes).2.1
      ok := (SlabQueue.append_spec others p bytes b.ok).2.2 },
    (b.queue.append S others p bytes).2.2)

/-- Returns the number of bytes dropped. -/
def dropOldest (b : SendBuffer β S) (p : SlabSupply) (bytes : Nat) :
    Nat × SendBuffer β S × SlabSupply :=
  (b.size - (b.consume p bytes).1.size, (b.consume p bytes).1, (b.consume p bytes).2)

/-- The store-or-drop loop of `Append`: a dry pool is treated like a full buffer. -/
def retryLoop (others : Nat → Nat → Nat) :
    Nat → SendBuffer β S → SlabSupply → List β → AppendResult →
      AppendResult × SendBuffer β S × SlabSupply
  | 0, b, p, _, result => (result, b, p)
  | fuel + 1, b, p, read, result =>
      if read.isEmpty then
        (result, b, p)
      else
        match b.store others p read with
        | (stored, b₁, p₁) =>
            let rest := read.drop stored
            if rest.isEmpty then
              (result, b₁, p₁)
            else
              -- pool exhausted: same policy as a full buffer, drop oldest and retry
              match b₁.dropOldest p₁ rest.length with
              | (reclaimed, b₂, p₂) =>
                  if reclaimed = 0 then
                    -- nothing left to drop, so the frame loses its rest
                    ({ droppedBytes := result.droppedBytes + reclaimed + rest.length
                       poolExhausted := true }, b₂, p₂)
                  else
                    retryLoop others fuel b₂ p₂ rest
                      { droppedBytes := result.droppedBytes + reclaimed
                        poolExhausted := true }

def append (others : Nat → Nat → Nat) (b : SendBuffer β S) (p : SlabSupply) (bytes : List β) :
    AppendResult × SendBuffer β S × SlabSupply :=
  if bytes.isEmpty ∨ b.capBytes = 0 then
    ({ droppedBytes := bytes.length, poolExhausted := false }, b, p)
  else
    -- a frame larger than the whole cap keeps only its tail: the newest audio
    let skip := bytes.length - b.capBytes
    let read := bytes.drop skip
    match
      (if b.size + read.length > b.capBytes then
        b.dropOldest p (b.size + read.length - b.capBytes)
      else
        (0, b, p)) with
    | (dropped, b₁, p₁) =>
        retryLoop others (b₁.size + read.length + 1) b₁ p₁ read
          { droppedBytes := skip + dropped, poolExhausted := false }

/-- Shrinking below the current fill drops the oldest audio at once; returns how much went. -/
def setCap (b : SendBuffer β S) (p : SlabSupply) (capBytes : Nat) :
    Nat × SendBuffer β S × SlabSupply :=
  let b := { b with capBytes := capBytes }
  if b.size ≤ capBytes then
    (0, b, p)
  else
    b.dropOldest p (b.size - capBytes)

/-! ## Contents and accounting -/

theorem size_eq (b : SendBuffer β S) : b.size = b.content.length := b.ok.size_eq

@[simp] theorem content_consume (b : SendBuffer β S) (p : SlabSupply) (bytes : Nat) :
    (b.consume p bytes).1.content = b.content.drop bytes :=
  (SlabQueue.consume_spec p bytes b.ok).1

/-- Consuming what was peeked at takes it off the front. -/
theorem content_peek (b : SendBuffer β S) (p : SlabSupply) (maxBytes : Nat) :
    b.content = b.peek maxBytes ++ (b.consume p (b.peek maxBytes).length).1.content := by
  rw [content_consume]
  exact List.prefix_iff_eq_append.mp (SlabQueue.peek_prefix b.queue maxBytes) |>.symm

theorem content_eq_nil_iff_empty (b : SendBuffer β S) : b.empty = true ↔ b.content = [] := by
  rw [← List.length_eq_zero_iff, ← size_eq]
  simp [empty, size]

theorem dropOldest_spec (b : SendBuffer β S) (p : SlabSupply) (bytes : Nat) :
    (b.dropOldest p bytes).1 = min bytes b.content.length ∧
      (b.dropOldest p bytes).2.1.content = b.content.drop (b.dropOldest p bytes).1 := by
  have hdropped : (b.dropOldest p bytes).1 = min bytes b.content.length := by
    simp only [dropOldest, size_eq, content_consume, List.length_drop]
    omega
  refine ⟨hdropped, ?_⟩
  rw [hdropped]
  show (b.consume p bytes).1.content = _
  rw [content_consume]
  rcases Nat.le_total bytes b.content.length with hle | hge
  · rw [Nat.min_eq_left hle]
  · rw [Nat.min_eq_right hge, List.drop_length, List.drop_eq_nil_of_le hge]

theorem store_spec (others : Nat → Nat → Nat) (b : SendBuffer β S) (p : SlabSupply)
    (bytes : List β) :
    (b.store others p bytes).2.1.content =
      b.content ++ bytes.take (b.store others p bytes).1 :=
  (SlabQueue.append_spec others p bytes b.ok).2.1

/-- What a store leaves over still follows what it stored. -/
theorem store_rest (others : Nat → Nat → Nat) (b : SendBuffer β S) (p : SlabSupply)
    (bytes : List β) :
    (b.store others p bytes).2.1.content ++ bytes.drop (b.store others p bytes).1 =
      b.content ++ bytes := by
  rw [store_spec, List.append_assoc, List.take_append_drop]

/-- The result of an append that has already dropped `base` bytes: of `old` followed by `new`,
exactly the newly reported bytes are gone from the front. -/
def Accounted (base : Nat) (all : List β) (r : AppendResult × SendBuffer β S × SlabSupply) : Prop :=
  ∃ k, k ≤ all.length ∧ r.1.droppedBytes = base + k ∧ r.2.1.content = all.drop k

/-- Bytes that were dropped before and reported before count once. -/
theorem Accounted.after_drop {base d : Nat} {all : List β}
    {r : AppendResult × SendBuffer β S × SlabSupply} (hd : d ≤ all.length)
    (h : Accounted (base + d) (all.drop d) r) : Accounted base all r := by
  rcases h with ⟨k, hk, hdropped, hcontent⟩
  rw [List.length_drop] at hk
  refine ⟨d + k, by omega, by omega, ?_⟩
  rw [hcontent, List.drop_drop]

/-! ### One attempt of the loop -/

/-- What an attempt to store leaves over. -/
def leftover (others : Nat → Nat → Nat) (b : SendBuffer β S) (p : SlabSupply) (read : List β) :
    List β :=
  read.drop (b.store others p read).1

/-- The buffer and the pool after an attempt that left something over. -/
def reclaim (others : Nat → Nat → Nat) (b : SendBuffer β S) (p : SlabSupply) (read : List β) :
    SendBuffer β S × SlabSupply :=
  (b.store others p read).2.1.consume (b.store others p read).2.2 (b.leftover others p read).length

section Attempt

variable {others : Nat → Nat → Nat} {b : SendBuffer β S} {p : SlabSupply} {read : List β}

/-- Contents and frame before an attempt are contents and leftover behind it. -/
theorem content_append_leftover (others : Nat → Nat → Nat) (b : SendBuffer β S) (p : SlabSupply)
    (read : List β) :
    (b.store others p read).2.1.content ++ b.leftover others p read = b.content ++ read :=
  store_rest others b p read

theorem leftover_eq (others : Nat → Nat → Nat) (b : SendBuffer β S) (p : SlabSupply)
    (read : List β) :
    b.leftover others p read =
      (SlabQueue.appendLoop S others read.length b.queue p read).2.2 := by
  rcases SlabQueue.appendLoop_stored others read.length b.queue p read b.ok with
    ⟨k, hk, hrest, -, -⟩
  have hstored : (b.store others p read).1 = k := by
    show read.length - (SlabQueue.appendLoop S others read.length b.queue p read).2.2.length = k
    rw [hrest, List.length_drop]
    omega
  unfold leftover
  rw [hstored, hrest]

theorem length_append_leftover (others : Nat → Nat → Nat) (b : SendBuffer β S) (p : SlabSupply)
    (read : List β) :
    (b.store others p read).2.1.content.length + (b.leftover others p read).length =
      b.content.length + read.length := by
  rw [← List.length_append, ← List.length_append, content_append_leftover]

theorem content_reclaim (others : Nat → Nat → Nat) (b : SendBuffer β S) (p : SlabSupply)
    (read : List β) :
    (b.reclaim others p read).1.content =
      (b.store others p read).2.1.content.drop (b.leftover others p read).length :=
  content_consume _ _ _

/-- A round that does not end the loop drops a byte, so contents and frame together get shorter. -/
theorem reclaim_shrinks (hleft : b.leftover others p read ≠ [])
    (hsome : (b.store others p read).2.1.content ≠ []) :
    (b.reclaim others p read).1.content.length + (b.leftover others p read).length <
      b.content.length + read.length := by
  have hleft : 0 < (b.leftover others p read).length := List.length_pos_iff.mpr hleft
  have hsome : 0 < (b.store others p read).2.1.content.length := List.length_pos_iff.mpr hsome
  have hall := length_append_leftover others b p read
  rw [content_reclaim, List.length_drop]
  omega

@[simp] theorem retryLoop_nil (others : Nat → Nat → Nat) (fuel : Nat) (b : SendBuffer β S)
    (p : SlabSupply) (result : AppendResult) :
    retryLoop others fuel b p [] result = (result, b, p) := by
  cases fuel <;> rfl

theorem retryLoop_stored (fuel : Nat) (result : AppendResult) (hread : read ≠ [])
    (hleft : b.leftover others p read = []) :
    retryLoop others (fuel + 1) b p read result = (result, (b.store others p read).2) := by
  unfold leftover at hleft
  simp [retryLoop, hread, hleft]

theorem dropOldest_reclaim (others : Nat → Nat → Nat) (b : SendBuffer β S) (p : SlabSupply)
    (read : List β) :
    (b.store others p read).2.1.dropOldest (b.store others p read).2.2
        (b.leftover others p read).length =
      (min (b.leftover others p read).length (b.store others p read).2.1.content.length,
        b.reclaim others p read) :=
  Prod.ext (dropOldest_spec _ _ _).1 rfl

/-- Nothing left to drop: the frame loses its rest. -/
theorem retryLoop_lost (fuel : Nat) (result : AppendResult)
    (hleft : b.leftover others p read ≠ []) (hnone : (b.store others p read).2.1.content = []) :
    retryLoop others (fuel + 1) b p read result =
      ({ droppedBytes := result.droppedBytes + (b.leftover others p read).length
         poolExhausted := true }, b.reclaim others p read) := by
  have hread : read ≠ [] := by
    intro hnil
    exact hleft (by simp [leftover, hnil])
  have hdrop := dropOldest_reclaim others b p read
  rw [hnone, List.length_nil, Nat.min_zero] at hdrop
  rw [retryLoop]
  unfold leftover at hleft hdrop ⊢
  simp only [List.isEmpty_iff, hread, hleft, if_false, hdrop, if_true, Nat.add_zero]

theorem retryLoop_again (fuel : Nat) (result : AppendResult)
    (hleft : b.leftover others p read ≠ []) (hsome : (b.store others p read).2.1.content ≠ []) :
    retryLoop others (fuel + 1) b p read result =
      retryLoop others fuel (b.reclaim others p read).1 (b.reclaim others p read).2
        (b.leftover others p read)
        { droppedBytes := result.droppedBytes +
            min (b.leftover others p read).length (b.store others p read).2.1.content.length
          poolExhausted := true } := by
  have hread : read ≠ [] := by
    intro hnil
    exact hleft (by simp [leftover, hnil])
  have hpos : min (b.leftover others p read).length (b.store others p read).2.1.content.length ≠ 0 := by
    have hleft : 0 < (b.leftover others p read).length := List.length_pos_iff.mpr hleft
    have hsome : 0 < (b.store others p read).2.1.content.length := List.length_pos_iff.mpr hsome
    omega
  have hdrop := dropOldest_reclaim others b p read
  rw [retryLoop]
  unfold leftover at hleft hdrop hpos ⊢
  simp only [List.isEmpty_iff, hread, hleft, if_false, hdrop, hpos]

/-- Invariant rule of the store-or-drop loop: it keeps what storing keeps and dropping old audio. -/
theorem retryLoop_invariant {P : SendBuffer β S → SlabSupply → Prop}
    (hstore : ∀ {b p} read, P b p → P (b.store others p read).2.1 (b.store others p read).2.2)
    (hdrop : ∀ {b p} bytes, P b p → P (b.consume p bytes).1 (b.consume p bytes).2)
    (fuel : Nat) (result : AppendResult) (h : P b p) :
    P (retryLoop others fuel b p read result).2.1 (retryLoop others fuel b p read result).2.2 := by
  induction fuel generalizing b p read result with
  | zero => exact h
  | succ fuel ih =>
      have hstored := hstore read h
      have hreclaimed : P (b.reclaim others p read).1 (b.reclaim others p read).2 :=
        hdrop (b.leftover others p read).length hstored
      by_cases hread : read = []
      · rw [hread, retryLoop_nil]
        exact h
      by_cases hleft : b.leftover others p read = []
      · rw [retryLoop_stored fuel result hread hleft]
        exact hstored
      by_cases hnone : (b.store others p read).2.1.content = []
      · rw [retryLoop_lost fuel result hleft hnone]
        exact hreclaimed
      · rw [retryLoop_again fuel result hleft hnone]
        exact ih _ hreclaimed

end Attempt

theorem retryLoop_accounted (others : Nat → Nat → Nat) :
    ∀ (fuel : Nat) (b : SendBuffer β S) (p : SlabSupply) (read : List β) (result : AppendResult),
      b.content.length + read.length < fuel →
        Accounted result.droppedBytes (b.content ++ read) (retryLoop others fuel b p read result) := by
  intro fuel
  induction fuel with
  | zero =>
      intro b p read result hfuel
      exact absurd hfuel (Nat.not_lt_zero _)
  | succ fuel ih =>
      intro b p read result hfuel
      by_cases hread : read = []
      · rw [hread, retryLoop_nil]
        exact ⟨0, Nat.zero_le _, rfl, by simp⟩
      have hall := content_append_leftover others b p read
      by_cases hleft : b.leftover others p read = []
      · rw [retryLoop_stored fuel result hread hleft]
        rw [hleft, List.append_nil] at hall
        exact ⟨0, Nat.zero_le _, rfl, hall⟩
      by_cases hnone : (b.store others p read).2.1.content = []
      · -- nothing left to drop: the buffer is empty and the rest of the frame is lost
        rw [retryLoop_lost fuel result hleft hnone, ← hall]
        refine ⟨(b.leftover others p read).length, ?_, rfl, ?_⟩
        · rw [List.length_append]
          exact Nat.le_add_left _ _
        · show (b.reclaim others p read).1.content = _
          rw [content_reclaim, hnone, List.drop_nil, List.nil_append, List.drop_length]
      · rw [retryLoop_again fuel result hleft hnone]
        have hshort := reclaim_shrinks hleft hnone
        have hround := ih (b.reclaim others p read).1 (b.reclaim others p read).2
          (b.leftover others p read)
          { droppedBytes := result.droppedBytes +
              min (b.leftover others p read).length (b.store others p read).2.1.content.length
            poolExhausted := true } (by omega)
        refine Accounted.after_drop
          (d := min (b.leftover others p read).length (b.store others p read).2.1.content.length)
          ?_ ?_
        · rw [← hall, List.length_append]
          omega
        · have hdrop : (b.store others p read).2.1.content.drop (b.leftover others p read).length =
              (b.store others p read).2.1.content.drop
                (min (b.leftover others p read).length
                  (b.store others p read).2.1.content.length) := by
            rw [List.drop_eq_drop_min]
          rw [← hall, List.drop_append_of_le_length (Nat.min_le_right _ _), ← hdrop,
            ← content_reclaim]
          exact hround

/-! ### What the cap takes first -/

/-- The part of a frame that fits the cap. -/
def newest (b : SendBuffer β S) (bytes : List β) : List β := bytes.drop (bytes.length - b.capBytes)

/-- The buffer with room under the cap for `n` bytes more, and what that cost. -/
def capped (b : SendBuffer β S) (p : SlabSupply) (n : Nat) : Nat × SendBuffer β S × SlabSupply :=
  if b.size + n > b.capBytes then
    b.dropOldest p (b.size + n - b.capBytes)
  else
    (0, b, p)

theorem append_skip {b : SendBuffer β S} {bytes : List β} (others : Nat → Nat → Nat)
    (p : SlabSupply) (h : bytes = [] ∨ b.capBytes = 0) :
    b.append others p bytes = ({ droppedBytes := bytes.length, poolExhausted := false }, b, p) := by
  unfold append
  rw [if_pos (by simpa using h)]

theorem append_eq {b : SendBuffer β S} {bytes : List β} (others : Nat → Nat → Nat) (p : SlabSupply)
    (hbytes : bytes ≠ []) (hcap : b.capBytes ≠ 0) :
    b.append others p bytes =
      retryLoop others
        ((b.capped p (b.newest bytes).length).2.1.size + (b.newest bytes).length + 1)
        (b.capped p (b.newest bytes).length).2.1 (b.capped p (b.newest bytes).length).2.2
        (b.newest bytes)
        { droppedBytes := bytes.length - b.capBytes + (b.capped p (b.newest bytes).length).1
          poolExhausted := false } := by
  unfold append
  rw [if_neg (by simp [hbytes, hcap])]
  rfl

theorem length_newest (b : SendBuffer β S) (bytes : List β) :
    (b.newest bytes).length = min bytes.length b.capBytes := by
  unfold newest
  rw [List.length_drop]
  omega

theorem capped_spec (b : SendBuffer β S) (p : SlabSupply) (n : Nat) :
    (b.capped p n).1 = min (b.content.length + n - b.capBytes) b.content.length ∧
      (b.capped p n).2.1.content = b.content.drop (b.capped p n).1 := by
  unfold capped
  split
  · rw [← size_eq]
    rcases dropOldest_spec b p (b.size + n - b.capBytes) with ⟨hdropped, hcontent⟩
    rw [hdropped] at hcontent ⊢
    rw [← size_eq] at hcontent ⊢
    exact ⟨rfl, hcontent⟩
  · rename_i hfits
    rw [← size_eq]
    exact ⟨by omega, rfl⟩

/-- What the cap takes before the frame is stored is the front of contents and frame. -/
theorem cap_drop (b : SendBuffer β S) (p : SlabSupply) (bytes : List β) :
    bytes.length - b.capBytes + (b.capped p (b.newest bytes).length).1 ≤
        (b.content ++ bytes).length ∧
      (b.capped p (b.newest bytes).length).2.1.content ++ b.newest bytes =
        (b.content ++ bytes).drop
          (bytes.length - b.capBytes + (b.capped p (b.newest bytes).length).1) := by
  rcases capped_spec b p (b.newest bytes).length with ⟨hdropped, hcontent⟩
  have hnewest := length_newest b bytes
  generalize b.capped p (b.newest bytes).length = r at hdropped hcontent ⊢
  refine ⟨by rw [List.length_append]; omega, ?_⟩
  rw [hcontent]
  rcases Nat.eq_zero_or_pos (bytes.length - b.capBytes) with hzero | hpos
  · -- the frame fits the cap: only old audio goes
    have hle : r.1 ≤ b.content.length := by omega
    have hfull : b.newest bytes = bytes := by simp [newest, hzero]
    rw [hzero, Nat.zero_add, List.drop_append_of_le_length hle, hfull]
  · -- the frame alone exceeds the cap: all old audio goes, and the front of the frame
    have hall : r.1 = b.content.length := by omega
    have hgone : bytes.length - b.capBytes + b.content.length ≥ b.content.length :=
      Nat.le_add_left _ _
    rw [hall, List.drop_length, List.drop_append, List.drop_eq_nil_of_le hgone,
      Nat.add_sub_cancel]
    rfl

/-- `Append` keeps the newest bytes of contents and frame and reports what it dropped. -/
theorem append_spec (others : Nat → Nat → Nat) (b : SendBuffer β S) (p : SlabSupply)
    (bytes : List β) (hcap : b.capBytes ≠ 0) :
    Accounted 0 (b.content ++ bytes) (b.append others p bytes) := by
  by_cases hbytes : bytes = []
  · rw [append_skip others p (Or.inl hbytes), hbytes]
    exact ⟨0, Nat.zero_le _, rfl, by simp⟩
  · rw [append_eq others p hbytes hcap]
    rcases cap_drop b p bytes with ⟨hle, hafter⟩
    refine Accounted.after_drop hle ?_
    rw [← hafter, Nat.zero_add]
    refine retryLoop_accounted others _ _ _ _ _ ?_
    rw [← size_eq]
    exact Nat.lt_succ_self _

theorem setCap_of_fits {b : SendBuffer β S} {capBytes : Nat} (p : SlabSupply)
    (h : b.size ≤ capBytes) : b.setCap p capBytes = (0, { b with capBytes := capBytes }, p) :=
  if_pos h

theorem setCap_spec (b : SendBuffer β S) (p : SlabSupply) (capBytes : Nat) :
    (b.setCap p capBytes).1 ≤ b.content.length ∧
      (b.setCap p capBytes).2.1.content = b.content.drop (b.setCap p capBytes).1 := by
  unfold setCap
  simp only
  split
  · exact ⟨Nat.zero_le _, by simp [content]⟩
  · rcases dropOldest_spec { b with capBytes := capBytes } p (b.size - capBytes) with
      ⟨hdropped, hcontent⟩
    refine ⟨?_, hcontent⟩
    exact Nat.le_trans (Nat.le_of_eq hdropped) (Nat.min_le_right _ _)

/-! ## The cap -/

theorem capBytes_retryLoop (others : Nat → Nat → Nat) (fuel : Nat) (b : SendBuffer β S)
    (p : SlabSupply) (read : List β) (result : AppendResult) :
    (retryLoop others fuel b p read result).2.1.capBytes = b.capBytes := by
  refine retryLoop_invariant (P := fun b' _ => b'.capBytes = b.capBytes) ?_ ?_ fuel result rfl
  · exact fun _ h => h
  · exact fun _ h => h

@[simp] theorem capBytes_append (others : Nat → Nat → Nat) (b : SendBuffer β S) (p : SlabSupply)
    (bytes : List β) : (b.append others p bytes).2.1.capBytes = b.capBytes := by
  unfold append
  split
  · rfl
  · simp only
    rw [capBytes_retryLoop]
    split <;> rfl

@[simp] theorem capBytes_setCap (b : SendBuffer β S) (p : SlabSupply) (capBytes : Nat) :
    (b.setCap p capBytes).2.1.capBytes = capBytes := by
  unfold setCap
  simp only
  split <;> rfl

end SendBuffer

end Buffers
end AudioFork
