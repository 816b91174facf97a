import AudioFork.Buffers.SendBuffer

/-!
# Room — whether `Append` gets the slabs it asks for

How often `Append` calls `Acquire` depends on how full the last slab is; how often it is answered, on
what the rest of the process does between the calls.  `acquires` is the first number and `grants` the
second question, both read off the state before the call.  `append_exhausted` says that together they
decide `pool_exhausted`, and `append_roomy` what an `Append` does that loses nothing.
-/

namespace AudioFork
namespace Buffers

variable {β : Type} {S : ℕ+} {others : Nat → Nat → Nat}

namespace SlabSupply

/-- The next `n` calls of `Acquire` all succeed. -/
def grants (others : Nat → Nat → Nat) : Nat → SlabSupply → Bool
  | 0, _ => true
  | n + 1, p =>
      match p.acquire others with
      | (got, p') => got && grants others n p'

theorem grants_succ (n : Nat) {p p' : SlabSupply} {got : Bool} (h : p.acquire others = (got, p')) :
    p.grants others (n + 1) = (got && p'.grants others n) := by
  rw [grants, h]

end SlabSupply

namespace SlabQueue

/-- Free bytes in the slab that is being filled. -/
def tailRoom (S : ℕ+) (q : SlabQueue β) : Nat :=
  match q.chunks.getLast? with
  | none => 0
  | some tail => (S : Nat) - tail.endAt

/-- The slabs that `n` more bytes call for, past the room in the last one. -/
def acquires (S : ℕ+) (q : SlabQueue β) (n : Nat) : Nat := (n - q.tailRoom S + (S - 1)) / S

variable {q q' : SlabQueue β} {p p' : SlabSupply} {read rest : List β}

@[simp] theorem acquires_zero (q : SlabQueue β) : q.acquires S 0 = 0 := by
  unfold acquires
  rw [Nat.zero_sub, Nat.zero_add]
  exact Nat.div_eq_of_lt (Nat.sub_lt S.pos Nat.one_pos)

theorem tailRoom_of_needsChunk (h : q.needsChunk S = true) : q.tailRoom S = 0 := by
  unfold needsChunk at h
  unfold tailRoom
  split at h <;> simp_all

/-- A round fills the last slab. -/
theorem fillTail_lengths (q : SlabQueue β) (read : List β) :
    (q.fillTail S read).2.length + min (q.tailRoom S) read.length = read.length ∧
      (q.fillTail S read).1.tailRoom S + min (q.tailRoom S) read.length = q.tailRoom S := by
  unfold fillTail
  split
  · rename_i hnone
    simp [tailRoom, hnone]
  · rename_i tail htail
    simp only [tailRoom, htail, List.getLast?_concat, Chunk.endAt, List.length_append,
      List.length_take, List.length_drop]
    omega

/-- Bytes that do not fit the last slab call for one more. -/
theorem acquires_fresh (hneed : q.needsChunk S = true) {n : Nat} (hn : 0 < n) :
    q.acquires S n = (n - S + (S - 1)) / S + 1 := by
  have hS : 0 < (S : Nat) := S.pos
  have hone : (n - S + (S - 1)) / S + 1 = (n - S + (S - 1) + S) / S :=
    (Nat.add_div_right _ hS).symm
  unfold acquires
  rw [tailRoom_of_needsChunk hneed, hone]
  rcases Nat.lt_or_ge n S with hlt | hge
  · -- less than a slab: one is called for, whatever the length
    rw [Nat.sub_eq_zero_of_le (Nat.le_of_lt hlt), Nat.div_eq_of_lt_le (k := 1) (by omega) (by omega),
      Nat.div_eq_of_lt_le (k := 1) (by omega) (by omega)]
  · congr 1
    omega

/-- A round changes neither which slabs are still called for nor whether they are granted. -/
theorem grants_round (hround : Round S others q p read q' p' rest) (hread : read ≠ []) (n : Nat) :
    p.grants others (q.acquires S (read.length + n)) =
      p'.grants others (q'.acquires S (rest.length + n)) := by
  cases hround with
  | room _ =>
      rcases fillTail_lengths (S := S) q read with ⟨hrest, hroom⟩
      -- the room shrinks by just what is stored
      have hsame : read.length + n - q.tailRoom S =
          (q.fillTail S read).2.length + n - (q.fillTail S read).1.tailRoom S := by
        omega
      unfold acquires
      rw [hsame]
  | fresh p' hneed hacquire =>
      rcases fillTail_lengths (S := S) q.withFresh read with ⟨hrest, hroom⟩
      have hfresh : q.withFresh.tailRoom S = S := by
        simp [withFresh, tailRoom, Chunk.endAt]
      rw [hfresh] at hrest hroom
      have hless : read.length + n - S =
          (q.withFresh.fillTail S read).2.length + n - (q.withFresh.fillTail S read).1.tailRoom S := by
        omega
      -- the slab acquired is the first of those called for
      have hpos : 0 < read.length + n := Nat.add_pos_left (List.length_pos_iff.mpr hread) n
      rw [acquires_fresh hneed hpos, SlabSupply.grants_succ _ hacquire, Bool.true_and, hless]
      rfl

/-- The loop stores everything, with slabs to spare for `n` bytes more, just when it is granted all
of them. -/
theorem grants_appendLoop (n : Nat) {fuel : Nat} (hok : Ok S q) (hfuel : read.length ≤ fuel) :
    p.grants others (q.acquires S (read.length + n)) = true ↔
      (appendLoop S others fuel q p read).2.2 = [] ∧
        (appendLoop S others fuel q p read).2.1.grants others
          ((appendLoop S others fuel q p read).1.acquires S n) = true := by
  induction fuel generalizing q p read with
  | zero =>
      have hnil : read = [] := List.length_eq_zero_iff.mp (Nat.le_zero.mp hfuel)
      simp [hnil]
  | succ fuel ih =>
      by_cases hread : read = []
      · simp [hread]
      rcases dry_or_round S others q p read with ⟨hneed, p', hacquire⟩ | ⟨q', p', rest, hround⟩
      · -- the refused slab is one of those called for
        have hpos : 0 < read.length + n := Nat.add_pos_left (List.length_pos_iff.mpr hread) n
        rw [appendLoop_dry fuel hread hneed hacquire, acquires_fresh hneed hpos,
          SlabSupply.grants_succ _ hacquire]
        simp [hread]
      · rcases hround.spec hok hread with ⟨k, hk, -, hrest, -, hok'⟩
        have hless : rest.length ≤ fuel := by
          rw [hrest, List.length_drop]
          omega
        rw [appendLoop_round fuel hread hround, grants_round hround hread n]
        exact ih hok' hless

end SlabQueue

namespace SendBuffer

variable {b : SendBuffer β S} {p : SlabSupply} {read bytes : List β}

theorem leftover_eq_nil_iff :
    b.leftover others p read = [] ↔ p.grants others (b.queue.acquires S read.length) = true := by
  have hgrants : p.grants others (b.queue.acquires S (read.length + 0)) = true ↔ _ :=
    SlabQueue.grants_appendLoop 0 b.ok (Nat.le_refl read.length)
  rw [SlabQueue.acquires_zero, SlabSupply.grants, Nat.add_zero] at hgrants
  rw [leftover_eq, hgrants]
  simp

/-! ## A frame of any size -/

/-- Of a frame of `n` bytes, what the cap lets in finds its slabs once the oldest audio above the cap
is gone. -/
def houses (others : Nat → Nat → Nat) (b : SendBuffer β S) (p : SlabSupply) (n : Nat) : Bool :=
  match b.capped p (min n b.capBytes) with
  | (_, b₁, p₁) => p₁.grants others (b₁.queue.acquires S (min n b.capBytes))

/-- The loop never takes back that the pool was exhausted. -/
theorem retryLoop_exhausted (others : Nat → Nat → Nat) (fuel : Nat) (b : SendBuffer β S)
    (p : SlabSupply) (read : List β) {result : AppendResult} (h : result.poolExhausted = true) :
    (retryLoop others fuel b p read result).1.poolExhausted = true := by
  induction fuel generalizing b p read result with
  | zero => exact h
  | succ fuel ih =>
      by_cases hread : read = []
      · rw [hread, retryLoop_nil]
        exact h
      by_cases hleft : b.leftover others p read = []
      · rw [retryLoop_stored fuel result hread hleft]
        exact h
      by_cases hnone : (b.store others p read).2.1.content = []
      · rw [retryLoop_lost fuel result hleft hnone]
      · rw [retryLoop_again fuel result hleft hnone]
        exact ih _ _ _ rfl

theorem exhausted_retryLoop (fuel : Nat) {result : AppendResult} (hread : read ≠ [])
    (hfresh : result.poolExhausted = false) :
    (retryLoop others (fuel + 1) b p read result).1.poolExhausted =
      !p.grants others (b.queue.acquires S read.length) := by
  by_cases hleft : b.leftover others p read = []
  · rw [retryLoop_stored fuel result hread hleft, leftover_eq_nil_iff.mp hleft]
    exact hfresh
  · have hrefused : p.grants others (b.queue.acquires S read.length) = false := by
      rw [← Bool.not_eq_true, ← leftover_eq_nil_iff]
      exact hleft
    rw [hrefused]
    -- whether the loop gives up or drops and tries again, the flag is up
    by_cases hnone : (b.store others p read).2.1.content = []
    · rw [retryLoop_lost fuel result hleft hnone]
      rfl
    · rw [retryLoop_again fuel result hleft hnone]
      exact retryLoop_exhausted others fuel _ _ _ rfl

/-- `pool_exhausted` is what `Acquire` answers the first attempt. -/
theorem append_exhausted (others : Nat → Nat → Nat) (b : SendBuffer β S) (p : SlabSupply)
    (bytes : List β) :
    (b.append others p bytes).1.poolExhausted = !b.houses others p bytes.length := by
  have hhouses : b.houses others p bytes.length =
      (b.capped p (b.newest bytes).length).2.2.grants others
        ((b.capped p (b.newest bytes).length).2.1.queue.acquires S (b.newest bytes).length) := by
    rw [length_newest]
    rfl
  have hlength := length_newest b bytes
  rw [hhouses]
  by_cases hread : b.newest bytes = []
  · -- an empty frame or a cap of zero: nothing is called for
    have hskip : bytes = [] ∨ b.capBytes = 0 := by
      rw [← List.length_eq_zero_iff]
      rw [hread, List.length_nil] at hlength
      omega
    rw [append_skip others p hskip, hread, List.length_nil, SlabQueue.acquires_zero]
    rfl
  · have hpos : 0 < (b.newest bytes).length := List.length_pos_iff.mpr hread
    have hbytes : bytes ≠ [] := List.length_pos_iff.mp (by omega)
    rw [append_eq others p hbytes (by omega)]
    exact exhausted_retryLoop _ hread rfl

/-! ## A frame that fits -/

/-- There is room for `n` bytes more: under the cap, and in slabs. -/
def roomy (others : Nat → Nat → Nat) (b : SendBuffer β S) (p : SlabSupply) (n : Nat) : Bool :=
  decide (b.size + n ≤ b.capBytes) && p.grants others (b.queue.acquires S n)

/-- Where there is room for a frame and `n` bytes behind it, `Append` loses nothing and leaves room for
the `n` bytes. -/
theorem append_roomy {n : Nat} (h : b.roomy others p (bytes.length + n) = true) (hbytes : bytes ≠ []) :
    (b.append others p bytes).1 = { droppedBytes := 0, poolExhausted := false } ∧
      (b.append others p bytes).2.1.roomy others (b.append others p bytes).2.2 n = true := by
  unfold roomy at h
  rw [Bool.and_eq_true, decide_eq_true_eq] at h
  rcases h with ⟨hcap, hgrants⟩
  have hpos : 0 < bytes.length := List.length_pos_iff.mpr hbytes
  -- nothing is skipped and nothing dropped, so the first attempt is made with the frame as it is
  have hnewest : b.newest bytes = bytes := by
    unfold newest
    rw [Nat.sub_eq_zero_of_le (by omega), List.drop_zero]
  have hcapped : b.capped p bytes.length = (0, b, p) := by
    unfold capped
    rw [if_neg (by omega)]
  rcases (SlabQueue.grants_appendLoop n b.ok (Nat.le_refl bytes.length)).mp hgrants with
    ⟨hstored, hspare⟩
  have hleft : b.leftover others p bytes = [] := (leftover_eq others b p bytes).trans hstored
  have hstore := length_append_leftover others b p bytes
  rw [append_eq others p hbytes (by omega), hnewest, hcapped, retryLoop_stored _ _ hbytes hleft]
  refine ⟨by simp only [Nat.sub_eq_zero_of_le (show bytes.length ≤ b.capBytes by omega)], ?_⟩
  unfold roomy
  rw [hleft, List.length_nil, ← size_eq, ← size_eq] at hstore
  rw [Bool.and_eq_true, decide_eq_true_eq]
  refine ⟨?_, hspare⟩
  show (b.store others p bytes).2.1.size + n ≤ b.capBytes
  omega

end SendBuffer

end Buffers
end AudioFork
