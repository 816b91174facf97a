import AudioFork.Buffers.SendBuffer

/-!
# Newest — `Append` ends, and keeps the newest audio

The loops of `SlabQueue` and `SendBuffer` are given as many rounds as they can need.  Here they run
with any number of rounds (`appendWithin`), and past a bound the number makes no difference: the loops
end by themselves.

`answers` lists what `Acquire` answered during a call.  The pool is reported exhausted exactly when a
`false` is among the answers, and without one only the cap costs audio.
-/

namespace AudioFork
namespace Buffers

variable {β : Type} {S : ℕ+}

/-! ## Rounds -/

namespace SlabQueue

variable {others : Nat → Nat → Nat}

/-- One round more than the bytes left changes nothing. -/
theorem appendLoop_succ (fuel : Nat) {q : SlabQueue β} (p : SlabSupply) {read : List β}
    (hok : Ok S q) (hfuel : read.length ≤ fuel) :
    appendLoop S others (fuel + 1) q p read = appendLoop S others fuel q p read := by
  induction fuel generalizing q p read with
  | zero =>
      have hnil : read = [] := List.length_eq_zero_iff.mp (Nat.le_zero.mp hfuel)
      rw [hnil, appendLoop_nil, appendLoop_nil]
  | succ fuel ih =>
      by_cases hread : read = []
      · rw [hread, appendLoop_nil, appendLoop_nil]
      rcases dry_or_round S others q p read with ⟨hneed, p', hacquire⟩ | ⟨q', p', rest, hround⟩
      · rw [appendLoop_dry _ hread hneed hacquire, appendLoop_dry _ hread hneed hacquire]
      · -- a round stores a byte, so the rounds behind it are enough for the rest
        rw [appendLoop_round _ hread hround, appendLoop_round _ hread hround]
        rcases hround.spec hok hread with ⟨k, hpos, hk, rfl, -, hok'⟩
        refine ih p' hok' ?_
        rw [List.length_drop]
        omega

theorem appendLoop_stable {fuel : Nat} {q : SlabQueue β} (p : SlabSupply) {read : List β}
    (hok : Ok S q) (hfuel : read.length ≤ fuel) :
    appendLoop S others fuel q p read = appendLoop S others read.length q p read := by
  induction fuel, hfuel using Nat.le_induction with
  | base => rfl
  | succ fuel hfuel ih => rw [appendLoop_succ fuel p hok hfuel, ih]

/-- One round more than there are chunks changes nothing. -/
theorem consumeLoop_succ (fuel : Nat) {q : SlabQueue β} {n : Nat} (hok : Ok S q)
    (hfuel : q.chunks.length ≤ fuel) (hn : n ≤ q.size) :
    consumeLoop S (fuel + 1) q n = consumeLoop S fuel q n := by
  induction fuel generalizing q n with
  | zero =>
      have hnil : q.chunks = [] := List.length_eq_zero_iff.mp (Nat.le_zero.mp hfuel)
      simp [consumeLoop, hnil]
  | succ fuel ih =>
      by_cases hzero : n = 0
      · rw [hzero, consumeLoop_zero, consumeLoop_zero]
      rcases hok.layout.eq_nil_or_snoc with
        hnil | ⟨init, tail, hchunks, hinit, hbegin, hend, hdrained⟩
      · simp [consumeLoop, hnil]
      cases init with
      | nil =>
          -- a sole chunk holds all there is to drop
          have hle : n ≤ tail.size := by
            rw [hok.size_eq] at hn
            simpa [toList, hchunks] using hn
          rw [consume_sole_eq _ hchunks hle hzero, consume_sole_eq _ hchunks hle hzero]
      | cons front init =>
          have hcons : q.chunks = front :: (init ++ [tail]) := by simpa using hchunks
          rcases Nat.lt_or_ge n front.size with hlt | hge
          · rw [consume_front_kept hcons hzero hlt, consume_front_kept hcons hzero hlt]
          · have hinit' : ∀ c ∈ init, Filled S c := fun c hc => hinit c (by simp [hc])
            have htail : tail.begin < tail.endAt := by
              refine Nat.lt_of_le_of_ne hbegin ?_
              intro heq
              simpa using (hdrained heq).1
            rcases Layout.tail_of_filled hinit' htail hend with ⟨hlayout, hpop⟩
            rcases ok_front_gone hcons hok.size_eq hlayout with ⟨hok', -⟩
            cases hrest : init ++ [tail] with
            | nil => simp at hrest
            | cons d rest =>
                rw [hrest] at hcons hpop hok'
                rw [consume_front_drained hcons hzero hge hpop,
                  consume_front_drained hcons hzero hge hpop]
                refine ih hok' ?_ (Nat.sub_le_sub_right hn _)
                rw [hcons] at hfuel
                exact Nat.le_of_succ_le_succ hfuel

theorem consumeLoop_stable {fuel : Nat} {q : SlabQueue β} {n : Nat} (hok : Ok S q)
    (hfuel : q.chunks.length ≤ fuel) (hn : n ≤ q.size) :
    consumeLoop S fuel q n = consumeLoop S q.chunks.length q n := by
  induction fuel, hfuel using Nat.le_induction with
  | base => rfl
  | succ fuel hfuel ih => rw [consumeLoop_succ fuel hok hfuel hn, ih]

/-- Only the last chunk may hold nothing. -/
theorem Ok.chunks_length {q : SlabQueue β} (hok : Ok S q) : q.chunks.length ≤ q.toList.length + 1 := by
  rcases hok.layout.eq_nil_or_snoc with hnil | ⟨init, tail, hchunks, hinit, -, -, -⟩
  · simp [hnil]
  · have hbytes : init.length ≤ (init.flatMap Chunk.bytes).length := by
      clear hchunks
      induction init with
      | nil => exact Nat.zero_le _
      | cons c init ih =>
          have hunread : 0 < c.bytes.length := by
            have hfilled := (hinit c (by simp)).1
            rw [Chunk.length_bytes]
            unfold Chunk.size
            omega
          have hrest := ih fun d hd => hinit d (by simp [hd])
          rw [List.flatMap_cons, List.length_append, List.length_cons]
          omega
    rw [hchunks]
    unfold toList
    rw [hchunks, List.flatMap_append, List.length_append, List.length_append,
      List.length_singleton]
    omega

/-- `Append` with its loop cut off after `rounds`. -/
def appendWithin (S : ℕ+) (others : Nat → Nat → Nat) (rounds : Nat) (q : SlabQueue β)
    (p : SlabSupply) (bytes : List β) : Nat × SlabQueue β × SlabSupply :=
  match appendLoop S others rounds q p bytes with
  | (q', p', rest) => (bytes.length - rest.length, q', p')

/-- `Consume` with its loop cut off after `rounds`. -/
def consumeWithin (S : ℕ+) (rounds : Nat) (q : SlabQueue β) (p : SlabSupply) (bytes : Nat) :
    SlabQueue β × SlabSupply :=
  let q' := consumeLoop S rounds q (min bytes q.size)
  (q', p.release (q.chunks.length - q'.chunks.length))

theorem appendWithin_eq {rounds : Nat} {q : SlabQueue β} (p : SlabSupply) {bytes : List β}
    (hok : Ok S q) (h : bytes.length ≤ rounds) :
    q.appendWithin S others rounds p bytes = q.append S others p bytes := by
  unfold appendWithin append
  rw [appendLoop_stable p hok h]

theorem consumeWithin_eq {rounds : Nat} {q : SlabQueue β} (p : SlabSupply) (bytes : Nat)
    (hok : Ok S q) (h : q.toList.length < rounds) :
    q.consumeWithin S rounds p bytes = q.consume S p bytes := by
  have hchunks : q.chunks.length ≤ rounds := Nat.le_trans hok.chunks_length h
  unfold consumeWithin consume
  rw [consumeLoop_stable hok hchunks (Nat.min_le_right _ _)]

end SlabQueue

namespace SendBuffer

variable {others : Nat → Nat → Nat}

/-- The loop of `Append` with every loop cut off: its own after the second count, those of the queue
after `rounds`. -/
def retryWithin (S : ℕ+) (others : Nat → Nat → Nat) (rounds : Nat) :
    Nat → SlabQueue β → SlabSupply → List β → AppendResult →
      AppendResult × SlabQueue β × SlabSupply
  | 0, q, p, _, result => (result, q, p)
  | fuel + 1, q, p, read, result =>
      if read.isEmpty then
        (result, q, p)
      else
        match q.appendWithin S others rounds p read with
        | (stored, q₁, p₁) =>
            let rest := read.drop stored
            if rest.isEmpty then
              (result, q₁, p₁)
            else
              match q₁.consumeWithin S rounds p₁ rest.length with
              | (q₂, p₂) =>
                  let reclaimed := q₁.size - q₂.size
                  if reclaimed = 0 then
                    ({ droppedBytes := result.droppedBytes + reclaimed + rest.length
                       poolExhausted := true }, q₂, p₂)
                  else
                    retryWithin S others rounds fuel q₂ p₂ rest
                      { droppedBytes := result.droppedBytes + reclaimed
                        poolExhausted := true }

/-- `Append` with every loop cut off after `rounds`. -/
def appendWithin (others : Nat → Nat → Nat) (rounds : Nat) (b : SendBuffer β S) (p : SlabSupply)
    (bytes : List β) : AppendResult × SlabQueue β × SlabSupply :=
  if bytes.isEmpty ∨ b.capBytes = 0 then
    ({ droppedBytes := bytes.length, poolExhausted := false }, b.queue, p)
  else
    let skip := bytes.length - b.capBytes
    let read := bytes.drop skip
    match
      (if b.size + read.length > b.capBytes then
        b.queue.consumeWithin S rounds p (b.size + read.length - b.capBytes)
      else
        (b.queue, p)) with
    | (q, p₁) =>
        retryWithin S others rounds rounds q p₁ read
          { droppedBytes := skip + (b.size - q.size), poolExhausted := false }

/-- What `Append` answers, the queue and the pool it leaves. -/
def bare (r : AppendResult × SendBuffer β S × SlabSupply) : AppendResult × SlabQueue β × SlabSupply :=
  (r.1, r.2.1.queue, r.2.2)

/-- Past the bytes there are, the number of rounds makes no difference. -/
theorem retryWithin_eq (rounds fuel : Nat) {fuel' : Nat} {b : SendBuffer β S} (p : SlabSupply)
    {read : List β} (result : AppendResult) (hrounds : b.content.length + read.length < rounds)
    (hfuel : b.content.length + read.length < fuel)
    (hfuel' : b.content.length + read.length < fuel') :
    retryWithin S others rounds fuel b.queue p read result =
      bare (retryLoop others fuel' b p read result) := by
  induction fuel generalizing fuel' b p read result with
  | zero => exact absurd hfuel (Nat.not_lt_zero _)
  | succ fuel ih =>
      rcases Nat.exists_eq_add_one_of_ne_zero (Nat.ne_zero_of_lt hfuel') with ⟨more, rfl⟩
      by_cases hread : read = []
      · rw [hread, retryLoop_nil]
        rfl
      have hlength := length_append_leftover others b p read
      have hstore : b.queue.appendWithin S others rounds p read =
          ((b.store others p read).1, (b.store others p read).2.1.queue,
            (b.store others p read).2.2) :=
        SlabQueue.appendWithin_eq p b.ok (by omega)
      have hdrop : (b.store others p read).2.1.queue.consumeWithin S rounds
          (b.store others p read).2.2 (b.leftover others p read).length =
          ((b.reclaim others p read).1.queue, (b.reclaim others p read).2) :=
        SlabQueue.consumeWithin_eq _ _ (b.store others p read).2.1.ok
          (show (b.store others p read).2.1.content.length < rounds by omega)
      have hreclaimed : (b.store others p read).2.1.queue.size -
            (b.reclaim others p read).1.queue.size =
          min (b.leftover others p read).length (b.store others p read).2.1.content.length :=
        congrArg Prod.fst (dropOldest_reclaim others b p read)
      have hrest : read.drop (b.store others p read).1 = b.leftover others p read := rfl
      rw [retryWithin]
      simp only [List.isEmpty_iff, hread, if_false, hstore, hrest, hdrop, hreclaimed]
      by_cases hleft : b.leftover others p read = []
      · rw [retryLoop_stored more result hread hleft]
        exact if_pos hleft
      rw [if_neg hleft]
      by_cases hnone : (b.store others p read).2.1.content = []
      · rw [retryLoop_lost more result hleft hnone, hnone, List.length_nil, Nat.min_zero]
        rfl
      · rw [retryLoop_again more result hleft hnone]
        have hshort := reclaim_shrinks hleft hnone
        have hsome : min (b.leftover others p read).length
            (b.store others p read).2.1.content.length ≠ 0 := by
          have hleft : 0 < (b.leftover others p read).length := List.length_pos_iff.mpr hleft
          have hnone : 0 < (b.store others p read).2.1.content.length :=
            List.length_pos_iff.mpr hnone
          omega
        rw [if_neg hsome]
        exact ih _ _ (by omega) (by omega) (by omega)

theorem capped_within (rounds : Nat) (b : SendBuffer β S) (p : SlabSupply) (n : Nat)
    (h : b.content.length < rounds) :
    (if b.size + n > b.capBytes then b.queue.consumeWithin S rounds p (b.size + n - b.capBytes)
      else (b.queue, p)) = ((b.capped p n).2.1.queue, (b.capped p n).2.2) ∧
      b.size - (b.capped p n).2.1.queue.size = (b.capped p n).1 := by
  unfold capped
  split
  · exact ⟨SlabQueue.consumeWithin_eq p _ b.ok h, rfl⟩
  · exact ⟨rfl, Nat.sub_self _⟩

theorem appendWithin_eq {rounds : Nat} (b : SendBuffer β S) (p : SlabSupply) (bytes : List β)
    (hrounds : b.content.length + bytes.length < rounds) :
    b.appendWithin others rounds p bytes = bare (b.append others p bytes) := by
  by_cases hskip : bytes = [] ∨ b.capBytes = 0
  · rw [append_skip others p hskip]
    exact if_pos (by simpa using hskip)
  · rcases not_or.mp hskip with ⟨hbytes, hcap⟩
    have hcapped := capped_within rounds b p (b.newest bytes).length (by omega)
    have hcontent := (capped_spec b p (b.newest bytes).length).2
    have hlength := congrArg List.length hcontent
    have hnewest := length_newest b bytes
    rw [List.length_drop] at hlength
    rw [append_eq others p hbytes hcap, ← retryWithin_eq rounds rounds]
    · unfold appendWithin
      rw [if_neg (by simpa using hskip)]
      have hread : bytes.drop (bytes.length - b.capBytes) = b.newest bytes := rfl
      simp only [hread, hcapped.1, hcapped.2]
    · omega
    · omega
    · rw [← size_eq]
      exact Nat.lt_succ_self _

/-! ## Answers of the pool -/

end SendBuffer

namespace SlabQueue

/-- What `Acquire` answers in the loop of `Append`, call by call. -/
def appendAnswers (S : ℕ+) (others : Nat → Nat → Nat) :
    Nat → SlabQueue β → SlabSupply → List β → List Bool
  | 0, _, _, _ => []
  | fuel + 1, q, p, read =>
      if read.isEmpty then
        []
      else if q.needsChunk S then
        match q.acquireChunk others p with
        | (false, _, _) => [false]
        | (true, q', p') =>
            true :: appendAnswers S others fuel (q'.fillTail S read).1 p' (q'.fillTail S read).2
      else
        appendAnswers S others fuel (q.fillTail S read).1 p (q.fillTail S read).2

section Answers

variable {others : Nat → Nat → Nat} {q q' : SlabQueue β} {p p' : SlabSupply} {read rest : List β}

theorem calls_acquire (others : Nat → Nat → Nat) (p : SlabSupply) :
    (p.acquire others).2.calls = p.calls + 1 := by
  unfold SlabSupply.acquire
  simp only
  split <;> rfl

@[simp] theorem appendAnswers_nil (S : ℕ+) (others : Nat → Nat → Nat) (fuel : Nat)
    (q : SlabQueue β) (p : SlabSupply) : appendAnswers S others fuel q p [] = [] := by
  cases fuel <;> rfl

theorem appendAnswers_dry (fuel : Nat) (hread : read ≠ []) (hneed : q.needsChunk S = true)
    (hacquire : p.acquire others = (false, p')) :
    appendAnswers S others (fuel + 1) q p read = [false] := by
  simp [appendAnswers, acquireChunk, hread, hneed, hacquire]

/-- A round asks for a slab and gets it, or does not ask. -/
theorem appendAnswers_round (fuel : Nat) (hread : read ≠ [])
    (h : Round S others q p read q' p' rest) :
    ∃ got : List Bool, appendAnswers S others (fuel + 1) q p read =
        got ++ appendAnswers S others fuel q' p' rest ∧
      false ∉ got ∧ p'.calls = p.calls + got.length := by
  cases h with
  | room hneed => exact ⟨[], by simp [appendAnswers, hread, hneed], by simp, rfl⟩
  | fresh p' hneed hacquire =>
      refine ⟨[true], ?_, by simp, ?_⟩
      · simp [appendAnswers, acquireChunk, withFresh, hread, hneed, hacquire]
      · rw [List.length_singleton, ← calls_acquire others p, hacquire]

theorem calls_appendLoop (S : ℕ+) (others : Nat → Nat → Nat) (fuel : Nat) (q : SlabQueue β)
    (p : SlabSupply) (read : List β) :
    (appendLoop S others fuel q p read).2.1.calls =
      p.calls + (appendAnswers S others fuel q p read).length := by
  induction fuel generalizing q p read with
  | zero => rfl
  | succ fuel ih =>
      by_cases hread : read = []
      · rw [hread, appendLoop_nil, appendAnswers_nil]
        rfl
      rcases dry_or_round S others q p read with ⟨hneed, p', hacquire⟩ | ⟨q', p', rest, hround⟩
      · rw [appendLoop_dry fuel hread hneed hacquire, appendAnswers_dry fuel hread hneed hacquire,
          List.length_singleton, ← calls_acquire others p, hacquire]
      · rcases appendAnswers_round fuel hread hround with ⟨got, hanswers, -, hcalls⟩
        rw [appendLoop_round fuel hread hround, hanswers, ih, hcalls, List.length_append,
          Nat.add_assoc]

/-- The loop leaves something over exactly when the pool has refused a slab. -/
theorem leaves_rest_iff (others : Nat → Nat → Nat) {fuel : Nat} {q : SlabQueue β} (p : SlabSupply)
    {read : List β} (hok : Ok S q) (hfuel : read.length ≤ fuel) :
    (appendLoop S others fuel q p read).2.2 ≠ [] ↔
      false ∈ appendAnswers S others fuel q p read := by
  induction fuel generalizing q p read with
  | zero =>
      have hnil : read = [] := List.length_eq_zero_iff.mp (Nat.le_zero.mp hfuel)
      simp [hnil]
  | succ fuel ih =>
      by_cases hread : read = []
      · simp [hread]
      rcases dry_or_round S others q p read with ⟨hneed, p', hacquire⟩ | ⟨q', p', rest, hround⟩
      · rw [appendLoop_dry fuel hread hneed hacquire, appendAnswers_dry fuel hread hneed hacquire]
        simp [hread]
      · rcases hround.spec hok hread with ⟨k, hpos, hk, rfl, -, hok'⟩
        rcases appendAnswers_round fuel hread hround with ⟨got, hanswers, hgot, -⟩
        have hshort : (read.drop k).length ≤ fuel := by
          rw [List.length_drop]
          omega
        rw [appendLoop_round fuel hread hround, hanswers, List.mem_append, ih p' hok' hshort]
        simp [hgot]

end Answers

end SlabQueue

namespace SendBuffer

variable {others : Nat → Nat → Nat}

/-- What `Acquire` answers in one attempt to store. -/
def storeAnswers (others : Nat → Nat → Nat) (b : SendBuffer β S) (p : SlabSupply) (read : List β) :
    List Bool :=
  b.queue.appendAnswers S others read.length p read

/-- What `Acquire` answers in the store-or-drop loop. -/
def retryAnswers (others : Nat → Nat → Nat) : Nat → SendBuffer β S → SlabSupply → List β → List Bool
  | 0, _, _, _ => []
  | fuel + 1, b, p, read =>
      if read.isEmpty then
        []
      else
        b.storeAnswers others p read ++
          -- the loop ends when all is stored, or when there is nothing left to drop
          if (b.leftover others p read).isEmpty || (b.store others p read).2.1.empty then
            []
          else
            retryAnswers others fuel (b.reclaim others p read).1 (b.reclaim others p read).2
              (b.leftover others p read)

/-- What `Acquire` answers during an `Append`. -/
def answers (others : Nat → Nat → Nat) (b : SendBuffer β S) (p : SlabSupply) (bytes : List β) :
    List Bool :=
  if bytes.isEmpty ∨ b.capBytes = 0 then
    []
  else
    let read := b.newest bytes
    match b.capped p read.length with
    | (_, b₁, p₁) => retryAnswers others (b₁.size + read.length + 1) b₁ p₁ read

section Answers

variable {b : SendBuffer β S} {p : SlabSupply} {read : List β}

/-- An attempt leaves something over exactly when the pool has refused a slab. -/
theorem leftover_ne_nil_iff (others : Nat → Nat → Nat) (b : SendBuffer β S) (p : SlabSupply)
    (read : List β) : b.leftover others p read ≠ [] ↔ false ∈ b.storeAnswers others p read := by
  rw [leftover_eq]
  exact SlabQueue.leaves_rest_iff others p b.ok (Nat.le_refl _)

theorem calls_store (others : Nat → Nat → Nat) (b : SendBuffer β S) (p : SlabSupply)
    (read : List β) :
    (b.store others p read).2.2.calls = p.calls + (b.storeAnswers others p read).length :=
  SlabQueue.calls_appendLoop S others read.length b.queue p read

theorem retryAnswers_ends (fuel : Nat) (hread : read ≠ [])
    (h : b.leftover others p read = [] ∨ (b.store others p read).2.1.content = []) :
    retryAnswers others (fuel + 1) b p read = b.storeAnswers others p read := by
  rw [← content_eq_nil_iff_empty] at h
  rw [retryAnswers, if_neg (by simpa using hread), if_pos (by simpa using h), List.append_nil]

theorem retryAnswers_again (fuel : Nat) (hread : read ≠ []) (hleft : b.leftover others p read ≠ [])
    (hsome : (b.store others p read).2.1.content ≠ []) :
    retryAnswers others (fuel + 1) b p read =
      b.storeAnswers others p read ++
        retryAnswers others fuel (b.reclaim others p read).1 (b.reclaim others p read).2
          (b.leftover others p read) := by
  rw [ne_eq, ← content_eq_nil_iff_empty] at hsome
  rw [retryAnswers, if_neg (by simpa using hread), if_neg (by simp [hleft, hsome])]

theorem calls_reclaim (others : Nat → Nat → Nat) (b : SendBuffer β S) (p : SlabSupply)
    (read : List β) :
    (b.reclaim others p read).2.calls = p.calls + (b.storeAnswers others p read).length :=
  calls_store others b p read

/-- The list is complete: it has an entry for each call of `Acquire`. -/
theorem calls_retryLoop (others : Nat → Nat → Nat) (fuel : Nat) (b : SendBuffer β S)
    (p : SlabSupply) (read : List β) (result : AppendResult) :
    (retryLoop others fuel b p read result).2.2.calls =
      p.calls + (retryAnswers others fuel b p read).length := by
  induction fuel generalizing b p read result with
  | zero => rfl
  | succ fuel ih =>
      by_cases hread : read = []
      · simp [hread, retryAnswers]
      by_cases hleft : b.leftover others p read = []
      · rw [retryLoop_stored fuel result hread hleft, retryAnswers_ends fuel hread (Or.inl hleft)]
        exact calls_store others b p read
      by_cases hnone : (b.store others p read).2.1.content = []
      · rw [retryLoop_lost fuel result hleft hnone, retryAnswers_ends fuel hread (Or.inr hnone)]
        exact calls_reclaim others b p read
      · rw [retryLoop_again fuel result hleft hnone, retryAnswers_again fuel hread hleft hnone, ih,
          calls_reclaim, List.length_append, Nat.add_assoc]

/-- The loop reports an exhausted pool when it was told so, or when the pool has refused a slab. -/
theorem poolExhausted_retryLoop (others : Nat → Nat → Nat) {fuel : Nat} (b : SendBuffer β S)
    (p : SlabSupply) {read : List β} (result : AppendResult)
    (hfuel : b.content.length + read.length < fuel) :
    (retryLoop others fuel b p read result).1.poolExhausted = true ↔
      result.poolExhausted = true ∨ false ∈ retryAnswers others fuel b p read := by
  induction fuel generalizing b p read result with
  | zero => exact absurd hfuel (Nat.not_lt_zero _)
  | succ fuel ih =>
      by_cases hread : read = []
      · simp [hread, retryAnswers]
      have hrefused := leftover_ne_nil_iff others b p read
      by_cases hleft : b.leftover others p read = []
      · rw [retryLoop_stored fuel result hread hleft, retryAnswers_ends fuel hread (Or.inl hleft),
          ← hrefused]
        simp [hleft]
      by_cases hnone : (b.store others p read).2.1.content = []
      · rw [retryLoop_lost fuel result hleft hnone, retryAnswers_ends fuel hread (Or.inr hnone),
          ← hrefused]
        simp [hleft]
      · have hshort := reclaim_shrinks hleft hnone
        rw [retryLoop_again fuel result hleft hnone, retryAnswers_again fuel hread hleft hnone,
          ih _ _ _ (by omega), List.mem_append, ← hrefused]
        simp [hleft]

/-- As long as no slab is refused the first attempt stores everything. -/
theorem content_retryLoop (others : Nat → Nat → Nat) (fuel : Nat) (b : SendBuffer β S)
    (p : SlabSupply) (read : List β) (result : AppendResult)
    (h : false ∉ retryAnswers others (fuel + 1) b p read) :
    (retryLoop others (fuel + 1) b p read result).2.1.content = b.content ++ read := by
  by_cases hread : read = []
  · simp [hread]
  have hleft : b.leftover others p read = [] := by
    by_contra hleft
    refine h ?_
    rw [retryAnswers, if_neg (by simpa using hread)]
    exact List.mem_append_left _ ((leftover_ne_nil_iff others b p read).mp hleft)
  have hall := content_append_leftover others b p read
  rw [hleft, List.append_nil] at hall
  rw [retryLoop_stored fuel result hread hleft]
  exact hall

end Answers

/-! ## Append and SetCap -/

variable {b : SendBuffer β S} {bytes : List β}

/-- What the cap costs. -/
theorem capped_cost (p : SlabSupply) :
    bytes.length - b.capBytes + (b.capped p (b.newest bytes).length).1 =
      b.content.length + bytes.length - b.capBytes := by
  have hdropped := (capped_spec b p (b.newest bytes).length).1
  have hnewest := length_newest b bytes
  omega

theorem capped_newest (p : SlabSupply) :
    (b.capped p (b.newest bytes).length).2.1.content ++ b.newest bytes =
      (b.content ++ bytes).drop (b.content.length + bytes.length - b.capBytes) := by
  rw [(cap_drop b p bytes).2, capped_cost p]

/-- `Append` leaves a suffix of contents and frame, within the cap. -/
theorem append_suffix (others : Nat → Nat → Nat) (p : SlabSupply) (bytes : List β) (hcap : b.capBytes ≠ 0)
    (hfits : b.content.length ≤ b.capBytes) :
    (b.append others p bytes).2.1.content <:+ b.content ++ bytes ∧
      (b.append others p bytes).2.1.content.length + (b.append others p bytes).1.droppedBytes =
        b.content.length + bytes.length ∧
      (b.append others p bytes).2.1.content.length ≤ b.capBytes := by
  rcases append_spec others b p bytes hcap with ⟨k, hk, hdropped, hcontent⟩
  refine ⟨?_, ?_, ?_⟩
  · rw [hcontent]
    exact List.drop_suffix _ _
  · rw [hcontent, hdropped, List.length_drop, ← List.length_append]
    omega
  · by_cases hbytes : bytes = []
    · rw [append_skip others p (Or.inl hbytes)]
      exact hfits
    -- behind the cap's cut the loop only drops
    rw [append_eq others p hbytes hcap]
    rcases retryLoop_accounted others
      ((b.capped p (b.newest bytes).length).2.1.size + (b.newest bytes).length + 1)
      (b.capped p (b.newest bytes).length).2.1 (b.capped p (b.newest bytes).length).2.2
      (b.newest bytes)
      { droppedBytes := bytes.length - b.capBytes + (b.capped p (b.newest bytes).length).1
        poolExhausted := false } (by rw [← size_eq]; exact Nat.lt_succ_self _) with
      ⟨more, -, -, hmore⟩
    rw [hmore, capped_newest p, List.length_drop, List.length_drop, List.length_append]
    omega

theorem answers_skip (others : Nat → Nat → Nat) (p : SlabSupply)
    (h : bytes = [] ∨ b.capBytes = 0) : b.answers others p bytes = [] := by
  unfold answers
  rw [if_pos (by simpa using h)]

theorem answers_eq (others : Nat → Nat → Nat) (p : SlabSupply) (hbytes : bytes ≠ [])
    (hcap : b.capBytes ≠ 0) :
    b.answers others p bytes =
      retryAnswers others
        ((b.capped p (b.newest bytes).length).2.1.size + (b.newest bytes).length + 1)
        (b.capped p (b.newest bytes).length).2.1 (b.capped p (b.newest bytes).length).2.2
        (b.newest bytes) := by
  unfold answers
  rw [if_neg (by simp [hbytes, hcap])]

theorem calls_append (others : Nat → Nat → Nat) (b : SendBuffer β S) (p : SlabSupply)
    (bytes : List β) :
    (b.append others p bytes).2.2.calls = p.calls + (b.answers others p bytes).length := by
  by_cases hskip : bytes = [] ∨ b.capBytes = 0
  · rw [append_skip others p hskip, answers_skip others p hskip]
    rfl
  · have hcalls : (b.capped p (b.newest bytes).length).2.2.calls = p.calls := by
      unfold capped
      split <;> rfl
    rcases not_or.mp hskip with ⟨hbytes, hcap⟩
    rw [append_eq others p hbytes hcap, answers_eq others p hbytes hcap, calls_retryLoop, hcalls]

/-- `Append` reports an exhausted pool exactly when a slab was refused. -/
theorem poolExhausted_append (others : Nat → Nat → Nat) (b : SendBuffer β S) (p : SlabSupply)
    (bytes : List β) :
    (b.append others p bytes).1.poolExhausted = true ↔ false ∈ b.answers others p bytes := by
  by_cases hskip : bytes = [] ∨ b.capBytes = 0
  · rw [append_skip others p hskip, answers_skip others p hskip]
    simp
  · rcases not_or.mp hskip with ⟨hbytes, hcap⟩
    rw [append_eq others p hbytes hcap, answers_eq others p hbytes hcap,
      poolExhausted_retryLoop others _ _ _ (by rw [← size_eq]; exact Nat.lt_succ_self _)]
    simp

/-- Without a refusal only the cap costs audio. -/
theorem append_whole (others : Nat → Nat → Nat) (p : SlabSupply) (hcap : b.capBytes ≠ 0)
    (hfits : b.content.length ≤ b.capBytes) (h : false ∉ b.answers others p bytes) :
    (b.append others p bytes).2.1.content =
      (b.content ++ bytes).drop (b.content.length + bytes.length - b.capBytes) := by
  by_cases hbytes : bytes = []
  · have hzero : b.content.length + bytes.length - b.capBytes = 0 := by
      rw [hbytes]
      exact Nat.sub_eq_zero_of_le hfits
    rw [append_skip others p (Or.inl hbytes), hzero, hbytes, List.append_nil]
    rfl
  · rw [answers_eq others p hbytes hcap] at h
    rw [append_eq others p hbytes hcap, content_retryLoop others _ _ _ _ _ h, capped_newest p]

/-- `SetCap` leaves what fits the new cap. -/
theorem setCap_newest (b : SendBuffer β S) (p : SlabSupply) (capBytes : Nat) :
    (b.setCap p capBytes).2.1.content = b.content.drop (b.content.length - capBytes) ∧
      (b.setCap p capBytes).1 = b.content.length - capBytes := by
  have hreturned : (b.setCap p capBytes).1 = b.content.length - capBytes := by
    rw [← size_eq]
    unfold setCap
    simp only
    split
    · rename_i hfits
      exact (Nat.sub_eq_zero_of_le hfits).symm
    · rw [(dropOldest_spec _ _ _).1]
      show min (b.size - capBytes) b.content.length = _
      rw [← size_eq]
      omega
  exact ⟨hreturned ▸ (setCap_spec b p capBytes).2, hreturned⟩

/-- Whatever the pool answers, `Append` ends, leaves a suffix of contents and frame within the cap,
accounts for every byte, and reports exactly the refusals; without one it keeps all that the cap
allows.  `SetCap` keeps the longest suffix the new cap allows. -/
theorem append_keeps_newest (others : Nat → Nat → Nat) (b : SendBuffer β S) (p : SlabSupply)
    (bytes : List β) (hcap : b.capBytes ≠ 0) (hfits : b.content.length ≤ b.capBytes) :
    (∀ rounds, b.content.length + bytes.length < rounds →
        b.appendWithin others rounds p bytes = bare (b.append others p bytes)) ∧
      (b.append others p bytes).2.1.content <:+ b.content ++ bytes ∧
      (b.append others p bytes).2.1.content.length + (b.append others p bytes).1.droppedBytes =
        b.content.length + bytes.length ∧
      (b.append others p bytes).2.1.content.length ≤ b.capBytes ∧
      (b.append others p bytes).2.2.calls = p.calls + (b.answers others p bytes).length ∧
      ((b.append others p bytes).1.poolExhausted = true ↔ false ∈ b.answers others p bytes) ∧
      (false ∉ b.answers others p bytes →
        (b.append others p bytes).2.1.content.length =
          min b.capBytes (b.content.length + bytes.length)) ∧
      ∀ capBytes, (b.setCap p capBytes).2.1.content <:+ b.content ∧
        (b.setCap p capBytes).2.1.content.length = min capBytes b.content.length ∧
        (b.setCap p capBytes).1 + (b.setCap p capBytes).2.1.content.length = b.content.length := by
  rcases append_suffix others p bytes hcap hfits with ⟨hsuffix, haccount, hbound⟩
  refine ⟨fun rounds h => appendWithin_eq b p bytes h, hsuffix, haccount, hbound,
    calls_append others b p bytes, poolExhausted_append others b p bytes, ?_, ?_⟩
  · intro hgranted
    rw [append_whole others p hcap hfits hgranted, List.length_drop, List.length_append]
    omega
  · intro capBytes
    rcases setCap_newest b p capBytes with ⟨hcontent, hreturned⟩
    rw [hcontent, hreturned, List.length_drop]
    exact ⟨List.drop_suffix _ _, by omega, by omega⟩

/-- Two slabs of two bytes, of which the second is stolen between the calls: the last two bytes find
their slab only after the oldest three are gone. -/
theorem append_keeps_newest_stolen :
    let others : Nat → Nat → Nat := fun call left => if call = 1 then 0 else left
    let b : SendBuffer Nat 2 := (create 4 : SendBuffer Nat 2)
    let p : SlabSupply := { available := 2, calls := 0 }
    (b.append others p [1, 2, 3, 4, 5]).2.1.content.length ≤ 4 ∧
      ((b.append others p [1, 2, 3, 4, 5]).1.poolExhausted = true ↔
        false ∈ b.answers others p [1, 2, 3, 4, 5]) := by
  intro others b p
  have h := append_keeps_newest others b p [1, 2, 3, 4, 5] (by decide) (by decide)
  exact ⟨h.2.2.2.1, h.2.2.2.2.2.1⟩

end SendBuffer

end Buffers
end AudioFork
