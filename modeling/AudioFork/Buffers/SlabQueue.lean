import Mathlib.Algebra.BigOperators.Group.List.Basic
import Mathlib.Data.List.Basic
import Mathlib.Data.PNat.Basic
import AudioFork.Buffers.SlabSupply

/-!
# SlabQueue — a byte FIFO held in leased slabs

A queue is a deque of chunks; a chunk is a leased slab with the part of it that is in use.  Bytes
beyond `endAt` are never read, so a chunk keeps only what has been written.  The operations follow
`slab_queue.cpp` loop by loop; `SlabQueue.Ok` is the representation invariant they maintain and
`toList` the FIFO the queue stands for.
-/

namespace AudioFork
namespace Buffers

variable {β : Type}

/-- One leased slab: the bytes written so far and the offset of the first unread one. -/
structure Chunk (β : Type) where
  storage : List β
  begin : Nat
  deriving DecidableEq, Repr

namespace Chunk

def endAt (c : Chunk β) : Nat := c.storage.length

def size (c : Chunk β) : Nat := c.endAt - c.begin

def bytes (c : Chunk β) : List β := c.storage.drop c.begin

@[simp] theorem length_bytes (c : Chunk β) : c.bytes.length = c.size := by
  simp [bytes, size, endAt]

end Chunk

structure SlabQueue (β : Type) where
  size : Nat
  chunks : List (Chunk β)
  deriving DecidableEq, Repr

namespace SlabQueue

def empty : SlabQueue β := { size := 0, chunks := [] }

/-- The bytes in the queue, oldest first. -/
def toList (q : SlabQueue β) : List β := q.chunks.flatMap Chunk.bytes

/-! ## Append -/

def acquireChunk (others : Nat → Nat → Nat) (q : SlabQueue β) (p : SlabSupply) :
    Bool × SlabQueue β × SlabSupply :=
  match p.acquire others with
  | (true, p') => (true, { q with chunks := q.chunks ++ [{ storage := [], begin := 0 }] }, p')
  | (false, p') => (false, q, p')

/-- `chunks_.empty() || chunks_.back().end == chunks_.back().lease.bytes().size()`. -/
def needsChunk (S : ℕ+) (q : SlabQueue β) : Bool :=
  match q.chunks.getLast? with
  | none => true
  | some tail => tail.endAt == (S : Nat)

/-- Copy as much of `read` as the last slab still takes; the second component is what is left. -/
def fillTail (S : ℕ+) (q : SlabQueue β) (read : List β) : SlabQueue β × List β :=
  match q.chunks.getLast? with
  | none => (q, read)
  | some tail =>
      let take := min ((S : Nat) - tail.endAt) read.length
      ({ size := q.size + take
         chunks := q.chunks.dropLast ++ [{ tail with storage := tail.storage ++ read.take take }] },
        read.drop take)

/-- The loop of `Append`.  Every round stores at least one byte, so the length of the input is
fuel enough. -/
def appendLoop (S : ℕ+) (others : Nat → Nat → Nat) :
    Nat → SlabQueue β → SlabSupply → List β → SlabQueue β × SlabSupply × List β
  | 0, q, p, read => (q, p, read)
  | fuel + 1, q, p, read =>
      if read.isEmpty then
        (q, p, read)
      else if q.needsChunk S then
        match q.acquireChunk others p with
        | (false, q', p') => (q', p', read)
        | (true, q', p') =>
            appendLoop S others fuel (q'.fillTail S read).1 p' (q'.fillTail S read).2
      else
        appendLoop S others fuel (q.fillTail S read).1 p (q.fillTail S read).2

/-- Returns the number of bytes stored; short only when the pool is exhausted. -/
def append (S : ℕ+) (others : Nat → Nat → Nat) (q : SlabQueue β) (p : SlabSupply)
    (bytes : List β) : Nat × SlabQueue β × SlabSupply :=
  match appendLoop S others bytes.length q p bytes with
  | (q', p', rest) => (bytes.length - rest.length, q', p')

/-! ## Peek, Consume, Clear -/

/-- The contiguous front run, at most `maxBytes` of it. -/
def peek (q : SlabQueue β) (maxBytes : Nat) : List β :=
  match q.chunks with
  | [] => []
  | front :: _ => if maxBytes = 0 then [] else front.bytes.take maxBytes

/-- A drained front chunk goes, except a sole one that is not full. -/
def popFrontIfDrained (S : ℕ+) : List (Chunk β) → List (Chunk β)
  | [] => []
  -- a partially filled tail stays alive: it is still the append target
  | [c] => if c.size = 0 ∧ c.endAt = (S : Nat) then [] else [c]
  | c :: d :: rest => if c.size = 0 then popFrontIfDrained S (d :: rest) else c :: d :: rest

/-- The loop of `Consume`; every round but the last drains a chunk. -/
def consumeLoop (S : ℕ+) : Nat → SlabQueue β → Nat → SlabQueue β
  | 0, q, _ => q
  | fuel + 1, q, remaining =>
      match q.chunks with
      | [] => q
      | front :: rest =>
          if remaining = 0 then
            q
          else
            let take := min front.size remaining
            consumeLoop S fuel
              { size := q.size - take
                chunks :=
                  popFrontIfDrained S ({ front with begin := front.begin + take } :: rest) }
              (remaining - take)

/-- Leases of drained chunks go back to the pool. -/
def consume (S : ℕ+) (q : SlabQueue β) (p : SlabSupply) (bytes : Nat) :
    SlabQueue β × SlabSupply :=
  let q' := consumeLoop S q.chunks.length q (min bytes q.size)
  (q', p.release (q.chunks.length - q'.chunks.length))

def clear (q : SlabQueue β) (p : SlabSupply) : SlabQueue β × SlabSupply :=
  (empty, p.release q.chunks.length)

/-! ## The representation invariant -/

/-- A slab that is written to its end and still has unread bytes. -/
def Filled (S : ℕ+) (c : Chunk β) : Prop :=
  c.begin < c.endAt ∧ c.endAt = (S : Nat)

/-- All chunks but the last are filled; the last may be drained only when it is the sole one, and
then it can still be appended to. -/
inductive Layout (S : ℕ+) : List (Chunk β) → Prop where
  | nil : Layout S []
  | snoc (init : List (Chunk β)) (tail : Chunk β)
      (hinit : ∀ c ∈ init, Filled S c)
      (hbegin : tail.begin ≤ tail.endAt)
      (hend : tail.endAt ≤ (S : Nat))
      (hdrained : tail.begin = tail.endAt → init = [] ∧ tail.endAt < (S : Nat)) :
      Layout S (init ++ [tail])

structure Ok (S : ℕ+) (q : SlabQueue β) : Prop where
  size_eq : q.size = q.toList.length
  layout : Layout S q.chunks

theorem ok_empty (S : ℕ+) : Ok S (empty : SlabQueue β) :=
  { size_eq := rfl
    layout := .nil }

/-! ### Append keeps it -/

/-- One round of the append loop on a queue whose last chunk has room. -/
theorem fillTail_spec {S : ℕ+} {q : SlabQueue β} {init : List (Chunk β)} {tail : Chunk β}
    {read : List β} (hchunks : q.chunks = init ++ [tail]) (hsize : q.size = q.toList.length)
    (hinit : ∀ c ∈ init, Filled S c) (hbegin : tail.begin ≤ tail.endAt)
    (hroom : tail.endAt < (S : Nat)) (hread : read ≠ []) :
    ∃ k, 0 < k ∧ k ≤ read.length ∧ (q.fillTail S read).2 = read.drop k ∧
      (q.fillTail S read).1.toList = q.toList ++ read.take k ∧ Ok S (q.fillTail S read).1 := by
  have hpos : 0 < read.length := List.length_pos_iff.mpr hread
  let k := min ((S : Nat) - tail.endAt) read.length
  have hk : 0 < k := by
    simp only [k]
    omega
  have hkle : k ≤ read.length := Nat.min_le_right _ _
  have hfill : q.fillTail S read =
      ({ size := q.size + k
         chunks := init ++ [{ tail with storage := tail.storage ++ read.take k }] },
        read.drop k) := by
    simp [fillTail, hchunks, k]
  have hlist : (q.fillTail S read).1.toList = q.toList ++ read.take k := by
    have hb : tail.begin ≤ tail.storage.length := hbegin
    rw [hfill]
    simp [toList, hchunks, Chunk.bytes, List.drop_append_of_le_length hb]
  refine ⟨k, hk, hkle, by rw [hfill], hlist, ?_⟩
  constructor
  · rw [hlist, hfill]
    simp [hsize, Nat.min_eq_left hkle]
  · rw [hfill]
    have hend : Chunk.endAt { tail with storage := tail.storage ++ read.take k } =
        tail.endAt + k := by
      simp [Chunk.endAt, Nat.min_eq_left hkle]
    refine .snoc init _ hinit ?_ ?_ ?_
    · rw [hend]
      exact Nat.le_trans hbegin (Nat.le_add_right _ _)
    · rw [hend]
      simp only [k]
      omega
    · -- the chunk just received at least one byte
      intro hdrained
      rw [hend] at hdrained
      simp only at hdrained
      omega

/-- `r` is what an append of `read` to `q` may end with: some prefix stored, the rest left over. -/
def Stored (S : ℕ+) (q : SlabQueue β) (read : List β)
    (r : SlabQueue β × SlabSupply × List β) : Prop :=
  ∃ k, k ≤ read.length ∧ r.2.2 = read.drop k ∧ r.1.toList = q.toList ++ read.take k ∧ Ok S r.1

theorem Stored.nothing {S : ℕ+} {q q' : SlabQueue β} (p : SlabSupply) (read : List β)
    (hok : Ok S q') (hsame : q'.toList = q.toList) : Stored S q read (q', p, read) :=
  ⟨0, Nat.zero_le _, by simp, by simp [hsame], hok⟩

/-- One stored prefix after another is a stored prefix. -/
theorem Stored.round {S : ℕ+} {q q₁ : SlabQueue β} {read : List β} {k : Nat}
    {r : SlabQueue β × SlabSupply × List β} (hk : k ≤ read.length)
    (hlist : q₁.toList = q.toList ++ read.take k) (h : Stored S q₁ (read.drop k) r) :
    Stored S q read r := by
  rcases h with ⟨k', hk', hrest, hlist', hok⟩
  simp only [List.length_drop] at hk'
  refine ⟨k + k', by omega, ?_, ?_, hok⟩
  · rw [hrest, List.drop_drop]
  · rw [hlist', hlist, List.append_assoc, List.take_add]

theorem Layout.eq_nil_or_snoc {S : ℕ+} {chunks : List (Chunk β)} (h : Layout S chunks) :
    chunks = [] ∨ ∃ init tail, chunks = init ++ [tail] ∧ (∀ c ∈ init, Filled S c) ∧
      tail.begin ≤ tail.endAt ∧ tail.endAt ≤ (S : Nat) ∧
      (tail.begin = tail.endAt → init = [] ∧ tail.endAt < (S : Nat)) := by
  cases h with
  | nil => exact Or.inl rfl
  | snoc init tail hinit hbegin hend hdrained =>
      exact Or.inr ⟨init, tail, rfl, hinit, hbegin, hend, hdrained⟩

/-- When a new chunk is called for, every chunk the queue holds is filled. -/
theorem Ok.filled_of_needsChunk {S : ℕ+} {q : SlabQueue β} (hok : Ok S q)
    (hneed : q.needsChunk S = true) : ∀ c ∈ q.chunks, Filled S c := by
  intro c hc
  rcases hok.layout.eq_nil_or_snoc with hnil | ⟨init, tail, hchunks, hinit, hbegin, _, hdrained⟩
  · simp [hnil] at hc
  · have hfull : tail.endAt = (S : Nat) := by
      simpa [needsChunk, hchunks] using hneed
    rw [hchunks] at hc
    rcases List.mem_append.1 hc with hin | htail
    · exact hinit c hin
    · obtain rfl : c = tail := by simpa using htail
      refine ⟨Nat.lt_of_le_of_ne hbegin ?_, hfull⟩
      intro heq
      have := (hdrained heq).2
      omega

/-- When none is, the last chunk has room. -/
theorem Ok.room_of_not_needsChunk {S : ℕ+} {q : SlabQueue β} (hok : Ok S q)
    (hneed : q.needsChunk S = false) :
    ∃ init tail, q.chunks = init ++ [tail] ∧ (∀ c ∈ init, Filled S c) ∧
      tail.begin ≤ tail.endAt ∧ tail.endAt < (S : Nat) := by
  rcases hok.layout.eq_nil_or_snoc with hnil | ⟨init, tail, hchunks, hinit, hbegin, hend, _⟩
  · simp [needsChunk, hnil] at hneed
  · have hne : tail.endAt ≠ (S : Nat) := by
      simpa [needsChunk, hchunks] using hneed
    exact ⟨init, tail, hchunks, hinit, hbegin, Nat.lt_of_le_of_ne hend hne⟩

/-- A round that fills the room left in the last chunk. -/
theorem Ok.fillTail_room {S : ℕ+} {q : SlabQueue β} {read : List β} (hok : Ok S q)
    (hneed : q.needsChunk S = false) (hread : read ≠ []) :
    ∃ k, 0 < k ∧ k ≤ read.length ∧ (q.fillTail S read).2 = read.drop k ∧
      (q.fillTail S read).1.toList = q.toList ++ read.take k ∧ Ok S (q.fillTail S read).1 := by
  rcases hok.room_of_not_needsChunk hneed with ⟨init, tail, hchunks, hinit, hbegin, hroom⟩
  exact fillTail_spec hchunks hok.size_eq hinit hbegin hroom hread

/-- The queue with a chunk it has just acquired. -/
def withFresh (q : SlabQueue β) : SlabQueue β :=
  { q with chunks := q.chunks ++ [{ storage := [], begin := 0 }] }

/-- A round that fills a fresh chunk. -/
theorem Ok.fillTail_fresh {S : ℕ+} {q : SlabQueue β} {read : List β} (hok : Ok S q)
    (hneed : q.needsChunk S = true) (hread : read ≠ []) :
    ∃ k, 0 < k ∧ k ≤ read.length ∧ (q.withFresh.fillTail S read).2 = read.drop k ∧
      (q.withFresh.fillTail S read).1.toList = q.toList ++ read.take k ∧
      Ok S (q.withFresh.fillTail S read).1 := by
  -- the fresh chunk is empty, so the contents are still those of `q`
  have hsame : q.withFresh.toList = q.toList := by simp [withFresh, toList, Chunk.bytes]
  have hsize : q.withFresh.size = q.withFresh.toList.length := by
    rw [hsame]
    exact hok.size_eq
  have hfill := fillTail_spec (q := q.withFresh) rfl hsize (hok.filled_of_needsChunk hneed)
    (Nat.le_refl 0) S.pos hread
  rwa [hsame] at hfill

/-- A round of the append loop that stores: into the room left in the last chunk, or into a chunk
just acquired. -/
inductive Round (S : ℕ+) (others : Nat → Nat → Nat) (q : SlabQueue β) (p : SlabSupply)
    (read : List β) : SlabQueue β → SlabSupply → List β → Prop where
  | room (hneed : q.needsChunk S = false) :
      Round S others q p read (q.fillTail S read).1 p (q.fillTail S read).2
  | fresh (p' : SlabSupply) (hneed : q.needsChunk S = true)
      (hacquire : p.acquire others = (true, p')) :
      Round S others q p read (q.withFresh.fillTail S read).1 p' (q.withFresh.fillTail S read).2

section Rounds

variable {S : ℕ+} {others : Nat → Nat → Nat} {q q' : SlabQueue β} {p p' : SlabSupply}
  {read rest : List β}

theorem Round.spec (h : Round S others q p read q' p' rest) (hok : Ok S q) (hread : read ≠ []) :
    ∃ k, 0 < k ∧ k ≤ read.length ∧ rest = read.drop k ∧ q'.toList = q.toList ++ read.take k ∧
      Ok S q' := by
  cases h with
  | room hneed => exact hok.fillTail_room hneed hread
  | fresh p' hneed hacquire => exact hok.fillTail_fresh hneed hread

@[simp] theorem appendLoop_nil (S : ℕ+) (others : Nat → Nat → Nat) (fuel : Nat) (q : SlabQueue β)
    (p : SlabSupply) : appendLoop S others fuel q p [] = (q, p, []) := by
  cases fuel <;> rfl

theorem appendLoop_dry (fuel : Nat) (hread : read ≠ []) (hneed : q.needsChunk S = true)
    (hacquire : p.acquire others = (false, p')) :
    appendLoop S others (fuel + 1) q p read = (q, p', read) := by
  simp [appendLoop, acquireChunk, hread, hneed, hacquire]

theorem appendLoop_round (fuel : Nat) (hread : read ≠ [])
    (h : Round S others q p read q' p' rest) :
    appendLoop S others (fuel + 1) q p read = appendLoop S others fuel q' p' rest := by
  cases h with
  | room hneed => simp [appendLoop, hread, hneed]
  | fresh p' hneed hacquire =>
      simp [appendLoop, acquireChunk, withFresh, hread, hneed, hacquire]

/-- The append loop stands still on a dry pool, or makes a round. -/
theorem dry_or_round (S : ℕ+) (others : Nat → Nat → Nat) (q : SlabQueue β) (p : SlabSupply)
    (read : List β) :
    (q.needsChunk S = true ∧ ∃ p', p.acquire others = (false, p')) ∨
      ∃ q' p' rest, Round S others q p read q' p' rest := by
  cases hneed : q.needsChunk S with
  | false => exact Or.inr ⟨_, _, _, .room hneed⟩
  | true =>
      cases hacquire : p.acquire others with
      | mk got p' =>
          cases got with
          | false => exact Or.inl ⟨rfl, p', rfl⟩
          | true => exact Or.inr ⟨_, _, _, .fresh p' hneed hacquire⟩

/-- Invariant rule of the append loop: it keeps what a round keeps and an acquire that fails. -/
theorem appendLoop_invariant {P : SlabQueue β → SlabSupply → List β → Prop}
    (hround : ∀ {q p read q' p' rest}, read ≠ [] → Round S others q p read q' p' rest →
      P q p read → P q' p' rest)
    (hdry : ∀ {q p p' read}, p.acquire others = (false, p') → P q p read → P q p' read)
    (fuel : Nat) (h : P q p read) :
    P (appendLoop S others fuel q p read).1 (appendLoop S others fuel q p read).2.1
      (appendLoop S others fuel q p read).2.2 := by
  induction fuel generalizing q p read with
  | zero => exact h
  | succ fuel ih =>
      by_cases hread : read = []
      · rw [hread] at h ⊢
        rw [appendLoop_nil]
        exact h
      rcases dry_or_round S others q p read with ⟨hneed, p', hacquire⟩ | ⟨q', p', rest, hnext⟩
      · rw [appendLoop_dry fuel hread hneed hacquire]
        exact hdry hacquire h
      · rw [appendLoop_round fuel hread hnext]
        exact ih (hround hread hnext h)

end Rounds

/-- The append loop stores a prefix of its input behind what was there. -/
theorem appendLoop_stored {S : ℕ+} (others : Nat → Nat → Nat) :
    ∀ (fuel : Nat) (q : SlabQueue β) (p : SlabSupply) (read : List β), Ok S q →
      Stored S q read (appendLoop S others fuel q p read) := by
  intro fuel
  induction fuel with
  | zero =>
      intro q p read hok
      exact Stored.nothing p read hok rfl
  | succ fuel ih =>
      intro q p read hok
      by_cases hread : read = []
      · rw [hread, appendLoop_nil]
        exact Stored.nothing p [] hok rfl
      rcases dry_or_round S others q p read with ⟨hneed, p', hacquire⟩ | ⟨q', p', rest, hround⟩
      · -- the pool is dry: the loop ends with what it has stored so far
        rw [appendLoop_dry fuel hread hneed hacquire]
        exact Stored.nothing p' read hok rfl
      · rw [appendLoop_round fuel hread hround]
        rcases hround.spec hok hread with ⟨k, -, hk, rfl, hlist, hok'⟩
        exact Stored.round hk hlist (ih q' p' (read.drop k) hok')

/-- The queue has no room in its last chunk and the pool no slab for another one. -/
def stalled (S : ℕ+) (others : Nat → Nat → Nat) (q : SlabQueue β) (p : SlabSupply) : Bool :=
  q.needsChunk S && !(p.acquire others).1

/-- A queue that is not stalled stores at least one byte of what it is given. -/
theorem appendLoop_progress {S : ℕ+} (others : Nat → Nat → Nat) (fuel : Nat) {q : SlabQueue β}
    {p : SlabSupply} {read : List β} (hok : Ok S q) (hread : read ≠ [])
    (hroom : q.stalled S others p = false) :
    (appendLoop S others (fuel + 1) q p read).2.2.length < read.length := by
  rcases dry_or_round S others q p read with ⟨hneed, p', hacquire⟩ | ⟨q', p', rest, hround⟩
  · simp [stalled, hneed, hacquire] at hroom
  · rw [appendLoop_round fuel hread hround]
    rcases hround.spec hok hread with ⟨k, hpos, hk, rfl, -, hok'⟩
    -- the rest of the loop leaves no more than what the first round left
    rcases appendLoop_stored others fuel q' p' (read.drop k) hok' with ⟨k', -, hrest, -, -⟩
    rw [hrest, List.length_drop, List.length_drop]
    omega

/-- `Append` reports exactly the prefix it stored. -/
theorem append_spec {S : ℕ+} (others : Nat → Nat → Nat) {q : SlabQueue β} (p : SlabSupply)
    (bytes : List β) (hok : Ok S q) :
    (q.append S others p bytes).1 ≤ bytes.length ∧
      (q.append S others p bytes).2.1.toList =
        q.toList ++ bytes.take (q.append S others p bytes).1 ∧
      Ok S (q.append S others p bytes).2.1 := by
  rcases appendLoop_stored others bytes.length q p bytes hok with
    ⟨k, hk, hrest, hlist, hok'⟩
  have hstored : (q.append S others p bytes).1 = k := by
    simp only [append, hrest, List.length_drop]
    omega
  refine ⟨by omega, ?_, hok'⟩
  rw [hstored]
  exact hlist

/-- With nothing to store, or no place for it, the queue is left as it was. -/
theorem append_stalled {S : ℕ+} (others : Nat → Nat → Nat) {q : SlabQueue β} (p : SlabSupply)
    {bytes : List β} (h : bytes = [] ∨ q.stalled S others p = true) :
    (q.append S others p bytes).1 = 0 ∧ (q.append S others p bytes).2.1 = q := by
  cases bytes with
  | nil => exact ⟨rfl, rfl⟩
  | cons byte rest =>
      have hstalled : q.stalled S others p = true := by simpa using h
      rcases Bool.and_eq_true_iff.mp hstalled with ⟨hneed, hdry⟩
      have hacquire : p.acquire others = (false, (p.acquire others).2) :=
        Prod.ext (by simpa using hdry) rfl
      unfold append
      rw [List.length_cons, appendLoop_dry rest.length (List.cons_ne_nil _ _) hneed hacquire]
      exact ⟨Nat.sub_self _, rfl⟩

/-- Nothing is stored exactly when there is nothing to store or no place for it. -/
theorem append_eq_zero_iff {S : ℕ+} (others : Nat → Nat → Nat) {q : SlabQueue β} (p : SlabSupply)
    (bytes : List β) (hok : Ok S q) :
    (q.append S others p bytes).1 = 0 ↔ bytes = [] ∨ q.stalled S others p = true := by
  refine ⟨?_, fun h => (append_stalled others p h).1⟩
  intro hnone
  by_contra hmore
  rw [not_or, Bool.not_eq_true] at hmore
  rcases hmore with ⟨hbytes, hroom⟩
  rcases Nat.exists_eq_add_one_of_ne_zero (mt List.length_eq_zero_iff.mp hbytes) with
    ⟨fuel, hfuel⟩
  have hless := appendLoop_progress others fuel hok hbytes hroom
  rw [← hfuel] at hless
  have hzero : bytes.length - (appendLoop S others bytes.length q p bytes).2.2.length = 0 := hnone
  omega

/-! ### Consume keeps it -/

theorem consumeLoop_zero (S : ℕ+) (fuel : Nat) (q : SlabQueue β) : consumeLoop S fuel q 0 = q := by
  cases fuel with
  | zero => rfl
  | succ fuel =>
      unfold consumeLoop
      cases q.chunks with
      | nil => rfl
      | cons front rest => simp

/-- Advancing a chunk drops the same number of its unread bytes. -/
theorem bytes_advance (c : Chunk β) (n : Nat) :
    Chunk.bytes { c with begin := c.begin + n } = c.bytes.drop n := by
  simp [Chunk.bytes, List.drop_drop, Nat.add_comm]

/-- A chunk that follows a filled one has unread bytes, so the pop rule stops at it. -/
theorem popFrontIfDrained_of_unread (S : ℕ+) {c : Chunk β} (rest : List (Chunk β))
    (h : c.begin < c.endAt) : popFrontIfDrained S (c :: rest) = c :: rest := by
  have hsize : c.size ≠ 0 := by
    unfold Chunk.size
    omega
  cases rest with
  | nil => simp [popFrontIfDrained, hsize]
  | cons d rest => simp [popFrontIfDrained, hsize]

/-- Behind a filled chunk every chunk has unread bytes; without it the rest is still laid out. -/
theorem Layout.tail_of_filled {S : ℕ+} {init : List (Chunk β)} {tail : Chunk β}
    (hinit : ∀ c ∈ init, Filled S c) (htail : tail.begin < tail.endAt)
    (hend : tail.endAt ≤ (S : Nat)) :
    Layout S (init ++ [tail]) ∧ popFrontIfDrained S (init ++ [tail]) = init ++ [tail] := by
  constructor
  · refine .snoc init tail hinit (Nat.le_of_lt htail) hend ?_
    intro heq
    omega
  · cases init with
    | nil => exact popFrontIfDrained_of_unread S [] htail
    | cons c init =>
        exact popFrontIfDrained_of_unread S (init ++ [tail]) (hinit c (by simp)).1

/-- Consuming from a sole chunk takes one round. -/
theorem consume_sole_eq {S : ℕ+} {q : SlabQueue β} {tail : Chunk β} {n : Nat} (fuel : Nat)
    (hchunks : q.chunks = [tail]) (hle : n ≤ tail.size) (hpos : n ≠ 0) :
    consumeLoop S (fuel + 1) q n =
      { size := q.size - n
        chunks := popFrontIfDrained S [{ tail with begin := tail.begin + n }] } := by
  simp [consumeLoop, hchunks, hpos, Nat.min_eq_right hle, consumeLoop_zero]

theorem consume_sole {S : ℕ+} {q : SlabQueue β} {tail : Chunk β} {n fuel : Nat}
    (hchunks : q.chunks = [tail]) (hsize : q.size = q.toList.length)
    (hend : tail.endAt ≤ (S : Nat)) (hn : n ≤ q.size) (hpos : n ≠ 0) :
    Ok S (consumeLoop S (fuel + 1) q n) ∧
      (consumeLoop S (fuel + 1) q n).toList = q.toList.drop n := by
  have hlist : q.toList = tail.bytes := by simp [toList, hchunks]
  have hle : n ≤ tail.size := by
    rw [hsize, hlist, Chunk.length_bytes] at hn
    exact hn
  let c : Chunk β := { tail with begin := tail.begin + n }
  have hc : c.bytes = q.toList.drop n := by rw [hlist, ← bytes_advance]
  have hbound : c.begin ≤ c.endAt := by
    have : tail.begin + n ≤ tail.endAt := by
      unfold Chunk.size at hle
      omega
    exact this
  rw [consume_sole_eq fuel hchunks hle hpos]
  by_cases hdrained : c.size = 0 ∧ c.endAt = (S : Nat)
  · -- drained to the end of the slab: the lease goes back
    have hbytes : c.bytes = [] := by
      rw [← List.length_eq_zero_iff, Chunk.length_bytes]
      exact hdrained.1
    have hpop : popFrontIfDrained S [c] = [] := by
      simp only [popFrontIfDrained]
      rw [if_pos hdrained]
    rw [hpop]
    refine ⟨⟨?_, .nil⟩, ?_⟩
    · have hlen : (q.toList.drop n).length = 0 := by rw [← hc, hbytes, List.length_nil]
      rw [List.length_drop, ← hsize] at hlen
      simpa [toList] using hlen
    · rw [← hc, hbytes]
      rfl
  · have hpop : popFrontIfDrained S [c] = [c] := by
      simp only [popFrontIfDrained]
      rw [if_neg hdrained]
    rw [hpop]
    refine ⟨⟨?_, ?_⟩, ?_⟩
    · simp [toList, hc, hsize]
    · refine .snoc [] c (by simp) hbound hend ?_
      intro heq
      refine ⟨rfl, Nat.lt_of_le_of_ne hend ?_⟩
      intro hfull
      exact hdrained ⟨by unfold Chunk.size; omega, hfull⟩
    · simp [toList, hc]

/-- A front chunk that keeps unread bytes stays where it is, and the loop ends with it. -/
theorem consume_front_kept {S : ℕ+} {q : SlabQueue β} {front : Chunk β} {rest : List (Chunk β)}
    {n fuel : Nat} (hcons : q.chunks = front :: rest) (hpos : n ≠ 0) (hlt : n < front.size) :
    consumeLoop S (fuel + 1) q n =
      { size := q.size - n, chunks := { front with begin := front.begin + n } :: rest } := by
  have hunread : front.begin + n < front.endAt := by
    unfold Chunk.size at hlt
    omega
  simp only [consumeLoop, hcons, hpos, if_false, Nat.min_eq_right (Nat.le_of_lt hlt),
    Nat.sub_self, consumeLoop_zero]
  rw [popFrontIfDrained_of_unread S rest hunread]

/-- A drained front chunk goes back to the pool and the loop carries on behind it. -/
theorem consume_front_drained {S : ℕ+} {q : SlabQueue β} {front d : Chunk β}
    {rest : List (Chunk β)} {n fuel : Nat} (hcons : q.chunks = front :: d :: rest) (hpos : n ≠ 0)
    (hge : front.size ≤ n) (hpop : popFrontIfDrained S (d :: rest) = d :: rest) :
    consumeLoop S (fuel + 1) q n =
      consumeLoop S fuel { size := q.size - front.size, chunks := d :: rest } (n - front.size) := by
  have hdrained : Chunk.size { front with begin := front.begin + front.size } = 0 := by
    simp only [Chunk.size, Chunk.endAt]
    omega
  simp only [consumeLoop, hcons, hpos, if_false, Nat.min_eq_left hge]
  simp [popFrontIfDrained, hdrained, hpop]

/-- The front chunk advanced by less than it holds: still filled, so the layout stays. -/
theorem ok_front_kept {S : ℕ+} {q : SlabQueue β} {front tail : Chunk β} {init : List (Chunk β)}
    {n : Nat} (hcons : q.chunks = front :: (init ++ [tail])) (hsize : q.size = q.toList.length)
    (hinit : ∀ c ∈ front :: init, Filled S c) (htail : tail.begin < tail.endAt)
    (hend : tail.endAt ≤ (S : Nat)) (hlt : n < front.size) :
    let q' : SlabQueue β :=
      { size := q.size - n, chunks := { front with begin := front.begin + n } :: (init ++ [tail]) }
    Ok S q' ∧ q'.toList = q.toList.drop n := by
  intro q'
  have hunread : front.begin + n < front.endAt := by
    unfold Chunk.size at hlt
    omega
  have hlist : q'.toList = q.toList.drop n := by
    have hold : q.toList = front.bytes ++ (init ++ [tail]).flatMap Chunk.bytes := by
      simp [toList, hcons]
    rw [hold, List.drop_append_of_le_length (by simpa using Nat.le_of_lt hlt), ← bytes_advance]
    rfl
  refine ⟨⟨?_, ?_⟩, hlist⟩
  · rw [hlist, List.length_drop, ← hsize]
  · refine .snoc ({ front with begin := front.begin + n } :: init) tail ?_ (Nat.le_of_lt htail) hend
      ?_
    · intro c hc
      rcases List.mem_cons.1 hc with rfl | hc
      · exact ⟨hunread, (hinit front (by simp)).2⟩
      · exact hinit c (by simp [hc])
    · intro heq
      omega

/-- The queue behind its front chunk. -/
theorem ok_front_gone {S : ℕ+} {q : SlabQueue β} {front : Chunk β} {rest : List (Chunk β)}
    (hcons : q.chunks = front :: rest) (hsize : q.size = q.toList.length)
    (hlayout : Layout S rest) :
    let q' : SlabQueue β := { size := q.size - front.size, chunks := rest }
    Ok S q' ∧ q'.toList = q.toList.drop front.size := by
  intro q'
  have hlist : q'.toList = q.toList.drop front.size := by
    have hold : q.toList = front.bytes ++ rest.flatMap Chunk.bytes := by simp [toList, hcons]
    rw [hold, ← Chunk.length_bytes, List.drop_left]
    rfl
  refine ⟨⟨?_, hlayout⟩, hlist⟩
  rw [hlist, List.length_drop, ← hsize]

/-- Within the size of the queue, the consume loop drops from the front and nothing else. -/
theorem consumeLoop_spec {S : ℕ+} :
    ∀ (fuel : Nat) (q : SlabQueue β) (n : Nat), Ok S q → q.chunks.length ≤ fuel → n ≤ q.size →
      Ok S (consumeLoop S fuel q n) ∧ (consumeLoop S fuel q n).toList = q.toList.drop n := by
  -- every round but the last drains a chunk, so the number of chunks is fuel enough
  intro fuel
  induction fuel with
  | zero =>
      intro q n hok hfuel hn
      have hnil : q.chunks = [] := List.length_eq_zero_iff.mp (Nat.le_zero.mp hfuel)
      have hlist : q.toList = [] := by simp [toList, hnil]
      exact ⟨hok, by simp [consumeLoop, hlist]⟩
  | succ fuel ih =>
      intro q n hok hfuel hn
      by_cases hzero : n = 0
      · subst hzero
        rw [consumeLoop_zero]
        exact ⟨hok, by simp⟩
      rcases hok.layout.eq_nil_or_snoc with
        hnil | ⟨init, tail, hchunks, hinit, hbegin, hend, hdrained⟩
      · have hlist : q.toList = [] := by simp [toList, hnil]
        rw [hok.size_eq, hlist] at hn
        exact absurd (Nat.le_zero.mp hn) hzero
      cases init with
      | nil => exact consume_sole hchunks hok.size_eq hend hn hzero
      | cons front init =>
          have hcons : q.chunks = front :: (init ++ [tail]) := by simpa using hchunks
          have htail : tail.begin < tail.endAt := by
            refine Nat.lt_of_le_of_ne hbegin ?_
            intro heq
            simpa using (hdrained heq).1
          rcases Nat.lt_or_ge n front.size with hlt | hge
          · rw [consume_front_kept hcons hzero hlt]
            exact ok_front_kept hcons hok.size_eq hinit htail hend hlt
          · have hinit' : ∀ c ∈ init, Filled S c := fun c hc => hinit c (by simp [hc])
            rcases Layout.tail_of_filled hinit' htail hend with ⟨hlayout, hpop⟩
            rcases ok_front_gone hcons hok.size_eq hlayout with ⟨hok', hlist'⟩
            cases hrest : init ++ [tail] with
            | nil => simp at hrest
            | cons d rest =>
                rw [hrest] at hcons hpop hok' hlist'
                rw [consume_front_drained hcons hzero hge hpop]
                have hlen : (d :: rest).length ≤ fuel := by
                  rw [hcons] at hfuel
                  exact Nat.le_of_succ_le_succ hfuel
                have hn' : n - front.size ≤ q.size - front.size := Nat.sub_le_sub_right hn _
                rcases ih _ (n - front.size) hok' hlen hn' with ⟨hok'', hlist''⟩
                refine ⟨hok'', ?_⟩
                rw [hlist'', hlist', List.drop_drop, Nat.add_sub_cancel' hge]

/-- `Consume` drops `bytes` bytes from the front, or all of them when there are fewer. -/
theorem consume_spec {S : ℕ+} {q : SlabQueue β} (p : SlabSupply) (bytes : Nat) (hok : Ok S q) :
    (q.consume S p bytes).1.toList = q.toList.drop bytes ∧ Ok S (q.consume S p bytes).1 := by
  rcases consumeLoop_spec q.chunks.length q (min bytes q.size) hok (Nat.le_refl _)
    (Nat.min_le_right _ _) with ⟨hok', hlist⟩
  refine ⟨?_, hok'⟩
  have hdrop : q.toList.drop (min bytes q.size) = q.toList.drop bytes := by
    rcases Nat.le_total bytes q.size with hle | hge
    · rw [Nat.min_eq_left hle]
    · rw [Nat.min_eq_right hge, hok.size_eq, List.drop_length]
      rw [hok.size_eq] at hge
      rw [List.drop_eq_nil_of_le hge]
  rw [← hdrop]
  exact hlist

/-- `Peek` returns a prefix of the contents. -/
theorem peek_prefix (q : SlabQueue β) (maxBytes : Nat) : q.peek maxBytes <+: q.toList := by
  unfold peek
  cases hchunks : q.chunks with
  | nil => simp
  | cons front rest =>
      by_cases hzero : maxBytes = 0
      · simp [hzero]
      · have hlist : q.toList = front.bytes ++ rest.flatMap Chunk.bytes := by
          simp [toList, hchunks]
        simp only [hzero, if_false, hlist]
        exact (List.take_prefix _ _).trans (List.prefix_append _ _)

/-- While something is buffered, the front chunk has something unread. -/
theorem peek_ne_nil {S : ℕ+} {q : SlabQueue β} (hok : Ok S q) (hsize : q.size ≠ 0) {maxBytes : Nat}
    (hmax : maxBytes ≠ 0) : q.peek maxBytes ≠ [] := by
  have hfront : ∀ front rest, q.chunks = front :: rest → front.bytes ≠ [] →
      q.peek maxBytes ≠ [] := by
    intro front rest hchunks hbytes
    unfold peek
    rw [hchunks]
    simp only [hmax, if_false]
    rw [Ne, List.take_eq_nil_iff]
    simp [hmax, hbytes]
  rcases hok.layout.eq_nil_or_snoc with hnil | ⟨init, tail, hchunks, hinit, -, -, -⟩
  · exact absurd (by simp [hok.size_eq, toList, hnil]) hsize
  cases init with
  | nil =>
      -- a sole chunk holds all there is
      refine hfront tail [] hchunks ?_
      intro hbytes
      exact hsize (by simp [hok.size_eq, toList, hchunks, hbytes])
  | cons front init =>
      refine hfront front (init ++ [tail]) hchunks ?_
      rw [← List.length_pos_iff, Chunk.length_bytes]
      exact Nat.sub_pos_of_lt (hinit front (by simp)).1

end SlabQueue

end Buffers
end AudioFork
