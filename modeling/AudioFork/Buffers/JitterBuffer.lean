import AudioFork.Buffers.SlabQueue
import AudioFork.Text

/-!
# JitterBuffer — inbound playback audio

A `SlabQueue` that refuses the newest audio beyond its cap, and everything between a `clear` and
the next mark.  Marks are positions in the stream of admitted bytes; one is reached when every byte
before it has gone downstream.  Offsets are `uint64_t` in the source and `Nat` here: no run admits 2^64
bytes.
-/

namespace AudioFork
namespace Buffers

variable {β : Type} {S : ℕ+}

structure Mark where
  offset : Nat
  name : Text
  deriving DecidableEq, Repr

structure JitterBuffer (β : Type) (S : ℕ+) where
  queue : SlabQueue β
  capBytes : Nat
  muted : Bool
  writtenOffset : Nat
  consumedOffset : Nat
  marks : List Mark
  reachedMarks : List Text
  ok : queue.Ok S

namespace JitterBuffer

def create (capBytes : Nat) : JitterBuffer β S :=
  { queue := .empty
    capBytes := capBytes
    muted := false
    writtenOffset := 0
    consumedOffset := 0
    marks := []
    reachedMarks := []
    ok := SlabQueue.ok_empty S }

/-- The buffered audio, oldest byte first. -/
def content (b : JitterBuffer β S) : List β := b.queue.toList

def size (b : JitterBuffer β S) : Nat := b.queue.size

def empty (b : JitterBuffer β S) : Bool := b.queue.size == 0

/-- `cap_bytes_ > queue_.size() ? cap_bytes_ - queue_.size() : 0`. -/
def room (b : JitterBuffer β S) : Nat := b.capBytes - b.queue.size

/-- Returns the number of bytes refused. -/
def append (others : Nat → Nat → Nat) (b : JitterBuffer β S) (p : SlabSupply) (bytes : List β) :
    Nat × JitterBuffer β S × SlabSupply :=
  if b.muted ∨ bytes.isEmpty then
    (bytes.length, b, p)
  else
    let admitted := bytes.take b.room
    let stored := (b.queue.append S others p admitted).1
    (bytes.length - stored,
      { b with
        queue := (b.queue.append S others p admitted).2.1
        writtenOffset := b.writtenOffset + stored
        ok := (SlabQueue.append_spec others p admitted b.ok).2.2 },
      (b.queue.append S others p admitted).2.2)

/-- Barge-in: drop everything buffered and mute until the next mark.  Marks whose audio was
discarded were never reached. -/
def clear (b : JitterBuffer β S) (p : SlabSupply) : JitterBuffer β S × SlabSupply :=
  ({ b with
     queue := .empty
     marks := []
     consumedOffset := b.writtenOffset
     muted := true
     ok := SlabQueue.ok_empty S },
    (b.queue.clear p).2)

/-- A named position in the stream; also re-arms playback after a clear. -/
def addMark (b : JitterBuffer β S) (name : Text) : JitterBuffer β S :=
  if b.writtenOffset ≤ b.consumedOffset then
    { b with muted := false, reachedMarks := b.reachedMarks ++ [name] }
  else
    { b with muted := false, marks := b.marks ++ [{ offset := b.writtenOffset, name := name }] }

def peek (b : JitterBuffer β S) (maxBytes : Nat) : List β := b.queue.peek maxBytes

def consume (b : JitterBuffer β S) (p : SlabSupply) (bytes : Nat) :
    JitterBuffer β S × SlabSupply :=
  let q := (b.queue.consume S p bytes).1
  let consumed := b.consumedOffset + (b.queue.size - q.size)
  ({ b with
     queue := q
     consumedOffset := consumed
     reachedMarks :=
       b.reachedMarks ++ (b.marks.takeWhile fun m => m.offset ≤ consumed).map Mark.name
     marks := b.marks.dropWhile fun m => m.offset ≤ consumed
     ok := (SlabQueue.consume_spec p bytes b.ok).2 },
    (b.queue.consume S p bytes).2)

/-- Marks whose audio has been fully handed downstream, oldest first. -/
def takeReachedMarks (b : JitterBuffer β S) : List Text × JitterBuffer β S :=
  (b.reachedMarks, { b with reachedMarks := [] })

/-! ## Contents -/

theorem size_eq (b : JitterBuffer β S) : b.size = b.content.length := b.ok.size_eq

theorem content_eq_nil_iff_empty (b : JitterBuffer β S) : b.empty = true ↔ b.content = [] := by
  rw [← List.length_eq_zero_iff, ← size_eq]
  simp [empty, size]

/-- A muted buffer refuses the frame whole. -/
theorem append_muted (others : Nat → Nat → Nat) {b : JitterBuffer β S} (p : SlabSupply)
    (bytes : List β) (h : b.muted = true) : b.append others p bytes = (bytes.length, b, p) :=
  if_pos (Or.inl h)

/-- An append admits a prefix of the frame behind what was buffered. -/
theorem append_spec (others : Nat → Nat → Nat) (b : JitterBuffer β S) (p : SlabSupply)
    (bytes : List β) :
    (b.append others p bytes).1 ≤ bytes.length ∧
      (b.append others p bytes).2.1.content =
        b.content ++ bytes.take (bytes.length - (b.append others p bytes).1) := by
  unfold append
  split
  · exact ⟨Nat.le_refl _, by simp⟩
  · rcases SlabQueue.append_spec others p (bytes.take b.room) b.ok with
      ⟨hle, hlist, _⟩
    rw [List.length_take] at hle
    refine ⟨Nat.sub_le _ _, ?_⟩
    have hstored : bytes.length -
        (bytes.length - (b.queue.append S others p (bytes.take b.room)).1) =
        (b.queue.append S others p (bytes.take b.room)).1 := by
      omega
    simp only [content]
    rw [hstored, hlist, List.take_take, Nat.min_eq_left (by omega)]

@[simp] theorem content_consume (b : JitterBuffer β S) (p : SlabSupply) (bytes : Nat) :
    (b.consume p bytes).1.content = b.content.drop bytes :=
  (SlabQueue.consume_spec p bytes b.ok).1

/-- Muted, full, or without a slab to write to. -/
def deaf (others : Nat → Nat → Nat) (b : JitterBuffer β S) (p : SlabSupply) : Bool :=
  b.muted || b.room == 0 || b.queue.stalled S others p

theorem append_deaf (others : Nat → Nat → Nat) {b : JitterBuffer β S} (p : SlabSupply)
    (bytes : List β) (h : b.deaf others p = true) : (b.append others p bytes).2.1 = b := by
  unfold append
  split
  · rfl
  · rename_i hopen
    have hnowhere : bytes.take b.room = [] ∨ b.queue.stalled S others p = true := by
      have hmuted : b.muted = false := by
        by_contra hmuted
        exact hopen (Or.inl (by simpa using hmuted))
      rcases (by simpa [deaf, hmuted] using h : b.room = 0 ∨ _) with hfull | hstalled
      · exact Or.inl (by simp [hfull])
      · exact Or.inr hstalled
    rcases SlabQueue.append_stalled others p hnowhere with ⟨hstored, hqueue⟩
    simp only [hstored, hqueue, Nat.add_zero]

/-- The offset of a buffer that is not deaf moves with every frame. -/
theorem append_heard (others : Nat → Nat → Nat) {b : JitterBuffer β S} (p : SlabSupply)
    {bytes : List β} (hbytes : bytes ≠ []) (h : b.deaf others p = false) :
    b.writtenOffset < (b.append others p bytes).2.1.writtenOffset := by
  have hparts : (b.muted = false ∧ b.room ≠ 0) ∧ b.queue.stalled S others p = false := by
    simpa [deaf] using h
  rcases hparts with ⟨⟨hmuted, hroom⟩, hplace⟩
  have hsome : bytes.take b.room ≠ [] := by
    simp [List.take_eq_nil_iff, hroom, hbytes]
  have hstored : (b.queue.append S others p (bytes.take b.room)).1 ≠ 0 := by
    rw [Ne, SlabQueue.append_eq_zero_iff others p _ b.ok]
    simp [hsome, hplace]
  unfold append
  rw [if_neg (by simp [hmuted, hbytes])]
  exact Nat.lt_add_of_pos_right (Nat.pos_of_ne_zero hstored)

theorem addMark_ne (b : JitterBuffer β S) (name : Text) : b.addMark name ≠ b := by
  unfold addMark
  split <;> intro h
  · have hreached : b.reachedMarks ++ [name] = b.reachedMarks :=
      congrArg JitterBuffer.reachedMarks h
    simp at hreached
  · have hmarks : b.marks ++ [{ offset := b.writtenOffset, name := name }] = b.marks :=
      congrArg JitterBuffer.marks h
    simp at hmarks

/-- Consuming moves the offset by what was there to consume. -/
theorem consumedOffset_consume (b : JitterBuffer β S) (p : SlabSupply) (bytes : Nat) :
    (b.consume p bytes).1.consumedOffset = b.consumedOffset + min bytes b.content.length := by
  have hafter : (b.consume p bytes).1.size = b.content.length - bytes := by
    rw [size_eq, content_consume, List.length_drop]
  have hbefore : b.queue.size = b.content.length := b.size_eq
  show b.consumedOffset + (b.queue.size - (b.consume p bytes).1.size) = _
  rw [hafter, hbefore]
  omega

@[simp] theorem queue_addMark (b : JitterBuffer β S) (name : Text) :
    (b.addMark name).queue = b.queue := by
  unfold addMark
  split <;> rfl

@[simp] theorem content_addMark (b : JitterBuffer β S) (name : Text) :
    (b.addMark name).content = b.content := by
  simp [content]

theorem peek_prefix (b : JitterBuffer β S) (maxBytes : Nat) : b.peek maxBytes <+: b.content :=
  SlabQueue.peek_prefix b.queue maxBytes

end JitterBuffer

end Buffers
end AudioFork
