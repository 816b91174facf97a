import AudioFork.Buffers.JitterBuffer
import AudioFork.Buffers.Newest
import AudioFork.Lib.MarkedStream
import AudioFork.Lib.Runs

/-!
# Marks — what a jitter buffer makes of its calls

A `JitterBuffer` keeps two offsets, the marks it still waits for and the names it has not handed out.
Here it is run beside the history of its calls (`Deck`), which only looks at what the calls return.
`faithful_call` says that the buffer stays in step with the history: its contents are the bytes that
wait, its offsets count the bytes that came and went, its marks are the pending ones.
-/

namespace AudioFork
namespace Buffers

open Lib

variable {β : Type} {S : ℕ+}

/-! ## Append -/

namespace JitterBuffer

/-- What `Acquire` answers during an `Append`. -/
def answers (others : Nat → Nat → Nat) (b : JitterBuffer β S) (p : SlabSupply) (bytes : List β) :
    List Bool :=
  if b.muted ∨ bytes.isEmpty then
    []
  else
    b.queue.appendAnswers S others (bytes.take b.room).length p (bytes.take b.room)

section

variable (others : Nat → Nat → Nat) (b : JitterBuffer β S) (p : SlabSupply) (bytes : List β)

/-- An append touches the queue and the offset of what was written. -/
theorem append_writes :
    ∃ queue ok, (b.append others p bytes).2.1 =
      { b with
        queue := queue
        writtenOffset := b.writtenOffset + (bytes.length - (b.append others p bytes).1)
        ok := ok } := by
  unfold append
  split
  · exact ⟨b.queue, b.ok, by simp⟩
  · have hstored : (b.queue.append S others p (bytes.take b.room)).1 ≤ bytes.length :=
      (SlabQueue.append_spec others p (bytes.take b.room) b.ok).1.trans (List.length_take_le' _ _)
    refine ⟨_, (SlabQueue.append_spec others p (bytes.take b.room) b.ok).2.2, ?_⟩
    simp only [Nat.sub_sub_self hstored]

/-- No more is admitted than the cap has room for. -/
theorem append_within_room : bytes.length - (b.append others p bytes).1 ≤ b.room := by
  unfold append
  split
  · simp
  · have hstored := (SlabQueue.append_spec others p (bytes.take b.room) b.ok).1
    rw [List.length_take] at hstored
    simp only
    omega

variable {b p bytes} in
/-- With a slab for every `Acquire`, only the cap refuses. -/
theorem append_granted (hmuted : b.muted = false) (h : false ∉ b.answers others p bytes) :
    (b.append others p bytes).1 = bytes.length - b.room := by
  by_cases hbytes : bytes = []
  · simp [append, hbytes]
  have hopen : ¬ (b.muted = true ∨ bytes.isEmpty = true) := by simp [hmuted, hbytes]
  unfold answers at h
  rw [if_neg hopen] at h
  have hrest : (SlabQueue.appendLoop S others (bytes.take b.room).length b.queue p
      (bytes.take b.room)).2.2 = [] := by
    by_contra hrest
    exact h ((SlabQueue.leaves_rest_iff others p b.ok (Nat.le_refl _)).mp hrest)
  have hstored : (b.queue.append S others p (bytes.take b.room)).1 = (bytes.take b.room).length := by
    unfold SlabQueue.append
    simp only [hrest, List.length_nil, Nat.sub_zero]
  unfold append
  rw [if_neg hopen]
  simp only [hstored, List.length_take]
  omega

end

end JitterBuffer

/-! ## Calls and their history -/

/-- A call of the shard on the buffer. -/
inductive BufferCall (β : Type)
  | append (bytes : List β)
  | addMark (name : Text)
  | clear
  | consume (bytes : Nat)
  | peek (maxBytes : Nat)
  | takeReachedMarks
  deriving DecidableEq, Repr

/-- The buffer and the pool, and beside them the history of the calls. -/
structure Deck (β : Type) (S : ℕ+) where
  buffer : JitterBuffer β S
  supply : SlabSupply
  history : MarkedStream β Text

namespace Deck

def create (capBytes : Nat) (p : SlabSupply) : Deck β S :=
  { buffer := .create capBytes
    supply := p
    history := .empty }

/-- The history learns what a call was given and what it returned. -/
def call (others : Nat → Nat → Nat) (d : Deck β S) : BufferCall β → Deck β S
  | .append bytes =>
      let refused := (d.buffer.append others d.supply bytes).1
      { buffer := (d.buffer.append others d.supply bytes).2.1
        supply := (d.buffer.append others d.supply bytes).2.2
        history := d.history.enter (bytes.take (bytes.length - refused)) }
  | .addMark name =>
      { d with
        buffer := d.buffer.addMark name
        history := d.history.mark name }
  | .clear =>
      { buffer := (d.buffer.clear d.supply).1
        supply := (d.buffer.clear d.supply).2
        history := d.history.flush }
  | .consume bytes =>
      { buffer := (d.buffer.consume d.supply bytes).1
        supply := (d.buffer.consume d.supply bytes).2
        history := d.history.consume bytes }
  | .peek _ => d
  | .takeReachedMarks =>
      { d with
        buffer := d.buffer.takeReachedMarks.2
        history := d.history.hand d.buffer.takeReachedMarks.1 }

/-- The marks the buffer waits for, as the history writes them. -/
def pending (b : JitterBuffer β S) : List (Text × Nat) := b.marks.map fun m => (m.name, m.offset)

/-- The buffer is in step with the history. -/
structure Faithful (capBytes : Nat) (d : Deck β S) : Prop where
  content : d.buffer.content = d.history.waiting
  written : d.buffer.writtenOffset = d.history.admitted
  consumed : d.buffer.consumedOffset = d.history.settled.length
  cap : d.buffer.capBytes = capBytes
  muted : d.buffer.muted = d.history.muted
  marks : d.history.Tracks (pending d.buffer)
  names : d.history.returned ++ d.buffer.reachedMarks = d.history.reachedNames

section

variable {others : Nat → Nat → Nat} {capBytes : Nat} {d : Deck β S}

theorem faithful_create (capBytes : Nat) (p : SlabSupply) :
    (create capBytes p : Deck β S).Faithful capBytes :=
  ⟨rfl, rfl, rfl, rfl, rfl, MarkedStream.tracks_empty, rfl⟩

theorem faithful_append (h : d.Faithful capBytes) (bytes : List β) :
    (d.call others (.append bytes)).Faithful capBytes := by
  rcases JitterBuffer.append_writes others d.buffer d.supply bytes with ⟨queue, hok, hwrites⟩
  have hlen : (bytes.take (bytes.length - (d.buffer.append others d.supply bytes).1)).length =
      bytes.length - (d.buffer.append others d.supply bytes).1 := by
    rw [List.length_take]
    omega
  constructor
  · show (d.buffer.append others d.supply bytes).2.1.content = d.history.waiting ++ _
    rw [(JitterBuffer.append_spec others d.buffer d.supply bytes).2, h.content]
  · show (d.buffer.append others d.supply bytes).2.1.writtenOffset =
      (d.history.enter (bytes.take _)).admitted
    rw [hwrites]
    simp only [MarkedStream.admitted, MarkedStream.enter, List.length_append, hlen, h.written]
    omega
  · show (d.buffer.append others d.supply bytes).2.1.consumedOffset = _
    rw [hwrites]
    exact h.consumed
  · show (d.buffer.append others d.supply bytes).2.1.capBytes = _
    rw [hwrites]
    exact h.cap
  · show (d.buffer.append others d.supply bytes).2.1.muted = _
    rw [hwrites]
    exact h.muted
  · show MarkedStream.Tracks _ (pending (d.buffer.append others d.supply bytes).2.1)
    rw [hwrites]
    exact h.marks.enter _
  · show d.history.returned ++ (d.buffer.append others d.supply bytes).2.1.reachedMarks = _
    rw [hwrites]
    exact h.names

/-- Nothing waits exactly when everything written has been consumed. -/
theorem Faithful.waiting_eq_nil_iff (h : d.Faithful capBytes) :
    d.history.waiting = [] ↔ d.buffer.writtenOffset ≤ d.buffer.consumedOffset := by
  rw [h.written, h.consumed, ← List.length_eq_zero_iff, MarkedStream.admitted]
  omega

theorem faithful_addMark (h : d.Faithful capBytes) (name : Text) :
    (d.call others (.addMark name)).Faithful capBytes := by
  have hcontent : (d.buffer.addMark name).content = d.history.waiting := by
    rw [JitterBuffer.content_addMark, h.content]
  have hnames : d.history.returned ++ (d.buffer.reachedMarks ++ [name]) =
      d.history.reachedNames ++ [name] := by
    rw [← List.append_assoc, h.names]
  by_cases hidle : d.buffer.writtenOffset ≤ d.buffer.consumedOffset
  · -- nothing waits, and the mark is reached as it is put
    have hadd : d.buffer.addMark name =
        { d.buffer with muted := false, reachedMarks := d.buffer.reachedMarks ++ [name] } :=
      if_pos hidle
    -- no earlier mark can be pending then
    rcases h.marks.mark_idle (h.waiting_eq_nil_iff.mpr hidle) name with ⟨hnone, htracks, hreached⟩
    refine ⟨hcontent, ?_, ?_, ?_, ?_, ?_, ?_⟩ <;> simp only [call, hadd]
    · exact h.written
    · exact h.consumed
    · exact h.cap
    · rfl
    · show MarkedStream.Tracks _ (pending d.buffer)
      rw [hnone]
      exact htracks
    · exact hnames.trans hreached.symm
  · -- the mark waits for what was written before it
    have hadd : d.buffer.addMark name =
        { d.buffer with
          muted := false
          marks := d.buffer.marks ++ [{ offset := d.buffer.writtenOffset, name := name }] } :=
      if_neg hidle
    have hwaiting : d.history.waiting ≠ [] := fun hnil => hidle (h.waiting_eq_nil_iff.mp hnil)
    rcases h.marks.mark_waiting hwaiting name with ⟨htracks, hreached⟩
    refine ⟨hcontent, ?_, ?_, ?_, ?_, ?_, ?_⟩ <;> simp only [call, hadd]
    · exact h.written
    · exact h.consumed
    · exact h.cap
    · rfl
    · rw [← h.written] at htracks
      simpa [pending] using htracks
    · exact h.names.trans hreached.symm

theorem faithful_clear (h : d.Faithful capBytes) : (d.call others .clear).Faithful capBytes := by
  rcases h.marks.flush with ⟨htracks, hreached⟩
  -- a clear moves the consumed offset up to the written one
  have hgone : d.history.flush.settled.length = d.history.admitted := by
    simp [MarkedStream.flush, MarkedStream.admitted]
  refine ⟨rfl, ?_, ?_, h.cap, rfl, htracks, h.names.trans hreached.symm⟩
  · show d.buffer.writtenOffset = d.history.flush.settled.length + 0
    rw [hgone]
    exact h.written
  · show d.buffer.writtenOffset = d.history.flush.settled.length
    rw [hgone]
    exact h.written

theorem pending_consume (b : JitterBuffer β S) (p : SlabSupply) (bytes : Nat) :
    pending (b.consume p bytes).1 =
      (pending b).dropWhile fun m => decide (m.2 ≤ (b.consume p bytes).1.consumedOffset) := by
  unfold pending
  rw [List.dropWhile_map]
  rfl

theorem reachedMarks_consume (b : JitterBuffer β S) (p : SlabSupply) (bytes : Nat) :
    (b.consume p bytes).1.reachedMarks = b.reachedMarks ++
      ((pending b).takeWhile fun m =>
        decide (m.2 ≤ (b.consume p bytes).1.consumedOffset)).map Prod.fst := by
  unfold pending
  rw [List.takeWhile_map, List.map_map]
  rfl

theorem faithful_consume (h : d.Faithful capBytes) (bytes : Nat) :
    (d.call others (.consume bytes)).Faithful capBytes := by
  have hconsumed : (d.buffer.consume d.supply bytes).1.consumedOffset =
      (d.history.consume bytes).settled.length := by
    rw [JitterBuffer.consumedOffset_consume, h.consumed, h.content]
    simp [MarkedStream.consume]
  rcases h.marks.consume bytes with ⟨htracks, hreached⟩
  -- the buffer tests its marks against the new offset, the history against the items that left
  have htest : (fun m : Text × Nat => decide (m.2 ≤ (d.history.consume bytes).settled.length)) =
      fun m => decide (m.2 ≤ (d.buffer.consume d.supply bytes).1.consumedOffset) := by
    rw [hconsumed]
  rw [htest] at htracks hreached
  refine ⟨?_, ?_, hconsumed, h.cap, h.muted, ?_, ?_⟩
  · show (d.buffer.consume d.supply bytes).1.content = d.history.waiting.drop bytes
    rw [JitterBuffer.content_consume, h.content]
  · show d.buffer.writtenOffset = (d.history.consume bytes).admitted
    rw [MarkedStream.admitted_consume]
    exact h.written
  · show MarkedStream.Tracks _ (pending (d.buffer.consume d.supply bytes).1)
    rw [pending_consume]
    exact htracks
  · show d.history.returned ++ (d.buffer.consume d.supply bytes).1.reachedMarks =
      (d.history.consume bytes).reachedNames
    rw [reachedMarks_consume, hreached, ← h.names, List.append_assoc]

theorem faithful_takeReachedMarks (h : d.Faithful capBytes) :
    (d.call others .takeReachedMarks).Faithful capBytes := by
  refine ⟨h.content, h.written, h.consumed, h.cap, h.muted, h.marks.hand _, ?_⟩
  show d.history.returned ++ d.buffer.reachedMarks ++ [] = _
  rw [List.append_nil]
  exact h.names

theorem faithful_call (h : d.Faithful capBytes) (c : BufferCall β) :
    (d.call others c).Faithful capBytes := by
  cases c with
  | append bytes => exact faithful_append h bytes
  | addMark name => exact faithful_addMark h name
  | clear => exact faithful_clear h
  | consume bytes => exact faithful_consume h bytes
  | peek maxBytes => exact h
  | takeReachedMarks => exact faithful_takeReachedMarks h

theorem faithful_exec (h : d.Faithful capBytes) (calls : List (BufferCall β)) :
    (exec (call others) d calls).Faithful capBytes := by
  induction calls generalizing d with
  | nil => exact h
  | cons c calls ih => exact ih (faithful_call h c)

/-- The history only grows. -/
theorem later_exec (others : Nat → Nat → Nat) (d : Deck β S) (calls : List (BufferCall β)) :
    d.history.Later (exec (call others) d calls).history := by
  induction calls generalizing d with
  | nil => exact .refl _
  | cons c calls ih =>
      have hcall : d.history.Later (d.call others c).history := by
        cases c with
        | append bytes => exact MarkedStream.later_enter _ _
        | addMark name => exact MarkedStream.later_mark _ _
        | clear => exact MarkedStream.later_flush _
        | consume bytes => exact MarkedStream.later_consume _ _
        | peek maxBytes => exact .refl _
        | takeReachedMarks => exact MarkedStream.later_hand _ _
      exact hcall.trans (ih _)

end

/-- What a user of the buffer can rely on. -/
structure Behaves (others : Nat → Nat → Nat) (capBytes : Nat) (d : Deck β S) : Prop where
  /-- First in, first out. -/
  content : d.buffer.content = d.history.waiting
  size : d.buffer.consumedOffset ≤ d.buffer.writtenOffset ∧
    d.buffer.size = d.buffer.writtenOffset - d.buffer.consumedOffset
  /-- `Peek` shows the front, and something of it while something waits. -/
  peek : ∀ maxBytes, d.buffer.peek maxBytes <+: d.history.waiting ∧
    (d.history.waiting ≠ [] → maxBytes ≠ 0 → d.buffer.peek maxBytes ≠ [])
  /-- Between a clear and the next mark everything is refused. -/
  hushed : d.history.muted = true → ∀ bytes,
    (d.buffer.append others d.supply bytes).1 = bytes.length
  /-- Nothing is admitted beyond the cap; what the pool does not refuse, only the cap does. -/
  capped : ∀ bytes, bytes.length - (d.buffer.append others d.supply bytes).1 ≤
    capBytes - d.history.waiting.length
  granted : d.history.muted = false → ∀ bytes, false ∉ d.buffer.answers others d.supply bytes →
    (d.buffer.append others d.supply bytes).1 = bytes.length - (capBytes - d.history.waiting.length)
  /-- The names handed out and those to be handed out are those of the marks reached, in order. -/
  names : d.history.returned ++ d.buffer.reachedMarks = d.history.reachedNames

theorem Faithful.behaves {capBytes : Nat} {d : Deck β S} (h : d.Faithful capBytes)
    (others : Nat → Nat → Nat) : d.Behaves others capBytes := by
  have hsize : d.buffer.size = d.history.waiting.length := by
    rw [JitterBuffer.size_eq, h.content]
  have hroom : d.buffer.room = capBytes - d.history.waiting.length := by
    rw [← hsize, ← h.cap]
    rfl
  refine ⟨h.content, ?_, ?_, ?_, ?_, ?_, h.names⟩
  · rw [h.written, h.consumed, hsize, MarkedStream.admitted]
    omega
  · intro maxBytes
    refine ⟨h.content ▸ JitterBuffer.peek_prefix d.buffer maxBytes, ?_⟩
    intro hwaiting hmax
    refine SlabQueue.peek_ne_nil d.buffer.ok ?_ hmax
    show d.buffer.size ≠ 0
    rw [hsize]
    exact fun hzero => hwaiting (List.length_eq_zero_iff.mp hzero)
  · intro hmuted bytes
    rw [JitterBuffer.append_muted others d.supply bytes (h.muted.trans hmuted)]
  · intro bytes
    rw [← hroom]
    exact JitterBuffer.append_within_room others d.buffer d.supply bytes
  · intro hmuted bytes hanswers
    rw [← hroom]
    exact JitterBuffer.append_granted others (h.muted.trans hmuted) hanswers

end Deck

/-- After any calls the buffer behaves, and a mark that is pending when the buffer is cleared is not
reached by any calls that follow. -/
theorem JitterBuffer.marks_in_order (others : Nat → Nat → Nat) (capBytes : Nat) (p : SlabSupply)
    (calls : List (BufferCall β)) :
    let d : Deck β S := exec (Deck.call others) (.create capBytes p) calls
    d.Behaves others capBytes ∧
      ∀ i, i < d.history.marks.length → d.history.reached i = false → ∀ later,
        (exec (Deck.call others) (d.call others .clear) later).history.reached i = false := by
  intro d
  have hfaithful : d.Faithful capBytes :=
    Deck.faithful_exec (Deck.faithful_create capBytes p) calls
  refine ⟨hfaithful.behaves others, ?_⟩
  intro i hi hmissed later
  exact hfaithful.marks.lost hi hmissed (Deck.later_exec others (d.call others .clear) later)

/-- A mark reached by consumption, one lost to a clear, and one that finds nothing waiting. -/
theorem JitterBuffer.marks_in_order_sample :
    let supplied : Nat → Nat → Nat := fun _ available => available
    let d : Deck Nat 4 := exec (Deck.call supplied) (.create 8 ⟨4, 0⟩)
      [.append [1, 2, 3, 4, 5], .addMark [97], .append [6], .addMark [98], .consume 5]
    let cleared := exec (Deck.call supplied) (d.call supplied .clear)
      [.append [7], .addMark [99], .takeReachedMarks]
    d.Behaves supplied 8 ∧ cleared.history.reached 1 = false ∧
      cleared.history.returned = [[97], [99]] :=
  ⟨(marks_in_order _ 8 ⟨4, 0⟩ _).1,
    (marks_in_order _ 8 ⟨4, 0⟩
      [.append [1, 2, 3, 4, 5], .addMark [97], .append [6], .addMark [98], .consume 5]).2 1
      (by decide) (by decide) _,
    by decide⟩

end Buffers
end AudioFork
