import AudioFork.Buffers.SendBuffer
import AudioFork.Buffers.SpscRing
import AudioFork.Ports

/-!
# Outbound — audio on its way to the server

The part of a session between `PushAudio` and `SendBinary`: the handoff ring, the send buffer and
their counters, with the two loops that move audio along it, `DrainHandoffRing` and
`FlushToConnection`.
-/

namespace AudioFork
namespace Session

open Buffers

variable {β : Type} {S : ℕ+}

structure Outbound (β : Type) (S : ℕ+) where
  ring : SpscByteRing β
  buffer : SendBuffer β S
  paused : Bool
  dropping : Bool
  poolStarved : Bool
  degraded : Bool
  droppedSinceResume : Nat
  mediaDroppedBytes : Nat
  bufferDroppedBytes : Nat
  sentBytes : Nat
  bufferedBytes : Nat
  pausedBytes : Nat

/-- `Emit` with its default fields. -/
def forkEvent (params : ForkParams) (type : ForkEventType) (detail : Text) : ForkEvent :=
  { type := type
    callUuid := params.callUuid
    forkId := params.forkId
    detail := detail
    gapMs := 0
    droppedMs := 0 }

def bytesToMs (params : ForkParams) (bytes : Nat) : Nat :=
  if params.format.bytesPerSecond = 0 then
    0
  else
    bytes * 1000 / params.format.bytesPerSecond

/-! ## PushAudio -/

/-- `PushAudio` past its state check. -/
def Outbound.push (o : Outbound β S) (pcm : List β) : Bool × Outbound β S :=
  if o.paused then
    -- taken, counted and thrown away
    (true, { o with pausedBytes := o.pausedBytes + pcm.length })
  else
    match o.ring.push pcm with
    | (false, _) => (false, { o with mediaDroppedBytes := o.mediaDroppedBytes + pcm.length })
    | (true, ring) => (true, { o with ring := ring })

/-! ## DrainHandoffRing -/

/-- What the drain loop works on. -/
structure Drain (β : Type) (S : ℕ+) where
  outbound : Outbound β S
  supply : SlabSupply
  events : List ForkEvent

namespace Drain

/-- Returns the bytes the shrunken cap shed, 0 when already degraded. -/
def degradeIfNewEpisode (params : ForkParams) (tuning : Tuning) (d : Drain β S) :
    Nat × Drain β S :=
  if tuning.emergencyCapBytes = 0 ∨ d.outbound.degraded then
    (0, d)
  else
    match d.outbound.buffer.setCap d.supply tuning.emergencyCapBytes with
    | (shed, buffer, supply) =>
        (shed,
          { outbound := { d.outbound with degraded := true, buffer := buffer }
            supply := supply
            events := d.events ++
              [forkEvent params .degraded
                (ascii "global memory cap reached, send buffer cut to the emergency cap")] })

/-- One event per overrun episode, not per frame. -/
def emitOverrunIfNewEpisode (params : ForkParams) (dropped : Nat) (d : Drain β S) : Drain β S :=
  if d.outbound.dropping then
    d
  else
    { d with
      outbound.dropping := true
      events := d.events ++
        [{ forkEvent params .overrun (ascii "send buffer full, dropping oldest audio") with
           droppedMs := bytesToMs params dropped }] }

/-- Bytes lost on the shard side, whatever the reason. -/
def countDropped (dropped : Nat) (d : Drain β S) : Drain β S :=
  { d with
    outbound.bufferDroppedBytes := d.outbound.bufferDroppedBytes + dropped
    outbound.droppedSinceResume := d.outbound.droppedSinceResume + dropped }

/-- `buffer_.Append` with the bookkeeping of a dry pool. -/
def store (others : Nat → Nat → Nat) (params : ForkParams) (tuning : Tuning) (d : Drain β S)
    (bytes : List β) : Nat × Drain β S :=
  match d.outbound.buffer.append others d.supply bytes with
  | (result, buffer, supply) =>
      let d := { d with
        outbound := { d.outbound with buffer := buffer, poolStarved := result.poolExhausted }
        supply := supply }
      if result.poolExhausted then
        -- the emergency cap may shed more; only that part is counted here
        match d.degradeIfNewEpisode params tuning with
        | (shed, d) => (result.droppedBytes, d.countDropped shed)
      else
        (result.droppedBytes, d)

/-- The loop body after a successful `Pop`. -/
def chunk (others : Nat → Nat → Nat) (params : ForkParams) (tuning : Tuning) (d : Drain β S)
    (bytes : List β) : Drain β S :=
  match d.store others params tuning bytes with
  | (dropped, d) =>
      let d := { d with outbound.bufferedBytes := d.outbound.buffer.size }
      if dropped > 0 then
        (d.countDropped dropped).emitOverrunIfNewEpisode params dropped
      else
        { d with outbound.dropping := false }

def drainChunkBytes : Nat := 8 * 1024

/-- `DrainHandoffRing`: every round takes at least one byte out of the ring. -/
def loop (others : Nat → Nat → Nat) (params : ForkParams) (tuning : Tuning) :
    Nat → Drain β S → Drain β S
  | 0, d => d
  | fuel + 1, d =>
      match d.outbound.ring.pop drainChunkBytes with
      | (bytes, ring) =>
          if bytes.isEmpty then
            d
          else
            loop others params tuning fuel
              (chunk others params tuning { d with outbound.ring := ring } bytes)

/-- One round of the loop. -/
def round (others : Nat → Nat → Nat) (params : ForkParams) (tuning : Tuning) (d : Drain β S) :
    Drain β S :=
  chunk others params tuning
    { d with outbound.ring := (d.outbound.ring.pop drainChunkBytes).2 }
    (d.outbound.ring.pop drainChunkBytes).1

section

variable {others : Nat → Nat → Nat} {params : ForkParams} {tuning : Tuning} {d : Drain β S}

theorem loop_empty (fuel : Nat) (h : d.outbound.ring.bytes = []) :
    loop others params tuning fuel d = d := by
  cases fuel with
  | zero => rfl
  | succ fuel => simp only [loop, SpscByteRing.pop, h, List.take_nil, List.isEmpty_nil, if_true]

theorem loop_round (fuel : Nat) (h : d.outbound.ring.bytes ≠ []) :
    loop others params tuning (fuel + 1) d =
      loop others params tuning fuel (d.round others params tuning) := by
  have hsome : (d.outbound.ring.pop drainChunkBytes).1.isEmpty = false := by
    rw [SpscByteRing.pop_fst, Bool.eq_false_iff, Ne, List.isEmpty_iff, List.take_eq_nil_iff]
    rintro (hzero | hnil)
    · cases hzero
    · exact h hnil
  rw [loop]
  simp only [hsome]
  rfl

/-- What every round keeps, the loop keeps. -/
theorem loop_invariant {P : Drain β S → Prop}
    (hround : ∀ {d : Drain β S}, P d → d.outbound.ring.bytes ≠ [] → P (d.round others params tuning))
    (fuel : Nat) (h : P d) : P (loop others params tuning fuel d) := by
  induction fuel generalizing d with
  | zero => exact h
  | succ fuel ih =>
      by_cases hring : d.outbound.ring.bytes = []
      · rw [loop_empty _ hring]
        exact h
      · rw [loop_round fuel hring]
        exact ih (hround h hring)

end

end Drain

/-! ## FlushToConnection -/

/-- What the flush loop works on. -/
structure Flush (β : Type) (S : ℕ+) where
  outbound : Outbound β S
  supply : SlabSupply
  wire : List (Offer β)

namespace Flush

/-- `FlushToConnection` on connection `c`, at most `coalesceMaxBytes` per tick.  A refused frame
ends the tick and leaves the published fill level alone. -/
def loop (accepts : Nat → Frame β → Bool) (c coalesceMaxBytes : Nat) :
    Nat → Nat → Flush β S → Flush β S
  | 0, _, f => f
  | fuel + 1, sentThisTick, f =>
      if f.outbound.buffer.empty = false ∧ sentThisTick < coalesceMaxBytes then
        let chunk := f.outbound.buffer.peek (coalesceMaxBytes - sentThisTick)
        if chunk.isEmpty then
          f
        else if accepts f.wire.length (.audio chunk) = false then
          -- the peer is behind: the chunk stays in the buffer until the next tick
          { f with wire := f.wire ++ [{ conn := c, frame := .audio chunk, accepted := false }] }
        else
          match f.outbound.buffer.consume f.supply chunk.length with
          | (buffer, supply) =>
              loop accepts c coalesceMaxBytes fuel (sentThisTick + chunk.length)
                { outbound :=
                    { f.outbound with
                      buffer := buffer
                      sentBytes := f.outbound.sentBytes + chunk.length }
                  supply := supply
                  wire := f.wire ++ [{ conn := c, frame := .audio chunk, accepted := true }] }
      else
        { f with outbound.bufferedBytes := f.outbound.buffer.size }

/-- After an accepted frame. -/
def taken (c : Nat) (chunk : List β) (f : Flush β S) : Flush β S :=
  { outbound :=
      { f.outbound with
        buffer := (f.outbound.buffer.consume f.supply chunk.length).1
        sentBytes := f.outbound.sentBytes + chunk.length }
    supply := (f.outbound.buffer.consume f.supply chunk.length).2
    wire := f.wire ++ [{ conn := c, frame := .audio chunk, accepted := true }] }

/-- After a refused frame. -/
def refused (c : Nat) (chunk : List β) (f : Flush β S) : Flush β S :=
  { f with wire := f.wire ++ [{ conn := c, frame := .audio chunk, accepted := false }] }

section

variable {accepts : Nat → Frame β → Bool} {c coalesce fuel sent : Nat} {f : Flush β S}

/-- Whether a tick goes on. -/
abbrev more (coalesce sent : Nat) (f : Flush β S) : Prop :=
  f.outbound.buffer.empty = false ∧ sent < coalesce

theorem more.chunk_ne_nil (h : f.more coalesce sent) :
    f.outbound.buffer.peek (coalesce - sent) ≠ [] := by
  refine SlabQueue.peek_ne_nil f.outbound.buffer.ok ?_ (Nat.sub_ne_zero_of_lt h.2)
  simpa [SendBuffer.empty] using h.1

theorem loop_done (h : ¬ f.more coalesce sent) :
    loop accepts c coalesce (fuel + 1) sent f =
      { f with outbound.bufferedBytes := f.outbound.buffer.size } := by
  rw [loop]
  exact if_neg h

theorem loop_refused (h : f.more coalesce sent)
    (hanswer : accepts f.wire.length (.audio (f.outbound.buffer.peek (coalesce - sent))) = false) :
    loop accepts c coalesce (fuel + 1) sent f =
      f.refused c (f.outbound.buffer.peek (coalesce - sent)) := by
  rw [loop, if_pos h]
  simp only [List.isEmpty_iff, h.chunk_ne_nil, hanswer, if_false, if_true]
  rfl

theorem loop_taken (h : f.more coalesce sent)
    (hanswer : accepts f.wire.length (.audio (f.outbound.buffer.peek (coalesce - sent))) = true) :
    loop accepts c coalesce (fuel + 1) sent f =
      loop accepts c coalesce fuel (sent + (f.outbound.buffer.peek (coalesce - sent)).length)
        (f.taken c (f.outbound.buffer.peek (coalesce - sent))) := by
  rw [loop, if_pos h]
  simp only [List.isEmpty_iff, h.chunk_ne_nil, hanswer, if_false, Bool.true_eq_false]
  rfl

/-- An accepted frame leaves less in the buffer. -/
theorem size_taken (h : f.more coalesce sent) :
    (f.taken c (f.outbound.buffer.peek (coalesce - sent))).outbound.buffer.size <
      f.outbound.buffer.size := by
  have hpos : 0 < (f.outbound.buffer.peek (coalesce - sent)).length :=
    List.length_pos_iff.mpr h.chunk_ne_nil
  have hsome : f.outbound.buffer.size ≠ 0 := by
    simpa [SendBuffer.empty, SendBuffer.size] using h.1
  have hafter : (f.taken c (f.outbound.buffer.peek (coalesce - sent))).outbound.buffer.size =
      f.outbound.buffer.size - (f.outbound.buffer.peek (coalesce - sent)).length := by
    rw [SendBuffer.size_eq, SendBuffer.size_eq, ← List.length_drop]
    exact congrArg List.length (SendBuffer.content_consume _ _ _)
  omega

/-- What every frame keeps, taken or refused, and the gauge that is stored at the end, the loop keeps. -/
theorem loop_invariant {P : Nat → Flush β S → Prop}
    (hrefused : ∀ {sent : Nat} {f : Flush β S}, P sent f → f.more coalesce sent →
      P sent (f.refused c (f.outbound.buffer.peek (coalesce - sent))))
    (htaken : ∀ {sent : Nat} {f : Flush β S}, P sent f → f.more coalesce sent →
      P (sent + (f.outbound.buffer.peek (coalesce - sent)).length)
        (f.taken c (f.outbound.buffer.peek (coalesce - sent))))
    (hdone : ∀ {sent : Nat} {f : Flush β S}, P sent f →
      P sent { f with outbound.bufferedBytes := f.outbound.buffer.size })
    (fuel : Nat) (h : P sent f) : ∃ sent', P sent' (loop accepts c coalesce fuel sent f) := by
  induction fuel generalizing sent f with
  | zero => exact ⟨sent, h⟩
  | succ fuel ih =>
      by_cases hmore : f.more coalesce sent
      · cases hanswer :
          accepts f.wire.length (.audio (f.outbound.buffer.peek (coalesce - sent))) with
        | false =>
            rw [loop_refused hmore hanswer]
            exact ⟨sent, hrefused h hmore⟩
        | true =>
            rw [loop_taken hmore hanswer]
            exact ih (htaken h hmore)
      · rw [loop_done hmore]
        exact ⟨sent, hdone h⟩

/-- The same for what does not depend on how much of the tick is used up. -/
theorem loop_keeps {P : Flush β S → Prop}
    (hrefused : ∀ {sent : Nat} {f : Flush β S}, P f → f.more coalesce sent →
      P (f.refused c (f.outbound.buffer.peek (coalesce - sent))))
    (htaken : ∀ {sent : Nat} {f : Flush β S}, P f → f.more coalesce sent →
      P (f.taken c (f.outbound.buffer.peek (coalesce - sent))))
    (hdone : ∀ {f : Flush β S}, P f →
      P { f with outbound.bufferedBytes := f.outbound.buffer.size })
    (fuel sent : Nat) (h : P f) : P (loop accepts c coalesce fuel sent f) := by
  rcases loop_invariant (P := fun _ f => P f) hrefused htaken hdone fuel h with ⟨_, hend⟩
  exact hend

end

end Flush

/-! ## RestoreCapIfDrained -/

/-- An empty buffer is recovery only once the pool feeds this fork again. -/
def Outbound.restoreCapIfDrained (tuning : Tuning) (o : Outbound β S) (p : SlabSupply) :
    Outbound β S × SlabSupply :=
  if o.degraded = false ∨ o.poolStarved ∨ o.buffer.empty = false then
    (o, p)
  else
    match o.buffer.setCap p tuning.sendCapBytes with
    | (_, buffer, supply) => ({ o with buffer := buffer, degraded := false }, supply)

/-- The cap is restored over an empty buffer, so nothing can be shed. -/
theorem Outbound.restoreCapIfDrained_cases (tuning : Tuning) (o : Outbound β S) (p : SlabSupply) :
    o.restoreCapIfDrained tuning p = (o, p) ∨
      o.buffer.content = [] ∧ (o.buffer.setCap p tuning.sendCapBytes).2.1.content = [] ∧
        o.restoreCapIfDrained tuning p =
          ({ o with
             buffer := (o.buffer.setCap p tuning.sendCapBytes).2.1
             degraded := false },
            (o.buffer.setCap p tuning.sendCapBytes).2.2) := by
  unfold restoreCapIfDrained
  split
  · exact Or.inl rfl
  · rename_i hdrained
    have hnil : o.buffer.content = [] := by
      rw [← SendBuffer.content_eq_nil_iff_empty]
      by_contra hfull
      exact hdrained (Or.inr (Or.inr (by simpa using hfull)))
    refine Or.inr ⟨hnil, ?_, rfl⟩
    rw [(SendBuffer.setCap_spec o.buffer p tuning.sendCapBytes).2, hnil, List.drop_nil]

end Session
end AudioFork
