import AudioFork.Buffers.Alignment
import AudioFork.Lib.WholeFrames
import AudioFork.Session.Chores
import AudioFork.Session.Conservation

/-!
# Alignment — whole sample frames on the wire

A sample frame is `F` bytes: two for each channel.  When slabs, caps, the limit per tick and every
pushed span are multiples of `F`, so is everything the fork cuts.  The module follows the frames from
`PushAudio` to `SendBinary` as a `Pipe` of its own, whose items are frames instead of bytes.
-/

namespace AudioFork
namespace Session

open Buffers Protocol Lib

variable {β : Type} {S : ℕ+} {F : Nat}

structure AlignedTuning (F : Nat) (tuning : Tuning) : Prop where
  sendCap : F ∣ tuning.sendCapBytes
  emergencyCap : F ∣ tuning.emergencyCapBytes
  coalesce : F ∣ tuning.coalesceMaxBytes

/-! ## The drops of a drain -/

namespace Drain

variable (others : Nat → Nat → Nat) (params : ForkParams) (tuning : Tuning)

/-- The drops for one popped chunk: those of `Append`, and what a new emergency cap sheds. -/
def chunkDrops (d : Drain β S) (bytes : List β) : List Nat :=
  match d.outbound.buffer.append others d.supply bytes with
  | (result, buffer, supply) =>
      let d' := { d with
        outbound := { d.outbound with buffer := buffer, poolStarved := result.poolExhausted }
        supply := supply }
      d.outbound.buffer.appendDrops others d.supply bytes ++
        if result.poolExhausted then [(d'.degradeIfNewEpisode params tuning).1] else []

def loopDrops : Nat → Drain β S → List Nat
  | 0, _ => []
  | fuel + 1, d =>
      match d.outbound.ring.pop drainChunkBytes with
      | (bytes, ring) =>
          if bytes.isEmpty then
            []
          else
            chunkDrops others params tuning { d with outbound.ring := ring } bytes ++
              loopDrops fuel (chunk others params tuning { d with outbound.ring := ring } bytes)

variable {others params tuning} {d : Drain β S}

theorem bufferDroppedBytes_degrade :
    (d.degradeIfNewEpisode params tuning).2.outbound.bufferDroppedBytes =
      d.outbound.bufferDroppedBytes := by
  unfold degradeIfNewEpisode
  split <;> rfl

/-- The bookkeeping after a store counts its drop and leaves the buffer alone. -/
theorem outbound_settled (n : Nat) (d : Drain β S) :
    let settled :=
      if n > 0 then (d.countDropped n).emitOverrunIfNewEpisode params n
      else { d with outbound.dropping := false }
    settled.outbound.buffer = d.outbound.buffer ∧
      settled.outbound.bufferDroppedBytes = d.outbound.bufferDroppedBytes + n := by
  simp only
  split
  · unfold emitOverrunIfNewEpisode
    split <;> exact ⟨rfl, rfl⟩
  · rename_i hzero
    obtain rfl : n = 0 := by omega
    exact ⟨rfl, rfl⟩

theorem bufferDroppedBytes_chunk (bytes : List β) :
    (d.chunk others params tuning bytes).outbound.bufferDroppedBytes =
      d.outbound.bufferDroppedBytes + (d.chunkDrops others params tuning bytes).sum := by
  have hdropped := SendBuffer.droppedBytes_append others d.outbound.buffer d.supply bytes
  unfold chunk store chunkDrops
  rcases happend : d.outbound.buffer.append others d.supply bytes with ⟨result, buffer, supply⟩
  rw [happend] at hdropped
  have hdropped : result.droppedBytes =
    (d.outbound.buffer.appendDrops others d.supply bytes).sum := hdropped
  simp only
  rw [(outbound_settled _ _).2, List.sum_append]
  split
  · show (degradeIfNewEpisode params tuning _).2.outbound.bufferDroppedBytes + _ + _ = _
    rw [bufferDroppedBytes_degrade, hdropped, List.sum_singleton]
    simp only
    omega
  · rw [hdropped]
    rfl

/-- The list is complete: its entries make up what a drain adds to `buffer_dropped_bytes`. -/
theorem bufferDroppedBytes_loop (fuel : Nat) (d : Drain β S) :
    (loop others params tuning fuel d).outbound.bufferDroppedBytes =
      d.outbound.bufferDroppedBytes + (loopDrops others params tuning fuel d).sum := by
  induction fuel generalizing d with
  | zero => rfl
  | succ fuel ih =>
      unfold loop loopDrops
      simp only
      split
      · rfl
      · rw [ih, bufferDroppedBytes_chunk, List.sum_append, Nat.add_assoc]

theorem aligned_degrade (params : ForkParams) (htuning : AlignedTuning F tuning)
    (h : d.outbound.buffer.Aligned F) :
    F ∣ (d.degradeIfNewEpisode params tuning).1 ∧
      (d.degradeIfNewEpisode params tuning).2.outbound.buffer.Aligned F := by
  unfold degradeIfNewEpisode
  split
  · exact ⟨Nat.dvd_zero F, h⟩
  · exact h.setCap d.supply htuning.emergencyCap

theorem aligned_chunk (others : Nat → Nat → Nat) (params : ForkParams) (hS : F ∣ (S : Nat))
    (htuning : AlignedTuning F tuning) (h : d.outbound.buffer.Aligned F) {bytes : List β} (hbytes : F ∣ bytes.length) :
    (d.chunk others params tuning bytes).outbound.buffer.Aligned F ∧
      ∀ n ∈ d.chunkDrops others params tuning bytes, F ∣ n := by
  have happended := h.append hS others d.supply hbytes
  unfold chunk store chunkDrops
  rcases happend : d.outbound.buffer.append others d.supply bytes with ⟨result, buffer, supply⟩
  rw [happend] at happended
  simp only
  rw [(outbound_settled _ _).1]
  split
  · have hdegraded := aligned_degrade params htuning
      (d := { d with
        outbound := { d.outbound with buffer := buffer, poolStarved := result.poolExhausted }
        supply := supply }) happended.1
    refine ⟨hdegraded.2, ?_⟩
    intro n hn
    rcases List.mem_append.mp hn with hn | hn
    · exact happended.2 n hn
    · rw [List.mem_singleton.mp hn]
      exact hdegraded.1
  · refine ⟨happended.1, ?_⟩
    rw [List.append_nil]
    exact happended.2

end Drain

/-! ## Frames from the ring to the wire -/

/-- The frames that connections accepted, with the connection, in time order. -/
def sentFrames (F : Nat) (wire : List (Offer β)) : List (Nat × List β) :=
  wire.flatMap fun o => (frames F (audioOf o)).map (Prod.mk o.conn)

@[simp] theorem sentFrames_append (wire offers : List (Offer β)) :
    sentFrames F (wire ++ offers) = sentFrames F wire ++ sentFrames F offers :=
  List.flatMap_append

def framePipe (F : Nat) (r : SpscByteRing β) (b : SendBuffer β S) (handed : List β)
    (wire : List (Offer β)) : Pipe (List β) :=
  { offered := frames F handed
    back := frames F r.bytes
    front := frames F b.content
    delivered := (sentFrames F wire).map Prod.snd }

structure Framed (F : Nat) (r : SpscByteRing β) (b : SendBuffer β S) (handed : List β)
    (wire : List (Offer β)) : Prop where
  ring : F ∣ r.bytes.length
  buffer : b.Aligned F
  capped : b.capBytes ≠ 0
  taken : F ∣ handed.length
  payloads : ∀ o ∈ wire, ∀ bytes, o.frame = .audio bytes → 0 < bytes.length ∧ F ∣ bytes.length
  sound : (framePipe F r b handed wire).Sound

namespace Framed

variable {r r' : SpscByteRing β} {b b' : SendBuffer β S} {handed : List β} {wire : List (Offer β)}

theorem push (hF : 0 < F) (h : Framed F r b handed wire) {pcm : List β} (hpcm : F ∣ pcm.length)
    (hring : r'.bytes = r.bytes ++ pcm) : Framed F r' b (handed ++ pcm) wire := by
  refine ⟨?_, h.buffer, h.capped, ?_, h.payloads, ?_⟩
  · rw [hring, List.length_append]
    exact Nat.dvd_add h.ring hpcm
  · rw [List.length_append]
    exact Nat.dvd_add h.taken hpcm
  · unfold framePipe
    rw [hring, frames_append hF h.taken, frames_append hF h.ring]
    exact h.sound.offer (frames F pcm)

/-- The oldest bytes of the ring join the buffer, which loses some of its oldest. -/
theorem moved (hF : 0 < F) (h : Framed F r b handed wire) {bytes : List β} (hbytes : F ∣ bytes.length)
    (hring : r.bytes = bytes ++ r'.bytes) (hbuffer : b'.Aligned F) (hcapped : b'.capBytes ≠ 0)
    {lost : Nat} (hlost : lost ≤ (b.content ++ bytes).length)
    (hcontent : b'.content = (b.content ++ bytes).drop lost) : Framed F r' b' handed wire := by
  have hrest : F ∣ r'.bytes.length := by
    have hall := h.ring
    rw [hring, List.length_append] at hall
    exact (Nat.dvd_add_right hbytes).mp hall
  have hframes : F ∣ lost := by
    -- what is left and what there was are whole frames
    have hall : F ∣ (b.content ++ bytes).length := by
      rw [List.length_append]
      exact Nat.dvd_add h.buffer.content hbytes
    have hleft := hbuffer.content
    rw [hcontent, List.length_drop] at hleft
    have hdiff := Nat.dvd_sub hall hleft
    rwa [Nat.sub_sub_self hlost] at hdiff
  refine ⟨hrest, hbuffer, hcapped, h.taken, h.payloads, ?_⟩
  refine h.sound.shrink ?_
  show List.Sublist (frames F b'.content ++ frames F r'.bytes) (frames F b.content ++ frames F r.bytes)
  rw [hcontent, hring, frames_append hF hbytes, ← List.append_assoc,
    ← frames_append hF h.buffer.content]
  exact List.Sublist.append (frames_drop_sublist hF hframes _) (List.Sublist.refl _)

/-- The buffer changes without a byte of its contents, or loses all of them. -/
theorem rebuffered (h : Framed F r b handed wire) (hbuffer : b'.Aligned F)
    (hcapped : b'.capBytes ≠ 0) (hcontent : b'.content = b.content ∨ b'.content = []) :
    Framed F r b' handed wire := by
  refine ⟨h.ring, hbuffer, hcapped, h.taken, h.payloads, ?_⟩
  refine h.sound.shrink ?_
  show List.Sublist (frames F b'.content ++ frames F r.bytes) (frames F b.content ++ frames F r.bytes)
  refine List.Sublist.append ?_ (List.Sublist.refl _)
  rcases hcontent with hsame | hnil
  · rw [hsame]
  · rw [hnil, frames_nil]
    exact List.nil_sublist _

/-- Offers that no connection accepts as audio. -/
theorem offered (h : Framed F r b handed wire) {offers : List (Offer β)}
    (hquiet : ∀ o ∈ offers, audioOf o = [])
    (hpayloads : ∀ o ∈ offers, ∀ bytes, o.frame = .audio bytes → 0 < bytes.length ∧ F ∣ bytes.length) :
    Framed F r b handed (wire ++ offers) := by
  refine ⟨h.ring, h.buffer, h.capped, h.taken, ?_, ?_⟩
  · intro o ho
    rcases List.mem_append.mp ho with ho | ho
    · exact h.payloads o ho
    · exact hpayloads o ho
  · have hnone : sentFrames F offers = [] := by
      refine List.flatMap_eq_nil_iff.mpr ?_
      intro o ho
      rw [hquiet o ho, frames_nil]
      rfl
    unfold framePipe
    rw [sentFrames_append, hnone, List.append_nil]
    exact h.sound

theorem noAudio (h : Framed F r b handed wire) {offers : List (Offer β)}
    (hframes : ∀ o ∈ offers, ∀ bytes, o.frame ≠ .audio bytes) :
    Framed F r b handed (wire ++ offers) := by
  refine h.offered ?_ fun o ho bytes hframe => absurd hframe (hframes o ho bytes)
  intro o ho
  unfold audioOf
  split
  · rename_i bytes _ hframe
    exact absurd hframe (hframes o ho bytes)
  · rfl

/-- The front of the buffer is accepted by connection `c`. -/
theorem sent (hF : 0 < F) (h : Framed F r b handed wire) (c : Nat) {payload : List β}
    (hpayload : F ∣ payload.length) (hpos : 0 < payload.length) (hbuffer : b'.Aligned F)
    (hcapped : b'.capBytes ≠ 0) (hcontent : b.content = payload ++ b'.content) :
    Framed F r b' handed (wire ++ [{ conn := c, frame := .audio payload, accepted := true }]) := by
  refine ⟨h.ring, hbuffer, hcapped, h.taken, ?_, ?_⟩
  · intro o ho bytes hframe
    rcases List.mem_append.mp ho with ho | ho
    · exact h.payloads o ho bytes hframe
    · rw [List.mem_singleton.mp ho] at hframe
      cases hframe
      exact ⟨hpos, hpayload⟩
  · have hfront : frames F b.content = frames F payload ++ frames F b'.content := by
      rw [hcontent, frames_append hF hpayload]
    have hnew : (sentFrames F [({ conn := c, frame := .audio payload, accepted := true } :
        Offer β)]).map Prod.snd = frames F payload := by
      simp [sentFrames, audioOf, Function.comp_def]
    unfold framePipe
    rw [sentFrames_append, List.map_append, hnew]
    exact h.sound.deliver hfront

theorem drain (hF : 0 < F) (hchunk : F ∣ Drain.drainChunkBytes) (hS : F ∣ (S : Nat)) {tuning : Tuning}
    (htuning : AlignedTuning F tuning) (others : Nat → Nat → Nat) (params : ForkParams) (fuel : Nat)
    {d : Drain β S} (h : Framed F d.outbound.ring d.outbound.buffer handed wire) :
    Framed F (Drain.loop others params tuning fuel d).outbound.ring
        (Drain.loop others params tuning fuel d).outbound.buffer handed wire ∧
      ∀ n ∈ Drain.loopDrops others params tuning fuel d, F ∣ n := by
  induction fuel generalizing d with
  | zero => exact ⟨h, by simp [Drain.loopDrops]⟩
  | succ fuel ih =>
      unfold Drain.loop Drain.loopDrops
      simp only
      split
      · exact ⟨h, by simp⟩
      · have hbytes : F ∣ (d.outbound.ring.pop Drain.drainChunkBytes).1.length := by
          rw [SpscByteRing.pop_fst, List.length_take]
          exact dvd_min hchunk h.ring
        rcases Drain.chunk_keeps others params tuning
          { d with outbound.ring := (d.outbound.ring.pop Drain.drainChunkBytes).2 }
          (d.outbound.ring.pop Drain.drainChunkBytes).1 h.capped with ⟨lost, hkeeps⟩
        have haligned := Drain.aligned_chunk others params hS htuning
          (d := { d with outbound.ring := (d.outbound.ring.pop Drain.drainChunkBytes).2 })
          h.buffer hbytes
        have hring : d.outbound.ring.bytes = (d.outbound.ring.pop Drain.drainChunkBytes).1 ++
            (Drain.chunk others params tuning
              { d with outbound.ring := (d.outbound.ring.pop Drain.drainChunkBytes).2 }
              (d.outbound.ring.pop Drain.drainChunkBytes).1).outbound.ring.bytes := by
          rw [hkeeps.ring]
          exact (List.take_append_drop _ _).symm
        have hmoved := h.moved hF hbytes hring haligned.1 hkeeps.capped hkeeps.fits hkeeps.content
        rcases ih hmoved with ⟨hframed, hdrops⟩
        refine ⟨hframed, ?_⟩
        intro n hn
        rcases List.mem_append.mp hn with hn | hn
        · exact haligned.2 n hn
        · exact hdrops n hn

theorem flush (hF : 0 < F) (accepts : Nat → Frame β → Bool) (c : Nat) {coalesceMaxBytes : Nat}
    (hcoalesce : F ∣ coalesceMaxBytes) (fuel : Nat) {sentThisTick : Nat} (hsent : F ∣ sentThisTick)
    {f : Flush β S} (h : Framed F f.outbound.ring f.outbound.buffer handed f.wire) :
    Framed F (Flush.loop accepts c coalesceMaxBytes fuel sentThisTick f).outbound.ring
      (Flush.loop accepts c coalesceMaxBytes fuel sentThisTick f).outbound.buffer handed
      (Flush.loop accepts c coalesceMaxBytes fuel sentThisTick f).wire := by
  have hend : ∃ sent, F ∣ sent ∧ Framed F
      (Flush.loop accepts c coalesceMaxBytes fuel sentThisTick f).outbound.ring
      (Flush.loop accepts c coalesceMaxBytes fuel sentThisTick f).outbound.buffer handed
      (Flush.loop accepts c coalesceMaxBytes fuel sentThisTick f).wire := by
    refine Flush.loop_invariant
      (P := fun sent f => F ∣ sent ∧ Framed F f.outbound.ring f.outbound.buffer handed f.wire)
      ?_ ?_ ?_ fuel ⟨hsent, h⟩
    · -- a refused payload is offered again, whole
      rintro sent f ⟨hsent, h⟩ hmore
      have hchunk := h.buffer.queue.peek (Nat.dvd_sub hcoalesce hsent)
      refine ⟨hsent, h.offered ?_ ?_⟩
      · intro o ho
        rw [List.mem_singleton.mp ho]
        rfl
      · intro o ho bytes hframe
        rw [List.mem_singleton.mp ho] at hframe
        cases hframe
        exact ⟨List.length_pos_iff.mpr hmore.chunk_ne_nil, hchunk⟩
    · rintro sent f ⟨hsent, h⟩ hmore
      have hchunk := h.buffer.queue.peek (Nat.dvd_sub hcoalesce hsent)
      refine ⟨Nat.dvd_add hsent hchunk, ?_⟩
      exact h.sent hF c hchunk (List.length_pos_iff.mpr hmore.chunk_ne_nil)
        (h.buffer.consume f.supply hchunk) h.capped
        (f.outbound.buffer.content_peek f.supply (coalesceMaxBytes - sent))
    · rintro sent f ⟨hsent, h⟩
      exact ⟨hsent, h⟩
  rcases hend with ⟨_, -, hframed⟩
  exact hframed

theorem restoreCapIfDrained {o : Outbound β S} (h : Framed F o.ring o.buffer handed wire)
    {tuning : Tuning} (htuning : AlignedTuning F tuning) (hcap : tuning.sendCapBytes ≠ 0)
    (p : SlabSupply) :
    Framed F (o.restoreCapIfDrained tuning p).1.ring (o.restoreCapIfDrained tuning p).1.buffer handed
      wire := by
  rcases o.restoreCapIfDrained_cases tuning p with hkept | ⟨-, hcontent, hrestored⟩
  · rw [hkept]
    exact h
  · rw [hrestored]
    refine h.rebuffered (h.buffer.setCap p htuning.sendCap).2 ?_ (Or.inr hcontent)
    rw [SendBuffer.capBytes_setCap]
    exact hcap

end Framed

/-! ## Steps -/

namespace World

/-- Everything in the fork is whole frames, and so is what it offered. -/
structure Framed (F : Nat) (w : World β S) : Prop where
  tuning : AlignedTuning F w.session.tuning
  sendCap : w.session.tuning.sendCapBytes ≠ 0
  flow : Session.Framed F w.session.outbound.ring w.session.outbound.buffer w.handed w.port.wire

/-- The drops of `DrainHandoffRing`, one by one. -/
def drainDrops (env : Env β) (w : World β S) : List Nat :=
  Drain.loopDrops env.others w.session.params w.session.tuning w.session.outbound.ring.size
    { outbound := w.session.outbound, supply := w.supply, events := w.events }

namespace Framed

variable {env : Env β} {v w : World β S}

theorem noAudio (h : w.Framed F) {offers : List (Offer β)}
    (hframes : ∀ o ∈ offers, ∀ bytes, o.frame ≠ .audio bytes) :
    Framed F { w with port.wire := w.port.wire ++ offers } :=
  ⟨h.tuning, h.sendCap, h.flow.noAudio hframes⟩

theorem retire (h : w.Framed F) : w.retire.Framed F := by
  rcases finalize_writes { w with session.state := .dead } with ⟨_, _, -, hwrites⟩
  unfold World.retire
  rw [hwrites]
  exact ⟨h.tuning, h.sendCap,
    h.flow.rebuffered (h.flow.buffer.clear w.supply) h.flow.capped (Or.inr rfl)⟩

theorem hangUp (h : w.Framed F) : w.hangUp.Framed F :=
  hangUp_ends h.retire fun _ => ⟨h.tuning, h.sendCap, h.flow⟩

theorem aside (h : w.Framed F) (haside : Aside w v) : v.Framed F := by
  rcases haside with ⟨_, _, _, _, _, _, _, -, rfl⟩
  exact ⟨h.tuning, h.sendCap, h.flow⟩

theorem pushAudio (hF : 0 < F) (h : w.Framed F) {pcm : List β} (hpcm : F ∣ pcm.length) :
    (w.pushAudio pcm).Framed F := by
  unfold World.pushAudio Outbound.push
  split
  · cases hpaused : w.session.outbound.paused with
    | true => exact ⟨h.tuning, h.sendCap, by simpa [hpaused] using h.flow⟩
    | false =>
        simp only [Bool.false_eq_true, if_false]
        cases hpush : w.session.outbound.ring.push pcm with
        | mk accepted ring =>
            cases accepted with
            | false => exact ⟨h.tuning, h.sendCap, by simpa using h.flow⟩
            | true =>
                have hbytes : ring.bytes = w.session.outbound.ring.bytes ++ pcm := by
                  have haccepted : (w.session.outbound.ring.push pcm).1 = true := by rw [hpush]
                  rw [← SpscByteRing.push_accepted haccepted, hpush]
                exact ⟨h.tuning, h.sendCap, by simpa [hpaused] using h.flow.push hF hpcm hbytes⟩
  · exact h

theorem flushToConnection (hF : 0 < F) (h : w.Framed F) : (w.flushToConnection env).Framed F := by
  unfold World.flushToConnection
  split
  · exact h
  · exact ⟨h.tuning, h.sendCap, h.flow.flush hF _ _ h.tuning.coalesce _ (Nat.dvd_zero F)⟩

theorem restoreCapIfDrained (h : w.Framed F) : w.restoreCapIfDrained.Framed F :=
  ⟨h.tuning, h.sendCap, h.flow.restoreCapIfDrained h.tuning h.sendCap w.supply⟩

theorem drainTick (hF : 0 < F) (h : w.Framed F) : (w.drainTick env).2.Framed F := by
  have hflushed : (w.flushToConnection env).Framed F := h.flushToConnection hF
  unfold World.drainTick
  simp only
  rcases drainExpired_writes env (w.flushToConnection env) with ⟨_, hexpired⟩
  rcases sayBye_writes env ((w.flushToConnection env).drainExpired env).2
    (w.flushToConnection env).session.outbound.buffer.empty with ⟨_, offers, hoffers, hbye⟩
  rw [hbye, hexpired]
  exact ⟨hflushed.tuning, hflushed.sendCap,
    hflushed.flow.noAudio fun o ho bytes => by simp [(hoffers o ho).2]⟩

theorem drainHandoffRing (hF : 0 < F) (hchunk : F ∣ Drain.drainChunkBytes) (hS : F ∣ (S : Nat))
    (h : w.Framed F) : (w.drainHandoffRing env).Framed F :=
  ⟨h.tuning, h.sendCap, (h.flow.drain hF hchunk hS h.tuning env.others w.session.params _).1⟩

theorem chore (hF : 0 < F) (hchunk : F ∣ Drain.drainChunkBytes) (hS : F ∣ (S : Nat))
    (h : w.Framed F) {pumps : World β S → Prop} (hchore : Chore env pumps w v) : v.Framed F := by
  cases hchore with
  | drainHandoffRing _ => exact h.drainHandoffRing hF hchunk hS
  | flushToConnection _ => exact h.flushToConnection hF
  | restoreCapIfDrained _ => exact h.restoreCapIfDrained
  | receive bytes _ => exact h.aside (aside_receive env w _ bytes)
  | pumpPlayback => exact h.aside (aside_pumpPlayback w)
  | handleClear _ => exact h.aside (aside_handleClear w _)
  | unsupported detail => exact h.aside (aside_unsupported w detail)
  | noteRefused => exact h.aside (aside_noteRefused w)
  | refuseHello c hello _ _ => exact h.noAudio (by simp)
  | abandonSocket _ => exact h.aside (aside_abandonSocket w)
  | hangUp _ => exact h.hangUp
  | drainTurn _ _ => exact drainTurn_ends (h.drainTick hF) Framed.hangUp
  | retire _ => exact h.retire
  | _ => exact ⟨h.tuning, h.sendCap, h.flow⟩

theorem greet (h : w.Framed F) (c : Nat) (hello : Text) : (w.greet env c hello).Framed F := by
  have hhello : (send env { w with session.state := .active } c (.hello hello)).2.Framed F :=
    noAudio (w := { w with session.state := .active }) ⟨h.tuning, h.sendCap, h.flow⟩ (by simp)
  unfold World.greet
  rcases announce_writes env (send env { w with session.state := .active } c (.hello hello)).2 c with
    ⟨_, _, _, _, resumes, _, hresumes, -, hannounce⟩
  have hannounced : ((send env { w with session.state := .active } c (.hello hello)).2.announce env
      c).Framed F := by
    rw [hannounce]
    refine ⟨hhello.tuning, hhello.sendCap, hhello.flow.noAudio ?_⟩
    intro o ho bytes
    rcases (hresumes o ho).2 with ⟨payload, hframe⟩
    simp [hframe]
  rcases flushPendingTexts_writes env ((send env { w with session.state := .active } c
    (.hello hello)).2.announce env c) with ⟨_, texts, htexts, hflush⟩
  rw [hflush]
  refine ⟨hannounced.tuning, hannounced.sendCap, hannounced.flow.noAudio ?_⟩
  intro o ho bytes
  rcases (htexts o ho).2 with ⟨text, hframe⟩
  simp [hframe]

theorem perform (hF : 0 < F) (h : w.Framed F) {o : Occasion β}
    (hpush : ∀ pcm, o = .push pcm → F ∣ pcm.length) : (w.perform env o).Framed F := by
  cases o with
  | closed connectFailed =>
      rcases noteClosed_writes env w connectFailed with ⟨_, _, _, -, hwrites⟩
      show (w.noteClosed env connectFailed).Framed F
      rw [hwrites]
      exact ⟨h.tuning, h.sendCap, h.flow⟩
  | greet c hello => exact h.greet c hello
  | modify endpoint =>
      rcases applyModify_writes env w endpoint with ⟨_, _, _, _, offers, hoffers, hwrites⟩
      show (w.applyModify env endpoint).Framed F
      rw [hwrites]
      exact ⟨h.tuning, h.sendCap, h.flow.noAudio fun o ho bytes => by simp [hoffers o ho]⟩
  | deliver i text =>
      rcases deliverText_writes env (w.takeTask i) text with ⟨_, _, offers, hoffers, hwrites⟩
      show ((w.takeTask i).deliverText env text).Framed F
      rw [hwrites]
      refine ⟨h.tuning, h.sendCap, h.flow.noAudio ?_⟩
      intro o ho bytes
      rcases (hoffers o ho).2.2 with ⟨text, hframe⟩
      simp [hframe]
  | push pcm => exact h.pushAudio hF (hpush pcm rfl)
  | _ => exact ⟨h.tuning, h.sendCap, h.flow⟩

end Framed

end World

/-- Spans of whole frames. -/
def wholeSpans (F : Nat) : Step β → Bool
  | .pushAudio pcm => decide (F ∣ pcm.length)
  | _ => true

/-- The drops of a step, one by one: a span the handoff ring does not take, and those of the shard. -/
def drops (env : Env β) (w : World β S) (s : Step β) : List Nat :=
  (match s with
    | .pushAudio pcm =>
        if w.session.state.live && !w.session.outbound.paused &&
            (w.session.outbound.ring.push pcm).1 then
          []
        else
          [pcm.length]
    | _ => []) ++
  (pumpCalls env w s).flatMap fun v => v.drainDrops env

section

variable {env : Env β} {w : World β S} {s : Step β}

theorem framed_step (hF : 0 < F) (hchunk : F ∣ Drain.drainChunkBytes) (hS : F ∣ (S : Nat))
    (h : w.Framed F) (hspan : wholeSpans F s = true) : (step env w s).Framed F := by
  have hchore : ∀ a b : World β S, a.Chore env (fun v => v ∈ pumpCalls env w s) b → a.Framed F → b.Framed F :=
    fun _ _ hab ha => ha.chore hF hchunk hS hab
  refine (chores_step env w s).preserves hchore ?_
  refine ((chores_preamble env w s).preserves hchore h).perform hF ?_
  intro pcm hoccasion
  have harises := occasion_arises env w s
  rw [hoccasion] at harises
  obtain rfl : s = .pushAudio pcm := harises
  simpa [wholeSpans] using hspan

theorem dvd_drops (hF : 0 < F) (hchunk : F ∣ Drain.drainChunkBytes) (hS : F ∣ (S : Nat))
    (h : w.Framed F) (hspan : wholeSpans F s = true) : ∀ n ∈ drops env w s, F ∣ n := by
  intro n hn
  rcases List.mem_append.mp hn with hn | hn
  · split at hn
    · rename_i pcm
      split at hn
      · cases hn
      · rw [List.mem_singleton.mp hn]
        simpa [wholeSpans] using hspan
    · cases hn
  · rcases List.mem_flatMap.mp hn with ⟨v, hv, hn⟩
    have haudio := audio_pumpCall hv
    have htuning : v.session.tuning = w.session.tuning := congrArg Audio.tuning haudio
    have hring : v.session.outbound.ring = w.session.outbound.ring := congrArg Audio.ring haudio
    have hbuffer : v.session.outbound.buffer = w.session.outbound.buffer :=
      congrArg Audio.buffer haudio
    have hflow : Framed F v.session.outbound.ring v.session.outbound.buffer w.handed w.port.wire := by
      rw [hring, hbuffer]
      exact h.flow
    exact (hflow.drain (d := { outbound := v.session.outbound, supply := v.supply, events := v.events })
      hF hchunk hS (htuning ▸ h.tuning) env.others v.session.params _).2 n hn

/-- What connection `c` accepted, frame by frame. -/
theorem sentAudio_frames (hF : 0 < F) {wire : List (Offer β)}
    (hpayloads : ∀ o ∈ wire, ∀ bytes, o.frame = .audio bytes → 0 < bytes.length ∧ F ∣ bytes.length)
    (c : Nat) :
    sentAudio (wire.filter fun o => o.conn = c) =
      (((sentFrames F wire).filter fun e => e.1 = c).map Prod.snd).flatten := by
  induction wire with
  | nil => rfl
  | cons o wire ih =>
      have hrest := ih fun o ho => hpayloads o (List.mem_cons_of_mem _ ho)
      have hwhole : (frames F (audioOf o)).flatten = audioOf o := by
        refine flatten_frames hF ?_
        unfold audioOf
        split
        · rename_i bytes _ hframe
          exact (hpayloads o List.mem_cons_self bytes hframe).2
        · exact Nat.dvd_zero F
      have hcons : sentFrames F (o :: wire) =
          (frames F (audioOf o)).map (Prod.mk o.conn) ++ sentFrames F wire := rfl
      rw [hcons, List.filter_append, List.map_append, List.flatten_append, ← hrest]
      by_cases hconn : o.conn = c
      · simp [hconn, sentAudio, List.filter_map, Function.comp_def, hwhole]
      · simp [hconn, sentAudio, List.filter_map, Function.comp_def]

end

/-- A sample frame: 16 bits for each channel. -/
def frameBytes (params : ForkParams) : Nat := 2 * params.format.channels

/-- With whole frames coming in and whole frames in every limit, a fork cuts audio between frames
only: every payload offered and every drop is whole frames, and what a connection accepted are frames
of the audio handed over, in order. -/
theorem sample_frames_stay_whole {env : Env β} {params : ForkParams} {tuning : Tuning}
    {onFinished : Bool} {supply : SlabSupply} {w₀ w : World β S} (hdvd : frameBytes params ∣ 4)
    (hS : frameBytes params ∣ (S : Nat)) (htuning : AlignedTuning (frameBytes params) tuning)
    (hcreate : World.create params tuning onFinished supply = some w₀)
    (hrun : Run (step env) (fun _ s => wholeSpans (frameBytes params) s = true) w₀ w) :
    (∀ o ∈ w.port.wire, ∀ bytes, o.frame = .audio bytes →
        0 < bytes.length ∧ frameBytes params ∣ bytes.length) ∧
      (∀ s, wholeSpans (frameBytes params) s = true →
        ∀ n ∈ drops env w s, frameBytes params ∣ n) ∧
      (frameBytes params ∣ w.session.outbound.ring.size ∧
        frameBytes params ∣ w.session.outbound.buffer.size) ∧
      ∀ c, ∃ fs, List.Sublist fs (frames (frameBytes params) w.handed) ∧
        sentAudio (w.port.wire.filter fun o => o.conn = c) = fs.flatten := by
  generalize frameBytes params = F at hdvd hS htuning hrun ⊢
  have hpos : 0 < F := Nat.pos_of_dvd_of_pos hdvd (by decide)
  have hchunk : F ∣ Drain.drainChunkBytes := Nat.dvd_trans hdvd (by decide)
  have hframed : w.Framed F := by
    refine hrun.invariant ?_ fun _ s hv hspan => framed_step hpos hchunk hS hv hspan
    rcases World.create_spec hcreate with ⟨ring, path, rate, channels, hring, hcap, -, rfl⟩
    refine ⟨htuning, hcap, ?_⟩
    refine ⟨?_, ⟨SlabQueue.aligned_empty F, htuning.sendCap⟩, hcap, Nat.dvd_zero F, ?_, ?_⟩
    · show F ∣ ring.bytes.length
      rw [hring]
      exact Nat.dvd_zero F
    · intro o ho
      cases ho
    · show List.Sublist ([] ++ (frames F [] ++ frames F ring.bytes)) (frames F [])
      rw [hring]
      simp
  refine ⟨hframed.flow.payloads, fun s hspan => dvd_drops hpos hchunk hS hframed hspan,
    ⟨hframed.flow.ring, hframed.flow.buffer.size⟩, fun c => ?_⟩
  refine ⟨_, ?_, sentAudio_frames hpos hframed.flow.payloads c⟩
  exact (List.filter_sublist.map Prod.snd).trans hframed.flow.sound.delivered_sublist

/-- A mono fork with one slab of two frames drops, reconnects and drops again. -/
theorem sample_frames_stay_whole_tight :
    let w := exec (step Sample.env) tightFork
      [.start, .pushAudio [1, 2, 3, 4, 5, 6], .pump, .onConnected 0, .pushAudio [7, 8], .pump,
        .onClosed 0 false, .pushAudio [9, 10], .retryTimer, .onConnected 1,
        .pushAudio [11, 12, 13, 14, 15, 16]]
    let F := frameBytes Sample.params
    sentAudio (w.port.wire.filter fun o => o.conn = 0) = [5, 6, 7, 8] ∧
      drops Sample.env w .pump = [0, 0, 2, 0] ∧
      (∀ o ∈ w.port.wire, ∀ bytes, o.frame = .audio bytes → 0 < bytes.length ∧ F ∣ bytes.length) ∧
      (∀ s, wholeSpans F s = true → ∀ n ∈ drops Sample.env w s, F ∣ n) ∧
      (F ∣ w.session.outbound.ring.size ∧ F ∣ w.session.outbound.buffer.size) ∧
      ∀ c, ∃ fs, List.Sublist fs (frames F w.handed) ∧
        sentAudio (w.port.wire.filter fun o => o.conn = c) = fs.flatten :=
  ⟨by decide +kernel, by decide +kernel,
    sample_frames_stay_whole (by decide) (by decide) ⟨by decide, by decide, by decide⟩
      create_tightFork (Run.of_exec (by decide +kernel))⟩

end Session
end AudioFork
