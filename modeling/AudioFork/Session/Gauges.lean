import AudioFork.Session.AfterDeath
import AudioFork.Session.FlowControl
import AudioFork.Session.Stock

/-!
# Gauges — when the published fill levels are the real ones

`stats` reports the fill of both buffers from counters of its own, which every path that moves audio
has to refresh.  Two paths do not.  `FlushToConnection` returns from the middle of its loop when a
frame is refused, whatever it has sent before; `Finalize` clears both buffers and no counter.

`gauges_tell_truth` says that these are the only ones: in a run in which no tick is cut short after
its first frame, and no session is finalized with audio in its buffers, the gauges are right in every
state.
-/

namespace AudioFork
namespace Session

open Buffers Protocol Lib

variable {β : Type} {S : ℕ+}

/-! ## Stats -/

structure Stats where
  mediaDroppedBytes : Nat
  bufferDroppedBytes : Nat
  sentBytes : Nat
  reconnects : Nat
  unsupportedInbound : Nat
  bufferedBytes : Nat
  playbackBytesReceived : Nat
  playbackBytesPlayed : Nat
  playbackUnderruns : Nat
  bargeIns : Nat
  playbackBufferedBytes : Nat
  pendingTextsDropped : Nat
  playbackBytesDropped : Nat
  pausedBytes : Nat
  degraded : Bool
  paused : Bool
  deriving DecidableEq, Repr

def ForkSession.stats (s : ForkSession β S) : Stats :=
  { mediaDroppedBytes := s.outbound.mediaDroppedBytes
    bufferDroppedBytes := s.outbound.bufferDroppedBytes
    sentBytes := s.outbound.sentBytes
    reconnects := s.reconnects
    unsupportedInbound := s.unsupportedInbound
    bufferedBytes := s.outbound.bufferedBytes
    playbackBytesReceived := s.playback.bytesReceived
    playbackBytesPlayed := s.playback.bytesPlayed
    playbackUnderruns := s.playback.underruns
    bargeIns := s.playback.bargeIns
    playbackBufferedBytes := s.playback.bufferedBytes
    pendingTextsDropped := s.pendingTextsDropped
    playbackBytesDropped := s.playback.bytesDropped
    pausedBytes := s.outbound.pausedBytes
    degraded := s.outbound.degraded
    paused := s.outbound.paused }

/-- The size of the jitter buffer; `0` when playback is disabled. -/
def Playback.jitterSize (p : Playback β S) : Nat :=
  match p.path with
  | none => 0
  | some path => path.jitter.size

theorem Playback.jitterSize_some {p : Playback β S} {path : PlaybackPath β S}
    (h : p.path = some path) : p.jitterSize = path.jitter.size := by
  unfold jitterSize
  rw [h]

def Outbound.Gauged (o : Outbound β S) : Prop := o.bufferedBytes = o.buffer.size

def Playback.Gauged (p : Playback β S) : Prop := p.bufferedBytes = p.jitterSize

/-- Both gauges. -/
structure Stock.Gauged (k : Stock β S) : Prop where
  outbound : k.buffered = k.buffer.size
  playback : k.inbound.playback.Gauged

/-! ## Draining the ring -/

theorem Drain.gauged_chunk (others : Nat → Nat → Nat) (params : ForkParams) (tuning : Tuning)
    (d : Drain β S) (bytes : List β) : (d.chunk others params tuning bytes).outbound.Gauged := by
  unfold chunk
  cases d.store others params tuning bytes with
  | mk dropped stored =>
      simp only
      split
      · unfold emitOverrunIfNewEpisode countDropped
        split <;> rfl
      · rfl

theorem Drain.gauged_loop (others : Nat → Nat → Nat) (params : ForkParams) (tuning : Tuning)
    (fuel : Nat) {d : Drain β S} (h : d.outbound.Gauged) :
    (Drain.loop others params tuning fuel d).outbound.Gauged := by
  refine Drain.loop_invariant (P := fun d => d.outbound.Gauged) ?_ fuel h
  intro d _ _
  exact gauged_chunk others params tuning _ _

theorem World.gauged_drainHandoffRing (env : Env β) {w : World β S}
    (h : w.session.outbound.Gauged) : (w.drainHandoffRing env).session.outbound.Gauged :=
  Drain.gauged_loop env.others w.session.params w.session.tuning _ h

/-! ## Flushing -/

namespace Flush

/-- What the connection answers to the frames of a tick, one after the other. -/
def answers (accepts : Nat → Frame β → Bool) (c coalesceMaxBytes : Nat) :
    Nat → Nat → Flush β S → List Bool
  | 0, _, _ => []
  | fuel + 1, sentThisTick, f =>
      if f.outbound.buffer.empty = false ∧ sentThisTick < coalesceMaxBytes then
        let chunk := f.outbound.buffer.peek (coalesceMaxBytes - sentThisTick)
        if accepts f.wire.length (.audio chunk) then
          true :: answers accepts c coalesceMaxBytes fuel (sentThisTick + chunk.length)
            (f.taken c chunk)
        else
          [false]
      else
        []

section

variable {accepts : Nat → Frame β → Bool} {c coalesce fuel sent : Nat} {f : Flush β S}

/-- A tick without a refusal runs to its end, where the gauge is stored. -/
theorem gauged_loop (hfuel : f.outbound.buffer.size < fuel)
    (h : false ∉ answers accepts c coalesce fuel sent f) :
    (loop accepts c coalesce fuel sent f).outbound.Gauged := by
  induction fuel generalizing sent f with
  | zero => exact absurd hfuel (Nat.not_lt_zero _)
  | succ fuel ih =>
      by_cases hmore : f.more coalesce sent
      · rw [answers, if_pos hmore] at h
        simp only at h
        split at h
        · rename_i hanswer
          rw [loop_taken hmore hanswer]
          refine ih ?_ (List.not_mem_of_not_mem_cons h)
          exact Nat.lt_of_lt_of_le (size_taken hmore) (Nat.lt_succ_iff.mp hfuel)
        · exact absurd (List.mem_singleton_self false) h
      · rw [loop_done hmore]
        rfl

/-- A refusal of the first frame leaves the buffer and the gauge alone. -/
theorem gauged_uncut (hfuel : f.outbound.buffer.size < fuel) (hgauge : f.outbound.Gauged)
    (h : ¬ (true ∈ answers accepts c coalesce fuel sent f ∧
      false ∈ answers accepts c coalesce fuel sent f)) :
    (loop accepts c coalesce fuel sent f).outbound.Gauged := by
  by_cases hrefusal : false ∈ answers accepts c coalesce fuel sent f
  · have hnone : true ∉ answers accepts c coalesce fuel sent f := fun htaken => h ⟨htaken, hrefusal⟩
    cases fuel with
    | zero => exact absurd hfuel (Nat.not_lt_zero _)
    | succ fuel =>
        by_cases hmore : f.more coalesce sent
        · rw [answers, if_pos hmore] at hnone
          simp only at hnone
          split at hnone
          · exact absurd List.mem_cons_self hnone
          · rename_i hanswer
            rw [loop_refused hmore (by simpa using hanswer)]
            exact hgauge
        · rw [loop_done hmore]
          rfl
  · exact gauged_loop hfuel hrefusal

end

end Flush

namespace World

variable {env : Env β} {w : World β S}

/-- A flush in this world is cut short: the connection takes a frame of the tick and refuses
another. -/
def interrupted (env : Env β) (w : World β S) : Bool :=
  match w.session.connection with
  | none => false
  | some c =>
      let answers := Flush.answers (env.accepts w.port.conns c) c w.session.tuning.coalesceMaxBytes
        (w.session.outbound.buffer.size + 1) 0
        { outbound := w.session.outbound, supply := w.supply, wire := w.port.wire }
      answers.contains true && answers.contains false

theorem flushToConnection_none (h : w.session.connection = none) : w.flushToConnection env = w := by
  unfold flushToConnection
  rw [h]

theorem gauged_flushToConnection (hgauge : w.session.outbound.Gauged)
    (h : w.interrupted env = false) : (w.flushToConnection env).session.outbound.Gauged := by
  unfold interrupted at h
  cases hconn : w.session.connection with
  | none =>
      rw [flushToConnection_none hconn]
      exact hgauge
  | some c =>
      rw [hconn] at h
      simp only [Bool.and_eq_false_iff, List.contains_eq_mem, decide_eq_false_iff_not] at h
      unfold flushToConnection
      rw [hconn]
      refine Flush.gauged_uncut (Nat.lt_succ_self _) hgauge ?_
      rintro ⟨htaken, hrefused⟩
      rcases h with h | h
      · exact h htaken
      · exact h hrefused

theorem gauged_restoreCapIfDrained (h : w.session.outbound.Gauged) :
    w.restoreCapIfDrained.session.outbound.Gauged := by
  unfold restoreCapIfDrained
  rcases w.session.outbound.restoreCapIfDrained_cases w.session.tuning w.supply with
    hkept | ⟨hnil, hnil', hrestored⟩
  · rw [hkept]
    exact h
  · -- the cap changes over an empty buffer
    rw [hrestored]
    show w.session.outbound.bufferedBytes = _
    rw [h, SendBuffer.size_eq, SendBuffer.size_eq, hnil, hnil']

/-! ## Playback -/

/-- `PumpPlayback` stores the gauge, whatever it was. -/
theorem gauged_pumpPlayback_some {path : PlaybackPath β S}
    (hpath : w.session.playback.path = some path) : w.pumpPlayback.session.playback.Gauged := by
  rw [pumpPlayback_some hpath]
  split
  · rfl
  · rename_i c hconn
    rcases flowControl_writes (w.handedOver path) c
      ((w.pumped path).1.jitter.size + (w.pumped path).1.ring.size) with ⟨_, _, hflow⟩
    rw [hflow]
    rfl

theorem gauged_pumpPlayback (h : w.session.playback.Gauged) :
    w.pumpPlayback.session.playback.Gauged := by
  cases hpath : w.session.playback.path with
  | none =>
      rw [pumpPlayback_none hpath]
      exact h
  | some path => exact gauged_pumpPlayback_some hpath

theorem jitterSize_read (p : Playback β S) (count : Nat) :
    (p.read count).2.jitterSize = p.jitterSize := by
  rcases p.read_path count with ⟨hbefore, hafter⟩ | ⟨path, ring, hbefore, hafter⟩
  · unfold Playback.jitterSize
    rw [hbefore, hafter]
  · rw [Playback.jitterSize_some hbefore, Playback.jitterSize_some hafter]

theorem gauged_readPlayback (count : Nat) (h : w.session.playback.Gauged) :
    (w.readPlayback count).session.playback.Gauged := by
  rcases readPlayback_writes w count with ⟨_, _, _, _, hwrites⟩
  have hgauge : (w.readPlayback count).session.playback.bufferedBytes =
      w.session.playback.bufferedBytes := by
    rw [hwrites]
  exact hgauge.trans (h.trans (jitterSize_read w.session.playback count).symm)

theorem gauged_handleClear (w : World β S) (path : PlaybackPath β S) :
    (w.handleClear path).session.playback.Gauged := by
  rcases handleClear_writes w path with ⟨_, _, hwrites⟩
  rw [hwrites]
  rfl

theorem gauged_handleMark {path : PlaybackPath β S} (hpath : w.session.playback.path = some path)
    (name : Text) (h : w.session.playback.Gauged) :
    (w.handleMark path name).session.playback.Gauged := by
  show w.session.playback.bufferedBytes = (path.jitter.addMark name).queue.size
  rw [h, JitterBuffer.queue_addMark, Playback.jitterSize_some hpath]
  rfl

/-! ## A pump -/

theorem gauged_moveAudio (h : w.stock.Gauged) : (w.moveAudio env).stock.Gauged where
  outbound := by
    show (w.drainHandoffRing env).pumpPlayback.session.outbound.Gauged
    rw [outbound_pumpPlayback]
    exact gauged_drainHandoffRing env h.outbound
  playback := by
    refine gauged_pumpPlayback ?_
    rw [playback_drainHandoffRing]
    exact h.playback

theorem gauged_flush (h : w.stock.Gauged) (hcut : w.interrupted env = false) :
    (w.flushToConnection env).stock.Gauged where
  outbound := gauged_flushToConnection h.outbound hcut
  playback := by
    show (w.flushToConnection env).inbound.playback.Gauged
    rw [inbound_flushToConnection]
    exact h.playback

/-- The states in which `Pump` flushes. -/
def flushes : SessionState → Bool
  | .active => true
  | .draining => true
  | _ => false

/-- A pump that is not cut short tells the truth, unless it finalizes the session. -/
theorem gauged_pump (h : w.stock.Gauged)
    (hcut : (flushes w.session.state && (w.moveAudio env).interrupted env) = false) :
    (w.pump env).stock.Gauged ∨
      (w.session.state = .draining ∧ w.session.connection = none ∧ w.drainOver env = true) ∧
        Ended (w.moveAudio env) (w.pump env) := by
  have hmoved : (w.moveAudio env).stock.Gauged := gauged_moveAudio h
  have huncut : flushes w.session.state = true → (w.moveAudio env).interrupted env = false := by
    intro hflushes
    simpa [hflushes] using hcut
  rw [pump_eq]
  split
  · -- active: a flush that is not cut short stores its gauge
    rename_i hstate
    have hflushed := gauged_flush hmoved (huncut (by rw [hstate]; rfl))
    exact Or.inl ⟨gauged_restoreCapIfDrained hflushed.outbound, hflushed.playback⟩
  · rename_i hstate
    have hflushed := gauged_flush hmoved (huncut (by rw [hstate]; rfl))
    have htick := stock_drainTick env (w.moveAudio env)
    have hticked : ((w.moveAudio env).drainTick env).2.stock.Gauged := htick ▸ hflushed
    split
    · rename_i hover
      -- the drain is over: with a socket it closes, without one it is the end
      cases hconn : ((w.moveAudio env).drainTick env).2.session.connection with
      | some c =>
          rw [hangUp_some hconn]
          exact Or.inl hticked
      | none =>
          have hsame := congrArg Lifecycle.connection (lifecycle_drainTick env (w.moveAudio env))
          have hunheld : (w.moveAudio env).session.connection = none := hsame.symm.trans hconn
          rw [hangUp_none hconn]
          rw [flushToConnection_none hunheld] at htick
          exact Or.inr ⟨⟨hstate, connection_moveAudio.symm.trans hunheld, hover⟩,
            (ended_retire _).of_stock htick⟩
    · exact Or.inl hticked
  · exact Or.inl hmoved

end World

/-! ## Steps -/

/-- A flush during the step is cut short. -/
def cutShort (env : Env β) (w : World β S) (s : Step β) : Bool :=
  (pumpCalls env w s).any fun v =>
    World.flushes v.session.state && (v.moveAudio env).interrupted env

/-- The session as the step `s` finds it when it comes to finalize it. -/
def lastWorld (env : Env β) (w : World β S) : Step β → World β S
  | .pump => w.moveAudio env
  | _ => w

/-- A buffer still holds audio then. -/
def leftOver (env : Env β) (w : World β S) (s : Step β) : Bool :=
  !(lastWorld env w s).session.outbound.buffer.empty ||
    decide ((lastWorld env w s).session.playback.jitterSize ≠ 0)

section

variable {env : Env β} {w v : World β S} {s : Step β}

/-- Empty buffers may be cleared. -/
theorem World.Ended.gauged (h : World.Ended w v) (hgauge : w.stock.Gauged)
    (hbuffer : w.session.outbound.buffer.empty = true)
    (hjitter : w.session.playback.jitterSize = 0) : v.stock.Gauged := by
  rcases h.emptied with ⟨p, hstock⟩
  have hsize : w.session.outbound.buffer.size = 0 := by
    simpa [SendBuffer.empty, SendBuffer.size] using hbuffer
  have hpath : w.session.playback.bufferedBytes = 0 := hgauge.playback.trans hjitter
  rw [hstock]
  refine ⟨hgauge.outbound.trans hsize, hpath.trans ?_⟩
  unfold Playback.jitterSize Stock.emptied Inbound.emptied
  cases hplays : w.stock.inbound.playback.path with
  | none => rfl
  | some path => rfl

theorem teardownPumps_held (h : v ∈ w.teardownPumps env) : v.session.connection ≠ none := by
  unfold World.teardownPumps at h
  split at h
  · cases h
  · rename_i c hconn
    split at h
    · rw [List.mem_singleton.mp h]
      show w.session.connection ≠ none
      simp [hconn]
    · cases h

theorem handshakePumps_held (h : v ∈ w.handshakePumps env) : v.session.connection ≠ none := by
  unfold World.handshakePumps at h
  split at h
  · exact teardownPumps_held h
  · split at h
    · cases h
    · rename_i c hconn
      split at h
      · cases h
      · rename_i u hsend
        have hsent : u.session.connection = w.session.connection :=
          (congrArg (fun r => r.2.session.connection) hsend).symm
        have hkept : v.session.connection = u.session.connection := by
          rw [List.mem_singleton.mp h]
          exact congrArg Lifecycle.connection ((World.lifecycle_flushPendingTexts env _).trans
            (World.lifecycle_announce env u c))
        simp [hkept, hsent, hconn]

/-- Only the shard pumps a session without a socket. -/
theorem pumpCall_held (h : v ∈ pumpCalls env w s) :
    s = .pump ∧ v = w ∨ v.session.connection ≠ none := by
  unfold pumpCalls at h
  split at h
  · exact Or.inl ⟨rfl, List.mem_singleton.mp h⟩
  · split at h
    · exact Or.inr (teardownPumps_held h)
    · cases h
  · split at h
    · exact Or.inr (handshakePumps_held h)
    · cases h
  · split at h
    · exact Or.inr (teardownPumps_held h)
    · cases h
  · cases h

theorem gauged_step {onFinished : Bool} (hreach : w.lifecycle.Reachable onFinished)
    (hcontract : contract w s = true) (hcut : cutShort env w s = false)
    (hleft : (fatal env w s && leftOver env w s) = false) (h : w.stock.Gauged) :
    (step env w s).stock.Gauged := by
  have hempty : fatal env w s = true →
      (lastWorld env w s).session.outbound.buffer.empty = true ∧
        (lastWorld env w s).session.playback.jitterSize = 0 := by
    intro hfatal
    simpa [hfatal, leftOver] using hleft
  have hdeals := deals_step env w s
  generalize hstep : step env w s = v at hdeals ⊢
  cases hdeals with
  | leaves hstock => exact hstock ▸ h
  | @pumps _ u hcall =>
      have hu : u.stock.Gauged := (stock_pumpCall hcall).symm ▸ h
      rcases World.gauged_pump hu (by simpa using List.any_eq_false.mp hcut u hcall) with
        hgauged | ⟨⟨hstate, hconn, hover⟩, hended⟩
      · exact hgauged
      · -- a pump that finalizes found no socket, so it is the shard's own
        rcases pumpCall_held hcall with ⟨rfl, rfl⟩ | hheld
        · rcases hempty (by simp [fatal, hstate, hconn, hover]) with ⟨hbuffer, hjitter⟩
          exact hended.gauged (World.gauged_moveAudio h) hbuffer hjitter
        · exact absurd hconn hheld
  | @hears path c bytes hpath =>
      rcases World.receive_writes env w path bytes with ⟨_, _, _, -, hwrites⟩
      constructor
      · show (World.pumpPlayback _).session.outbound.Gauged
        rw [World.outbound_pumpPlayback, hwrites]
        exact h.outbound
      · rw [hwrites]
        exact World.gauged_pumpPlayback_some rfl
  | reads count => exact ⟨h.outbound, World.gauged_readPlayback count h.playback⟩
  | restarts sampleRate channels => exact ⟨h.outbound, h.playback⟩
  | @clears c text path _ hpath =>
      refine ⟨?_, World.gauged_handleClear w path⟩
      rcases World.handleClear_writes w path with ⟨_, _, hwrites⟩
      rw [hwrites]
      exact h.outbound
  | marks name hpath => exact ⟨h.outbound, World.gauged_handleMark hpath name h.playback⟩
  | ends hcalls halive hended =>
      -- nothing moved before the end, so the step finds the buffers as they were
      rcases dies hreach hcontract halive (hstep ▸ hended.dead) with ⟨hfatal, -⟩
      have hlast : lastWorld env w s = w := by
        cases s with
        | pump => cases hcalls
        | _ => rfl
      rcases hlast ▸ hempty hfatal with ⟨hbuffer, hjitter⟩
      exact hended.gauged h hbuffer hjitter

end

/-- In a run in which no flush is cut short after its first frame and no session is finalized with
audio in a buffer, `stats` reports what the buffers hold. -/
theorem gauges_tell_truth {env : Env β} {params : ForkParams} {tuning : Tuning} {onFinished : Bool}
    {supply : SlabSupply} {w₀ w : World β S}
    (hcreate : World.create params tuning onFinished supply = some w₀)
    (hrun : Run (step env)
      (fun v s => contract v s = true ∧ cutShort env v s = false ∧
        (fatal env v s && leftOver env v s) = false) w₀ w) :
    w.session.stats.bufferedBytes = w.session.outbound.buffer.size ∧
      w.session.stats.playbackBufferedBytes = w.session.playback.jitterSize := by
  have hgauged : w.stock.Gauged := by
    refine hrun.invariant_with (J := fun v => v.lifecycle.Reachable onFinished)
      (I := fun v => v.stock.Gauged) ?_ ?_ ?_
    · exact fun v hv => reachable_of_run hcreate (hv.mono fun _ _ h => h.1)
    · rcases World.create_spec hcreate with ⟨ring, path, rate, channels, -, -, hempty, rfl⟩
      refine ⟨rfl, ?_⟩
      cases path with
      | none => rfl
      | some p =>
          have hsize : p.jitter.size = 0 := by
            rw [JitterBuffer.size_eq, (hempty p rfl).1, List.length_nil]
          exact hsize.symm
    · rintro v s hreach hv ⟨hcontract, hcut, hleft⟩
      exact gauged_step hreach hcontract hcut hleft hv
  exact ⟨hgauged.outbound, hgauged.playback⟩

/-- A fork that needs two ticks to send and two pumps to play, and ends with both buffers empty. -/
theorem gauges_tell_truth_sample :
    let w := exec (step Sample.env) Sample.fork
      [.start, .onConnected 0, .pushAudio (List.replicate 12 7), .pump,
        .onBinary 0 (List.replicate 20 7), .readPlayback 16, .pump, .stop, .runPosted 0,
        .onClosed 0 false]
    w.session.state = .dead ∧
      w.session.stats.bufferedBytes = w.session.outbound.buffer.size ∧
      w.session.stats.playbackBufferedBytes = w.session.playback.jitterSize :=
  ⟨by decide +kernel, gauges_tell_truth Sample.create_fork (Run.of_exec (by decide +kernel))⟩

/-- A server that refuses the third frame it is offered. -/
def Sample.balkingEnv : Env UInt8 :=
  { Sample.env with accept := fun n k f => Sample.env.accept n k f && n != 2 }

/-- Eight bytes in two frames, of which the second is refused: four are left, and eight reported.  A
fork that is torn down while four bytes wait in its jitter buffer reports them for good. -/
theorem stale_gauges :
    let cut := exec (step Sample.balkingEnv) Sample.fork
      [.start, .onConnected 0, .pushAudio (List.replicate 8 7), .pump]
    let finalized := exec (step Sample.env) Sample.fork
      [.start, .onConnected 0, .onBinary 0 (List.replicate 20 7), .stop, .runPosted 0,
        .onClosed 0 false]
    (Run (step Sample.balkingEnv) (fun v s => contract v s = true) Sample.fork cut ∧
      cut.session.outbound.buffer.size = 4 ∧ cut.session.stats.bufferedBytes = 8) ∧
    Run (step Sample.env) (fun v s => contract v s = true) Sample.fork finalized ∧
      finalized.session.state = .dead ∧ finalized.session.playback.jitterSize = 0 ∧
      finalized.session.stats.playbackBufferedBytes = 4 :=
  ⟨⟨Run.of_exec (by decide +kernel), by decide +kernel, by decide +kernel⟩,
    Run.of_exec (by decide +kernel), by decide +kernel, by decide +kernel, by decide +kernel⟩

end Session
end AudioFork
