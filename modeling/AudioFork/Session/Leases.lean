import AudioFork.Session.Liveness
import AudioFork.Session.Moves

/-!
# Leases — a dead session and the slab pool

`Finalize` gives every slab back so that a reference left in a timer cannot pin memory.  It is not
the last word: a pump of a dead session still drains the handoff ring into the send buffer, and
inbound audio still reaches a jitter buffer that a mark has unmuted.  As long as no step takes audio
in after death (`intake`), a dead session holds no slab (`Audio.Released`).
-/

namespace AudioFork
namespace Session

open Buffers Protocol Lib

variable {β : Type} {S : ℕ+}

/-! ## Counting leases -/

namespace World

/-- The slabs leased to the send buffer. -/
def sendLeases (w : World β S) : Nat := w.session.outbound.buffer.queue.chunks.length

/-- The slabs leased to the playback buffer. -/
def playbackLeases (w : World β S) : Nat :=
  match w.session.playback.path with
  | none => 0
  | some path => path.jitter.queue.chunks.length

end World

/-- Once dead, neither buffer has a chunk. -/
def Audio.Released (a : Audio β S) : Prop :=
  a.dead = true →
    a.buffer.queue.chunks = [] ∧ ∀ path, a.path = some path → path.jitter.queue.chunks = []

/-! ## What works on empty buffers and leases nothing -/

theorem size_of_no_chunks {q : SlabQueue β} (hok : q.Ok S) (h : q.chunks = []) : q.size = 0 := by
  rw [hok.size_eq, SlabQueue.toList, h]
  rfl

theorem chunks_flush (accepts : Nat → Frame β → Bool) (c coalesceMaxBytes fuel sentThisTick : Nat)
    {f : Flush β S} (h : f.outbound.buffer.queue.chunks = []) :
    (Flush.loop accepts c coalesceMaxBytes fuel sentThisTick f).outbound.buffer.queue.chunks = [] := by
  have hempty : f.outbound.buffer.empty = true := by
    simp [SendBuffer.empty, size_of_no_chunks f.outbound.buffer.ok h]
  cases fuel with
  | zero => exact h
  | succ fuel =>
      unfold Flush.loop
      rw [if_neg (by simp [hempty])]
      exact h

theorem chunks_restoreCapIfDrained (tuning : Tuning) {o : Outbound β S} (p : SlabSupply)
    (h : o.buffer.queue.chunks = []) :
    (o.restoreCapIfDrained tuning p).1.buffer.queue.chunks = [] := by
  have hfits : o.buffer.size ≤ tuning.sendCapBytes := by
    rw [SendBuffer.size, size_of_no_chunks o.buffer.ok h]
    exact Nat.zero_le _
  unfold Outbound.restoreCapIfDrained
  split
  · exact h
  · rw [SendBuffer.setCap_of_fits p hfits]
    exact h

theorem transfer_no_chunks (handoffBytes fuel : Nat) {path : PlaybackPath β S} (p : SlabSupply)
    (h : path.jitter.queue.chunks = []) : path.transfer handoffBytes fuel p = (path, p) := by
  have hempty : path.jitter.empty = true := by
    simp [JitterBuffer.empty, size_of_no_chunks path.jitter.ok h]
  exact PlaybackPath.transfer_stuck fuel p (by simp [PlaybackPath.stuck, hempty])

namespace World

variable {env : Env β} {v w : World β S}

/-- With nothing in the ring, `DrainHandoffRing` leaves everything as it was. -/
theorem drainHandoffRing_idle (h : w.session.outbound.ring.bytes = []) :
    w.drainHandoffRing env = w := by
  have hsize : w.session.outbound.ring.size = 0 := by simp [SpscByteRing.size, h]
  unfold drainHandoffRing
  rw [hsize]
  rfl

/-! ## Moves -/

/-- Moves of the playback path that keep both the state and the send buffer. -/
theorem released_path (h : w.audio.Released) (hdead : v.audio.dead = w.audio.dead)
    (hbuffer : v.audio.buffer = w.audio.buffer)
    (hpath : w.audio.dead = true → ∀ q, v.audio.path = some q → q.jitter.queue.chunks = []) :
    v.audio.Released := by
  intro hd
  rw [hdead] at hd
  exact ⟨hbuffer ▸ (h hd).1, hpath hd⟩

theorem released_pumpPlayback (h : w.audio.Released) : w.pumpPlayback.audio.Released := by
  refine released_path h ?_ ?_ ?_ <;> rw [audio_pumpPlayback]
  intro hdead q hq
  rcases Option.map_eq_some_iff.mp hq with ⟨path, hpath, rfl⟩
  have hchunks := (h hdead).2 path hpath
  unfold pumped PlaybackPath.pumped
  rw [transfer_no_chunks _ _ _ hchunks]
  exact hchunks

/-- `Finalize` gives every slab back. -/
theorem released_retire : w.retire.audio.Released := by
  rw [audio_retire]
  intro _
  refine ⟨rfl, ?_⟩
  intro path hpath
  rcases Option.map_eq_some_iff.mp hpath with ⟨_, -, rfl⟩
  rfl

theorem released_move (hmove : Move env w v) (h : w.audio.Released) : v.audio.Released := by
  cases hmove with
  | quiet hsame => exact hsame ▸ h
  | drainHandoffRing hring =>
      -- the move is allowed in a dead session only when there is nothing in the ring
      by_cases hdead : w.session.state = .dead
      · rw [drainHandoffRing_idle (hring hdead)]
        exact h
      · intro hdead'
        exact absurd (by simpa [audio, drainHandoffRing] using hdead') hdead
  | flushToConnection =>
      unfold World.flushToConnection
      split
      · exact h
      · rename_i c _
        refine fun hdead => ⟨?_, (h hdead).2⟩
        exact chunks_flush (env.accepts w.port.conns c) c w.session.tuning.coalesceMaxBytes
          (w.session.outbound.buffer.size + 1) 0
          (f := { outbound := w.session.outbound, supply := w.supply, wire := w.port.wire })
          (h hdead).1
  | restoreCapIfDrained =>
      exact fun hdead => ⟨chunks_restoreCapIfDrained _ _ (h hdead).1, (h hdead).2⟩
  | retire => exact released_retire
  | pushAudio pcm =>
      unfold World.pushAudio
      split
      · rename_i hlive
        intro hdead
        have hstate : w.session.state = .dead := by simpa [audio] using hdead
        rw [hstate] at hlive
        cases hlive
      · exact h
  | onBinary _ hpath hmuted =>
      rename_i path bytes _
      refine released_pumpPlayback (released_path h ?_ ?_ ?_) <;> rw [audio_receive]
      intro hdead q hq
      have hstate : w.session.state = .dead := by simpa [audio] using hdead
      cases hq
      -- a muted jitter buffer discards what it is given
      rw [JitterBuffer.append_muted env.others w.supply bytes (hmuted hstate)]
      exact (h hdead).2 path hpath
  | pumpPlayback => exact released_pumpPlayback h
  | handleClear hpath =>
      refine released_path h ?_ ?_ ?_ <;> rw [audio_handleClear]
      intro _ q hq
      cases hq
      rfl
  | handleMark name hpath =>
      refine released_path h rfl rfl ?_
      intro hdead q hq
      cases hq
      rw [JitterBuffer.queue_addMark]
      exact (h hdead).2 _ hpath
  | readPlayback count =>
      refine released_path h rfl rfl ?_
      intro hdead q hq
      rcases Playback.read_jitter hq with ⟨path, hpath, hjitter⟩
      rw [hjitter]
      exact (h hdead).2 path hpath

end World

/-! ## Whole runs -/

theorem released_of_run {env : Env β} {params : ForkParams} {tuning : Tuning} {onFinished : Bool}
    {supply : SlabSupply} {w₀ w : World β S}
    (hcreate : World.create params tuning onFinished supply = some w₀)
    (hrun : Run (step env) (fun v s => intake v s = false) w₀ w) : w.audio.Released := by
  refine hrun.invariant (I := fun v => v.audio.Released) ?_ ?_
  · rcases World.create_spec hcreate with ⟨ring, path, rate, channels, -, -, -, rfl⟩
    intro hdead
    cases hdead
  · intro v s hv hquiet
    exact (moves_step env hquiet).preserves (fun _ _ hmove => World.released_move hmove) hv

/-- In a run whose steps bring no audio into a dead session, a dead session holds no slab lease. -/
theorem dead_holds_no_slab {env : Env β} {params : ForkParams} {tuning : Tuning} {onFinished : Bool}
    {supply : SlabSupply} {w₀ w : World β S}
    (hcreate : World.create params tuning onFinished supply = some w₀)
    (hrun : Run (step env) (fun v s => intake v s = false) w₀ w)
    (hdead : w.session.state = .dead) : w.sendLeases = 0 ∧ w.playbackLeases = 0 := by
  have hreleased : w.audio.Released := released_of_run hcreate hrun
  rcases hreleased (by simp [World.audio, hdead]) with ⟨hbuffer, hpath⟩
  refine ⟨List.length_eq_zero_iff.mpr hbuffer, ?_⟩
  unfold World.playbackLeases
  split
  · rfl
  · rename_i path hsome
    exact List.length_eq_zero_iff.mpr (hpath path hsome)

/-- A session that streamed, played, drained and died, then was pumped and sent a mark. -/
theorem dead_holds_no_slab_sample :
    let w := exec (step Sample.env) Sample.fork
      [.start, .onConnected 0, .pushAudio [1, 2, 3], .onBinary 0 [7, 8, 9], .stop, .runPosted 0,
        .onClosed 0 false, .pump, .onText 0 Sample.markText, .pump]
    w.session.state = .dead ∧ w.sendLeases = 0 ∧ w.playbackLeases = 0 :=
  ⟨by decide +kernel,
    dead_holds_no_slab Sample.create_fork (Run.of_exec (by decide +kernel)) (by decide +kernel)⟩

/-- Audio accepted before the teardown waits in the handoff ring; the pump that follows death moves
it into the send buffer. -/
theorem dead_pump_leases_slab :
    let w := exec (step Sample.env) Sample.fork
      [.start, .pushAudio [1, 2], .stop, .runPosted 0, .onClosed 0 false, .pump]
    Run (step Sample.env) (fun v s => contract v s = true) Sample.fork w ∧
      w.session.state = .dead ∧ w.sendLeases = 1 :=
  ⟨Run.of_exec (by decide +kernel), by decide +kernel, by decide +kernel⟩

end Session
end AudioFork
