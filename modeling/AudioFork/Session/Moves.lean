import Mathlib.Logic.Relation
import AudioFork.Session.Refinement

/-!
# Moves — what a step does to audio

A step of a session runs through many functions, few of which touch audio.  `Move` lists those that
do; everything else is `quiet`: it leaves `World.audio` alone.  Every step is a sequence of moves
(`moves_step`), so a property of the audio paths is an invariant of runs as soon as it survives each
move.

A dead session should take no audio in.  `intake` says when a step makes it do so; the two moves
that bring audio into a buffer ask for a session that is not dead or for nothing to come in.
-/

namespace AudioFork
namespace Session

open Buffers Protocol Lib

variable {β : Type} {S : ℕ+}

/-- The audio in an offer that was accepted. -/
def audioOf (o : Offer β) : List β :=
  match o.accepted, o.frame with
  | true, .audio bytes => bytes
  | _, _ => []

/-- The bytes accepted by `SendBinary`, over all connections in time order. -/
def sentAudio (wire : List (Offer β)) : List β := wire.flatMap audioOf

@[simp] theorem sentAudio_append (wire offers : List (Offer β)) :
    sentAudio (wire ++ offers) = sentAudio wire ++ sentAudio offers :=
  List.flatMap_append

/-- Both audio paths, with the history of the outbound one. -/
structure Audio (β : Type) (S : ℕ+) where
  dead : Bool
  tuning : Tuning
  ring : SpscByteRing β
  buffer : SendBuffer β S
  pausedBytes : Nat
  mediaDroppedBytes : Nat
  bufferDroppedBytes : Nat
  sentBytes : Nat
  path : Option (PlaybackPath β S)
  generation : Nat
  mediaGeneration : Nat
  sent : List β
  offered : Nat
  handed : List β

namespace World

def audio (w : World β S) : Audio β S :=
  { dead := w.session.state == .dead
    tuning := w.session.tuning
    ring := w.session.outbound.ring
    buffer := w.session.outbound.buffer
    pausedBytes := w.session.outbound.pausedBytes
    mediaDroppedBytes := w.session.outbound.mediaDroppedBytes
    bufferDroppedBytes := w.session.outbound.bufferDroppedBytes
    sentBytes := w.session.outbound.sentBytes
    path := w.session.playback.path
    generation := w.session.playback.generation
    mediaGeneration := w.session.playback.mediaGeneration
    sent := sentAudio w.port.wire
    offered := w.offered
    handed := w.handed }

/-! ## Quiet functions -/

section Quiet

variable (env : Env β) (w : World β S)

/-- Only audio frames count. -/
theorem audio_offers {offers : List (Offer β)} (h : ∀ o ∈ offers, ∀ bytes, o.frame ≠ .audio bytes) :
    { w.audio with sent := sentAudio (w.port.wire ++ offers) } = w.audio := by
  have hquiet : sentAudio offers = [] := by
    refine List.flatMap_eq_nil_iff.mpr ?_
    intro o ho
    unfold audioOf
    split
    · rename_i bytes _ hframe
      exact absurd hframe (h o ho bytes)
    · rfl
  rw [sentAudio_append, hquiet, List.append_nil]
  rfl

theorem audio_send (c : Nat) {f : Frame β} (hf : ∀ bytes, f ≠ .audio bytes) :
    (w.send env c f).2.audio = w.audio :=
  audio_offers w (by simpa using hf)

theorem audio_flushPendingTexts : (w.flushPendingTexts env).audio = w.audio := by
  rcases flushPendingTexts_writes env w with ⟨_, offers, hoffers, hwrites⟩
  rw [hwrites]
  refine audio_offers w ?_
  intro o ho bytes
  rcases (hoffers o ho).2 with ⟨text, hframe⟩
  simp [hframe]

theorem audio_announce (c : Nat) : (w.announce env c).audio = w.audio := by
  rcases announce_writes env w c with ⟨_, _, _, _, offers, _, hoffers, -, hwrites⟩
  rw [hwrites]
  refine audio_offers w ?_
  intro o ho bytes
  rcases (hoffers o ho).2 with ⟨payload, hframe⟩
  simp [hframe]

theorem audio_noteClosed (connectFailed : Bool) : (w.noteClosed env connectFailed).audio = w.audio := by
  rcases noteClosed_writes env w connectFailed with ⟨since, clockReads, events, -, hwrites⟩
  rw [hwrites]
  rfl

theorem audio_noteRefused : w.noteRefused.audio = w.audio := by
  rcases noteRefused_writes w with ⟨events, -, hwrites⟩
  rw [hwrites]
  rfl

theorem audio_drainExpired : (w.drainExpired env).2.audio = w.audio := by
  rcases drainExpired_writes env w with ⟨_, hwrites⟩
  rw [hwrites]
  rfl

theorem audio_sayBye (drained : Bool) : (w.sayBye env drained).audio = w.audio := by
  rcases sayBye_writes env w drained with ⟨_, offers, hoffers, hwrites⟩
  rw [hwrites]
  refine audio_offers w ?_
  intro o ho bytes
  simp [(hoffers o ho).2]

theorem audio_abandonSocket : w.abandonSocket.audio = w.audio := by
  rcases abandonSocket_writes w with ⟨_, -, hwrites⟩
  rw [hwrites]
  rfl

theorem audio_applyModify (endpoint : Endpoint) : (w.applyModify env endpoint).audio = w.audio := by
  rcases applyModify_writes env w endpoint with ⟨_, _, _, _, offers, hoffers, hwrites⟩
  rw [hwrites]
  refine audio_offers w ?_
  intro o ho bytes
  simp [hoffers o ho]

theorem audio_deliverText (text : Text) : (w.deliverText env text).audio = w.audio := by
  rcases deliverText_writes env w text with ⟨_, _, offers, hoffers, hwrites⟩
  rw [hwrites]
  refine audio_offers w ?_
  intro o ho bytes
  rcases (hoffers o ho).2.2 with ⟨text, hframe⟩
  simp [hframe]

theorem audio_unsupported (detail : Text) : (w.unsupported detail).audio = w.audio := by
  rcases unsupported_writes w detail with ⟨events, -, hwrites⟩
  rw [hwrites]
  rfl

/-- A change of state is quiet as long as neither state is `dead`. -/
theorem audio_alive {v w : World β S}
    (h : { v.audio with dead := false } = { w.audio with dead := false })
    (hv : v.session.state ≠ .dead) (hw : w.session.state ≠ .dead) : v.audio = w.audio := by
  have hv' : v.audio.dead = false := by simpa [audio] using hv
  have hw' : w.audio.dead = false := by simpa [audio] using hw
  calc v.audio = { v.audio with dead := false } := by rw [← hv']
    _ = { w.audio with dead := false } := h
    _ = w.audio := by rw [← hw']

end Quiet

/-! ## Functions of the playback path -/

section Playback

variable {env : Env β} {w : World β S}

theorem audio_receive (path : PlaybackPath β S) (bytes : List β) :
    (w.receive env path bytes).audio =
      { w.audio with
        path := some { path with jitter := (path.jitter.append env.others w.supply bytes).2.1 } } := by
  rcases receive_writes env w path bytes with ⟨dropped, started, events, -, hwrites⟩
  rw [hwrites]
  rfl

theorem audio_handleClear (path : PlaybackPath β S) :
    (w.handleClear path).audio =
      { w.audio with
        path := some { path with jitter := (path.jitter.clear w.supply).1 }
        generation := w.session.playback.generation + 1 } := by
  rcases handleClear_writes w path with ⟨paused, pauses, hwrites⟩
  rw [hwrites]
  rfl

theorem audio_pumpPlayback :
    w.pumpPlayback.audio =
      { w.audio with path := w.session.playback.path.map fun path => (w.pumped path).1 } := by
  cases hpath : w.session.playback.path with
  | none =>
      rw [pumpPlayback_none hpath]
      exact congrArg (fun path => { w.audio with path := path }) hpath
  | some path =>
      rcases pumpPlayback_writes hpath with ⟨_, _, _, _, hwrites⟩
      rw [hwrites]
      rfl

theorem supply_pumpPlayback {path : PlaybackPath β S} (hpath : w.session.playback.path = some path) :
    w.pumpPlayback.supply = (w.pumped path).2 := by
  rcases pumpPlayback_writes hpath with ⟨_, _, _, _, hwrites⟩
  rw [hwrites]

/-- `Finalize` empties both buffers. -/
theorem audio_retire :
    w.retire.audio =
      { w.audio with
        dead := true
        buffer := (w.session.outbound.buffer.clear w.supply).1
        path := w.session.playback.path.map fun path =>
          { path with jitter := (path.jitter.clear w.supply).1 } } := by
  rcases finalize_writes { w with session.state := .dead } with
    ⟨supply, events, -, hwrites⟩
  unfold retire
  rw [hwrites]
  rfl

end Playback

/-! ## Moves -/

inductive Move (env : Env β) : World β S → World β S → Prop
  | quiet {w v : World β S} (h : v.audio = w.audio) : Move env w v
  | drainHandoffRing {w : World β S}
      (h : w.session.state = .dead → w.session.outbound.ring.bytes = []) :
      Move env w (w.drainHandoffRing env)
  | flushToConnection {w : World β S} : Move env w (w.flushToConnection env)
  | restoreCapIfDrained {w : World β S} : Move env w w.restoreCapIfDrained
  | retire {w : World β S} : Move env w w.retire
  | pushAudio {w : World β S} (pcm : List β) : Move env w (w.pushAudio pcm)
  | onBinary {w : World β S} {path : PlaybackPath β S} {bytes : List β} (hbytes : bytes ≠ [])
      (hpath : w.session.playback.path = some path)
      (h : w.session.state = .dead → path.jitter.muted = true) :
      Move env w (w.receive env path bytes).pumpPlayback
  | pumpPlayback {w : World β S} : Move env w w.pumpPlayback
  | handleClear {w : World β S} {path : PlaybackPath β S}
      (hpath : w.session.playback.path = some path) : Move env w (w.handleClear path)
  | handleMark {w : World β S} {path : PlaybackPath β S} (name : Text)
      (hpath : w.session.playback.path = some path) : Move env w (w.handleMark path name)
  | readPlayback {w : World β S} (count : Nat) : Move env w (w.readPlayback count)

theorem dead_iff (w : World β S) : w.audio.dead = true ↔ w.session.state = .dead := by
  simp [audio]

/-- No move brings a session back. -/
theorem Move.dead {env : Env β} {v w : World β S} (hmove : Move env w v)
    (h : w.session.state = .dead) : v.session.state = .dead := by
  rw [← dead_iff] at h ⊢
  cases hmove with
  | quiet hsame => rwa [hsame]
  | flushToConnection =>
      unfold World.flushToConnection
      split <;> exact h
  | retire => rw [audio_retire]
  | pushAudio pcm =>
      unfold World.pushAudio
      split <;> exact h
  | onBinary _ _ _ =>
      rw [audio_pumpPlayback, audio_receive]
      exact h
  | pumpPlayback =>
      rw [audio_pumpPlayback]
      exact h
  | handleClear _ =>
      rw [audio_handleClear]
      exact h
  | _ => exact h

/-- Finitely many moves. -/
def Moves (env : Env β) : World β S → World β S → Prop := Relation.ReflTransGen (Move env)

namespace Moves

variable {env : Env β} {u v w : World β S}

theorem one (h : Move env w v) : Moves env w v := Relation.ReflTransGen.single h

theorem quiet (h : v.audio = w.audio) : Moves env w v := one (.quiet h)

theorem trans (h : Moves env w v) (h' : Moves env v u) : Moves env w u :=
  Relation.ReflTransGen.trans h h'

/-- Moves made after a quiet change. -/
theorem after (h' : Moves env v u) (h : v.audio = w.audio) : Moves env w u :=
  (quiet h).trans h'

/-- What every move preserves, a sequence of moves preserves. -/
theorem preserves {I : World β S → Prop} (h : Moves env w v)
    (hmove : ∀ a b, Move env a b → I a → I b) (hw : I w) : I v := by
  induction h with
  | refl => exact hw
  | tail _ hlast ih => exact hmove _ _ hlast ih

end Moves

section

variable (env : Env β) {w : World β S}

theorem moves_retry (h : w.session.state ≠ .dead) : Moves env w w.retry :=
  .quiet (audio_alive rfl (by simp [retry, scheduleRetry, emit]) h)

theorem moves_hangUp (h : w.session.state ≠ .dead) : Moves env w w.hangUp := by
  refine hangUp_ends (P := Moves env w) (.one .retire) ?_
  intro c
  exact .quiet (audio_alive rfl (by simp [close]) h)

theorem moves_lose : Moves env w w.lose := by
  unfold lose
  split <;> rename_i hstate
  · exact moves_retry env (by simp [hstate])
  · exact moves_retry env (by simp [hstate])
  · exact moves_hangUp env (by simp [hstate])
  · exact .one .retire
  · exact .quiet rfl
  · exact .quiet rfl

theorem moves_moveAudio (h : w.session.state = .dead → w.session.outbound.ring.bytes = []) :
    Moves env w (w.moveAudio env) :=
  (Moves.one (.drainHandoffRing h)).trans (.one .pumpPlayback)

theorem moves_drainTick : Moves env w (w.drainTick env).2 := by
  unfold drainTick
  simp only
  refine (Moves.one .flushToConnection).trans (.quiet ?_)
  exact (audio_sayBye env _ _).trans (audio_drainExpired env _)

theorem moves_pump (h : w.session.state = .dead → w.session.outbound.ring.bytes = []) :
    Moves env w (w.pump env) := by
  have hmove := moves_moveAudio env h
  rw [pump_eq]
  split
  · exact hmove.trans ((Moves.one .flushToConnection).trans (.one .restoreCapIfDrained))
  · rename_i hstate
    have htick : Moves env w ((w.moveAudio env).drainTick env).2 :=
      hmove.trans (moves_drainTick env)
    split
    · refine htick.trans (moves_hangUp env ?_)
      have hsame : ((w.moveAudio env).drainTick env).2.session.state = w.session.state :=
        congrArg Lifecycle.state ((lifecycle_drainTick env _).trans (lifecycle_moveAudio env w))
      rw [hsame, hstate]
      decide
    · exact htick
  · exact hmove

theorem moves_drain (h : w.session.state ≠ .dead) : Moves env w (w.drain env) := by
  have hstart : Moves env w (w.startDrain env) :=
    .quiet (audio_alive rfl (by simp [startDrain]) h)
  unfold drain
  split
  · exact hstart.trans (.one .retire)
  · refine hstart.trans (moves_pump env ?_)
    intro hdead
    cases hdead

theorem moves_teardown : Moves env w (w.teardown env) := by
  unfold teardown
  split <;> rename_i hstate
  · exact moves_hangUp env (by simp [hstate])
  · exact moves_drain env (by simp [hstate])
  · exact .one .retire
  · exact .quiet rfl
  · exact .quiet rfl
  · exact .quiet rfl

theorem moves_connect : Moves env w (w.connect env) := by
  have hrefused : ∀ v : World β S, Moves env v v.noteRefused.lose :=
    fun v => (moves_lose env).after (audio_noteRefused v)
  unfold connect
  simp only
  split
  · exact .quiet rfl
  · exact (hrefused _).after rfl
  · refine Moves.after ((moves_lose env).trans (hrefused _)) ?_
    exact audio_noteClosed env _ _

theorem moves_notifyConnected (h : w.session.state = .active) :
    Moves env w (w.notifyConnected env) := by
  have hfail : ∀ v : World β S, v.audio = w.audio →
      Moves env w (v.emit .error (ascii "hello could not be sent")).lose :=
    fun v hv => (moves_lose env).after hv
  cases hhello : w.hello env with
  | none =>
      rw [notifyConnected_invalid env hhello]
      exact (moves_teardown env).after rfl
  | some hello =>
      cases hconn : w.session.connection with
      | none =>
          rw [notifyConnected_unheld env hhello hconn]
          exact hfail w rfl
      | some c =>
          have hsent : (w.send env c (.hello hello)).2.audio = w.audio :=
            audio_send env w c (by simp)
          cases hsend : (w.send env c (.hello hello)).1 with
          | false =>
              rw [notifyConnected_refused env hhello hconn hsend]
              exact hfail _ hsent
          | true =>
              rw [notifyConnected_greeted env hhello hconn hsend]
              have hgreet : (((w.send env c (.hello hello)).2.announce env c).flushPendingTexts
                  env).audio = w.audio :=
                (audio_flushPendingTexts env _).trans ((audio_announce env _ c).trans hsent)
              refine (moves_pump env ?_).after hgreet
              -- the greeting left the session active
              intro hdead
              have hsame := congrArg Audio.dead hgreet
              simp [audio, hdead, h] at hsame

theorem moves_onConnected : Moves env w (w.onConnected env) := by
  by_cases hstate : w.session.state = .connecting
  · rw [onConnected_connecting env hstate]
    have hactive : Moves env w { w with session.state := .active } :=
      .quiet (audio_alive rfl (by simp) (by simp [hstate]))
    exact hactive.trans (moves_notifyConnected env rfl)
  · rw [onConnected_late env hstate]
    exact .quiet (audio_abandonSocket w)

theorem moves_onClosed (connectFailed : Bool) : Moves env w (w.onClosed env connectFailed) := by
  rw [onClosed_eq]
  exact (moves_lose env).after (audio_noteClosed env w connectFailed)

theorem moves_playbackControl {control : PlaybackPath β S → World β S → World β S}
    (h : ∀ path, w.session.playback.path = some path → Moves env w (control path w)) :
    Moves env w (w.playbackControl control) := by
  unfold playbackControl
  split
  · exact .quiet (audio_unsupported w _)
  · rename_i path hpath
    exact h path hpath

theorem moves_onText (text : Text) : Moves env w (w.onText env text) := by
  unfold onText
  split
  · rw [fire_teardown]
    exact (moves_teardown env).after rfl
  · exact .quiet rfl
  · exact .quiet rfl
  · exact moves_playbackControl env fun _ _ => .quiet rfl
  · exact moves_playbackControl env fun _ hpath => .one (.handleClear hpath)
  · exact moves_playbackControl env fun _ hpath => .one (.handleMark _ hpath)

theorem moves_runTask (task : Task) : Moves env w (w.runTask env task) := by
  cases task with
  | teardown =>
      show Moves env w (fire env .teardown w)
      rw [fire_teardown]
      exact moves_teardown env
  | deliverText text => exact .quiet (audio_deliverText env w text)
  | applyModify endpoint => exact .quiet (audio_applyModify env w endpoint)

end

end World

/-- A dead session takes audio in: a pump that finds audio in the handoff ring, or inbound audio
while playback is not muted. -/
def intake (w : World β S) : Step β → Bool
  | .pump => w.session.state == .dead && !w.session.outbound.ring.bytes.isEmpty
  | .onBinary _ bytes => w.session.state == .dead && !bytes.isEmpty &&
      w.session.playback.path.any fun path => !path.jitter.muted
  | _ => false

theorem intake_alive {w : World β S} (h : w.session.state ≠ .dead) (s : Step β) :
    intake w s = false := by
  cases s <;> simp [intake, h]

/-- Every step that brings no audio into a dead session is a sequence of moves. -/
theorem moves_step (env : Env β) {w : World β S} {s : Step β} (h : intake w s = false) :
    w.Moves env (step env w s) := by
  cases s with
  | start =>
      show World.Moves env w (World.beginConnectWith _ env { w with started := true })
      rw [World.beginConnect_eq]
      exact (World.moves_connect env).after rfl
  | pump =>
      refine World.moves_pump env ?_
      intro hdead
      simpa [intake, hdead] using h
  | stop | sendText _ | sendDtmf _ _ | modify _ => exact step_posts rfl fun _ => .quiet rfl
  | runPosted i =>
      cases htask : w.port.posted[i]? with
      | none =>
          rw [step_runPosted_none env htask]
          exact .quiet rfl
      | some task =>
          rw [step_runPosted_some env htask]
          exact (World.moves_runTask env task).after rfl
  | retryTimer =>
      show World.Moves env w (w.takeTimer.fire env .retryTimerFired)
      have htimer : World.Moves env w w.takeTimer := .quiet rfl
      by_cases hstate : w.takeTimer.session.state = .reconnecting
      · rw [World.fire_retryTimerFired env hstate]
        have hconnecting : World.Moves env w { w.takeTimer with session.state := .connecting } :=
          .quiet (World.audio_alive rfl (by simp) (by
            have hsame : w.session.state = .reconnecting := hstate
            simp [hsame]))
        exact hconnecting.trans (World.moves_connect env)
      · rw [World.fire_retryTimerFired_stale env hstate]
        exact htimer
  | onConnected c =>
      exact (World.moves_onConnected (w := w.markConnected c) env).after rfl
  | onText c text => exact World.moves_onText env text
  | onBinary c bytes =>
      show World.Moves env w (w.onBinary env bytes)
      unfold World.onBinary
      split
      · exact .quiet rfl
      · rename_i hbytes
        split
        · exact .quiet (World.audio_unsupported w _)
        · rename_i path hpath
          refine World.Moves.one (.onBinary (by simpa using hbytes) hpath ?_)
          intro hdead
          simpa [intake, hdead, hpath, hbytes] using h
  | onClosed c connectFailed =>
      exact (World.moves_onClosed (w := w.markClosed c) env connectFailed).after rfl
  | pushAudio pcm => exact .one (.pushAudio pcm)
  | setPaused paused => exact .quiet rfl
  | readPlayback count => exact .one (.readPlayback count)

end Session
end AudioFork
