import AudioFork.Session.Effects
import AudioFork.Session.Lifecycle

/-!
# Refinement — a session runs its lifecycle

`World.lifecycle` forgets audio, texts and playback.  Every step of a session is, under this view, a
step of the abstract machine: the one with the label that `label` reads off the world before the
step (`lifecycle_step`).  Whatever is proved about lifecycles therefore holds of sessions
(`lifecycle_run`).
-/

namespace AudioFork
namespace Session

open Buffers Protocol Lib

variable {β : Type} {S : ℕ+}

/-- The number of stop events in an event log. -/
def stops (events : List ForkEvent) : Nat := events.countP fun e => e.type = .stop

@[simp] theorem stops_nil : stops [] = 0 := rfl

@[simp] theorem stops_cons (e : ForkEvent) (es : List ForkEvent) :
    stops (e :: es) = stops es + if e.type = .stop then 1 else 0 := by
  simp [stops, List.countP_cons]

@[simp] theorem stops_append (es fs : List ForkEvent) : stops (es ++ fs) = stops es + stops fs :=
  List.countP_append

theorem stops_eq_zero {es : List ForkEvent} (h : ∀ e ∈ es, e.type ≠ .stop) : stops es = 0 := by
  simpa [stops, List.countP_eq_zero] using h

def World.lifecycle (w : World β S) : Lifecycle :=
  { started := w.started
    state := w.session.state
    connection := w.session.connection
    conns := w.port.conns
    timers := w.port.timers
    drainDeadline := w.session.drainDeadline
    stops := stops w.events
    finishedRuns := w.finishedRuns
    onFinished := w.session.onFinished }

theorem World.lifecycle_state (w : World β S) : w.lifecycle.state = w.session.state := rfl

theorem World.lifecycle_connection (w : World β S) :
    w.lifecycle.connection = w.session.connection := rfl

/-- Reporting anything but a stop leaves no trace. -/
theorem World.lifecycle_report (w : World β S) {es : List ForkEvent}
    (h : ∀ e ∈ es, e.type ≠ .stop) :
    { w.lifecycle with stops := stops (w.events ++ es) } = w.lifecycle := by
  rw [stops_append, stops_eq_zero h]
  rfl

/-! ## The audio paths do not touch it -/

namespace World

variable (env : Env β) (w : World β S)

theorem lifecycle_drainHandoffRing : (w.drainHandoffRing env).lifecycle = w.lifecycle := by
  rcases drainHandoffRing_writes env w with ⟨_, _, _, _, _, _, _, _, events, hevents, hwrites⟩
  rw [hwrites]
  refine lifecycle_report w ?_
  intro e he
  rcases hevents e he with htype | htype <;> simp [htype]

theorem lifecycle_pumpPlayback : w.pumpPlayback.lifecycle = w.lifecycle := by
  rcases pumpPlayback_local w with ⟨_, _, _, names, hwrites⟩
  rw [hwrites]
  refine lifecycle_report w ?_
  simp [forkEvent]

theorem lifecycle_flushToConnection : (w.flushToConnection env).lifecycle = w.lifecycle := by
  rcases flushToConnection_writes env w with ⟨_, _, _, _, _, -, hwrites⟩
  rw [hwrites]
  rfl

theorem lifecycle_restoreCapIfDrained : w.restoreCapIfDrained.lifecycle = w.lifecycle := rfl

theorem lifecycle_send (c : Nat) (f : Frame β) : (w.send env c f).2.lifecycle = w.lifecycle := rfl

theorem lifecycle_emit {type : ForkEventType} (detail : Text) (h : type ≠ .stop) :
    (w.emit type detail).lifecycle = w.lifecycle :=
  lifecycle_report w (by simpa [forkEvent] using h)

theorem lifecycle_drainTick : (w.drainTick env).2.lifecycle = w.lifecycle := by
  rcases drainTick_writes env w with ⟨_, _, _, _, _, _, _, _, -, -, hwrites⟩
  rw [hwrites]
  rfl

/-- Everything a pump does before it looks at the state. -/
def moveAudio : World β S := (w.drainHandoffRing env).pumpPlayback

theorem lifecycle_moveAudio : (w.moveAudio env).lifecycle = w.lifecycle := by
  unfold moveAudio
  rw [lifecycle_pumpPlayback, lifecycle_drainHandoffRing]

/-- Whether the drain is over with this pump. -/
def drainOver : Bool := ((w.moveAudio env).drainTick env).1

theorem pump_eq :
    w.pump env =
      match w.session.state with
      | .active => ((w.moveAudio env).flushToConnection env).restoreCapIfDrained
      | .draining =>
          if w.drainOver env then
            ((w.moveAudio env).drainTick env).2.hangUp
          else
            ((w.moveAudio env).drainTick env).2
      | _ => w.moveAudio env := by
  have hmove : (w.drainHandoffRing env).pumpPlayback.session.state = w.session.state :=
    congrArg Lifecycle.state (lifecycle_moveAudio env w)
  have htick : ((w.moveAudio env).drainTick env).2.session.state = w.session.state :=
    (congrArg Lifecycle.state (lifecycle_drainTick env (w.moveAudio env))).trans hmove
  unfold pump pumpWith
  -- moving audio leaves the state alone, so both sides branch on the same one
  simp only [hmove]
  cases hstate : w.session.state with
  | draining =>
      rw [hstate] at htick
      unfold drainOver
      simp only
      unfold moveAudio at htick ⊢
      generalize drainTick env (w.drainHandoffRing env).pumpPlayback = r at htick ⊢
      rcases r with ⟨finished, v⟩
      cases finished with
      | true => exact fire_drainComplete env htick
      | false => rfl
  | connecting => rfl
  | active => rfl
  | reconnecting => rfl
  | closing => rfl
  | dead => rfl

/-! ## Outcomes -/

theorem lifecycle_finalize :
    w.finalize.lifecycle =
      { w.lifecycle with
        connection := none
        stops := w.lifecycle.stops + 1
        finishedRuns :=
          if w.lifecycle.onFinished then w.lifecycle.finishedRuns + 1 else w.lifecycle.finishedRuns
        onFinished := false } := by
  rcases finalize_writes w with ⟨supply, events, hevents, hwrites⟩
  have hquiet : stops events = 0 := by
    refine stops_eq_zero ?_
    intro e he
    rw [hevents e he]
    decide
  have hstops : stops (w.events ++ events ++ [forkEvent w.session.params .stop []]) =
      stops w.events + 1 := by
    simp [hquiet, forkEvent]
  rw [hwrites]
  simp only [lifecycle, hstops]
  rfl

theorem lifecycle_retire : w.retire.lifecycle = w.lifecycle.retire := by
  unfold retire
  rw [lifecycle_finalize]
  rfl

theorem lifecycle_retry : w.retry.lifecycle = w.lifecycle.retry := by
  simp [retry, scheduleRetry, emit, forkEvent, lifecycle, Lifecycle.retry]

theorem lifecycle_hangUp : w.hangUp.lifecycle = w.lifecycle.hangUp := by
  unfold hangUp Lifecycle.hangUp
  rw [lifecycle_connection]
  cases w.session.connection with
  | none => exact lifecycle_retire w
  | some c => rfl

theorem lifecycle_abandonSocket : w.abandonSocket.lifecycle = w.lifecycle.abandonSocket := by
  unfold abandonSocket Lifecycle.abandonSocket
  rw [lifecycle_connection]
  cases w.session.connection with
  | none => rfl
  | some c => rfl

theorem lifecycle_lose : w.lose.lifecycle = w.lifecycle.lose := by
  unfold lose Lifecycle.lose
  rw [lifecycle_state]
  cases w.session.state with
  | connecting => exact lifecycle_retry w
  | active => exact lifecycle_retry w
  | reconnecting => rfl
  | draining => exact lifecycle_hangUp w
  | closing => exact lifecycle_retire w
  | dead => rfl

theorem lifecycle_pump : (w.pump env).lifecycle = w.lifecycle.tick (w.drainOver env) := by
  rw [pump_eq]
  unfold Lifecycle.tick
  rw [lifecycle_state]
  have htick : ((w.moveAudio env).drainTick env).2.lifecycle = w.lifecycle := by
    rw [lifecycle_drainTick, lifecycle_moveAudio]
  cases w.session.state with
  | draining =>
      simp only
      split
      · rw [lifecycle_hangUp, htick]
      · exact htick
  | active =>
      show ((w.moveAudio env).flushToConnection env).restoreCapIfDrained.lifecycle = w.lifecycle
      rw [lifecycle_restoreCapIfDrained, lifecycle_flushToConnection, lifecycle_moveAudio]
  | _ => exact lifecycle_moveAudio env w

/-- The deadline of a drain that starts now. -/
def deadline : Nat := env.now w.port.clockReads + w.session.tuning.drainTimeout * nanosPerMilli

theorem lifecycle_drain :
    (w.drain env).lifecycle =
      w.lifecycle.drain (w.deadline env) ((w.startDrain env).drainOver env) := by
  have hstart : { w.lifecycle with state := .draining, drainDeadline := some (w.deadline env) } =
      (w.startDrain env).lifecycle := rfl
  have hconnection : (w.startDrain env).lifecycle.connection = w.session.connection := rfl
  unfold drain Lifecycle.drain
  rw [hstart]
  simp only
  rw [hconnection]
  cases w.session.connection with
  | none => exact lifecycle_retire _
  | some c => exact lifecycle_pump env _

theorem lifecycle_teardown :
    (w.teardown env).lifecycle =
      w.lifecycle.teardown (w.deadline env) ((w.startDrain env).drainOver env) := by
  unfold teardown Lifecycle.teardown
  rw [lifecycle_state]
  cases w.session.state with
  | connecting => exact lifecycle_hangUp w
  | active => exact lifecycle_drain env w
  | reconnecting => exact lifecycle_retire w
  | draining => rfl
  | closing => rfl
  | dead => rfl

/-! ## Sockets -/

theorem lifecycle_noteClosed (connectFailed : Bool) :
    (w.noteClosed env connectFailed).lifecycle = { w.lifecycle with connection := none } := by
  rcases noteClosed_writes env w connectFailed with ⟨since, clockReads, events, hevents, hwrites⟩
  rw [hwrites]
  refine lifecycle_report { w with session.connection := none } ?_
  intro e he
  rw [hevents e he]
  decide

theorem lifecycle_noteRefused :
    w.noteRefused.lifecycle = { w.lifecycle with connection := none } := by
  rcases noteRefused_writes w with ⟨events, hevents, hwrites⟩
  rw [hwrites]
  refine lifecycle_report { w with session.connection := none } ?_
  intro e he
  rw [hevents e he]
  decide

theorem lifecycle_connect :
    (w.connect env).lifecycle =
      w.lifecycle.connect (env.connect w.port.connects) w.session.params.endpoint
        (w.session.tuning.coalesceMaxBytes * 4) := by
  unfold connect Lifecycle.connect
  cases env.connect w.port.connects with
  | returned => rfl
  | null =>
      simp only
      rw [lifecycle_lose, lifecycle_noteRefused]
      rfl
  | closedThenNull connectFailed =>
      simp only
      rw [lifecycle_lose, lifecycle_noteRefused, lifecycle_lose, lifecycle_noteClosed]
      rfl

theorem lifecycle_onClosed (connectFailed : Bool) :
    (w.onClosed env connectFailed).lifecycle = { w.lifecycle with connection := none }.lose := by
  rw [onClosed_eq, lifecycle_lose, lifecycle_noteClosed]

/-! ## The handshake -/

theorem lifecycle_announce (c : Nat) : (w.announce env c).lifecycle = w.lifecycle := by
  rcases announce_writes env w c with ⟨_, _, _, _, _, events, -, hevents, hwrites⟩
  rw [hwrites]
  refine lifecycle_report w ?_
  intro e he
  rcases hevents e he with htype | htype <;> simp [htype]

theorem lifecycle_flushPendingTexts : (w.flushPendingTexts env).lifecycle = w.lifecycle := by
  rcases flushPendingTexts_writes env w with ⟨_, _, -, hwrites⟩
  rw [hwrites]
  rfl

/-- How the handshake goes on the current connection. -/
def handshake : Handshake :=
  match w.hello env with
  | none =>
      let w := w.emit .error (ascii "invalid fork parameters for hello")
      .invalid (w.deadline env) ((w.startDrain env).drainOver env)
  | some hello =>
      match w.session.connection with
      | none => .lost
      | some c =>
          if env.accepts w.port.conns c w.port.wire.length (.hello hello) then .done else .lost

section

variable {env w}

theorem handshake_invalid (h : w.hello env = none) :
    ∃ deadline drained, w.handshake env = .invalid deadline drained := by
  simp only [handshake, h]
  exact ⟨_, _, rfl⟩

theorem handshake_unowned {hello : Text} (h : w.hello env = some hello)
    (hconnection : w.session.connection = none) : w.handshake env = .lost := by
  simp only [handshake, h, hconnection]

theorem handshake_owned {hello : Text} {c : Nat} (h : w.hello env = some hello)
    (hconnection : w.session.connection = some c) :
    w.handshake env =
      if env.accepts w.port.conns c w.port.wire.length (.hello hello) then .done else .lost := by
  simp only [handshake, h, hconnection]

end

variable {w} in
theorem lifecycle_notifyConnected (h : w.session.state = .active) :
    (w.notifyConnected env).lifecycle = w.lifecycle.shaken (w.handshake env) := by
  unfold notifyConnected handshake
  have hactive : w.lifecycle.state = .active := h
  cases w.hello env with
  | none =>
      -- the session has just become active, so the teardown is a drain
      show (teardown env _).lifecycle = _
      rw [lifecycle_teardown, lifecycle_emit w _ (by decide), Lifecycle.teardown_active hactive]
      rfl
  | some hello =>
      simp only
      cases w.session.connection with
      | none =>
          show (lose _).lifecycle = w.lifecycle.retry
          rw [lifecycle_lose, lifecycle_emit w _ (by decide), Lifecycle.lose_active hactive]
      | some c =>
          simp only
          unfold send
          cases env.accepts w.port.conns c w.port.wire.length (.hello hello) with
          | false =>
              show (lose _).lifecycle = w.lifecycle.retry
              rw [lifecycle_lose, lifecycle_emit _ _ (by decide)]
              exact Lifecycle.lose_active hactive
          | true =>
              show (pump env _).lifecycle = w.lifecycle
              rw [lifecycle_pump, lifecycle_flushPendingTexts, lifecycle_announce]
              -- the pump at the end finds the session active, where a tick does nothing
              refine Lifecycle.tick_of_not_draining ?_ _
              show w.session.state ≠ .draining
              rw [h]
              decide

theorem lifecycle_onConnected (c : Nat) :
    ((w.markConnected c).onConnected env).lifecycle =
      w.lifecycle.connected c
        (handshake env { w.markConnected c with session.state := .active }) := by
  by_cases h : w.session.state = .connecting
  · rw [onConnected_connecting env (w := w.markConnected c) h, lifecycle_notifyConnected env rfl,
      Lifecycle.connected_connecting h]
    rfl
  · rw [onConnected_late env (w := w.markConnected c) h, lifecycle_abandonSocket, Lifecycle.connected_late h]
    rfl

/-! ## Calls that leave the lifecycle alone -/

theorem lifecycle_deliverText (text : Text) : (w.deliverText env text).lifecycle = w.lifecycle := by
  rcases deliverText_writes env w text with ⟨_, _, _, -, hwrites⟩
  rw [hwrites]
  rfl

theorem lifecycle_unsupported (detail : Text) : (w.unsupported detail).lifecycle = w.lifecycle := by
  rcases unsupported_writes w detail with ⟨events, hevents, hwrites⟩
  rw [hwrites]
  refine lifecycle_report w ?_
  intro e he
  rw [hevents e he]
  decide

theorem lifecycle_handlePlaybackStart (sampleRate channels : Nat) :
    (w.handlePlaybackStart sampleRate channels).lifecycle = w.lifecycle := by
  simp [handlePlaybackStart, lifecycle, forkEvent]

theorem lifecycle_handleClear (path : PlaybackPath β S) :
    (w.handleClear path).lifecycle = w.lifecycle := by
  rcases handleClear_writes w path with ⟨paused, pauses, hwrites⟩
  rw [hwrites]
  refine lifecycle_report w ?_
  simp [forkEvent]

theorem lifecycle_playbackControl {control : PlaybackPath β S → World β S → World β S}
    (h : ∀ path, (control path w).lifecycle = w.lifecycle) :
    (w.playbackControl control).lifecycle = w.lifecycle := by
  unfold playbackControl
  split
  · exact lifecycle_unsupported w _
  · exact h _

theorem lifecycle_receive (path : PlaybackPath β S) (bytes : List β) :
    (w.receive env path bytes).lifecycle = w.lifecycle := by
  rcases receive_writes env w path bytes with ⟨dropped, started, events, hevents, hwrites⟩
  rw [hwrites]
  refine lifecycle_report w ?_
  intro e he
  rcases hevents e he with htype | htype <;> simp [htype]

theorem lifecycle_onBinary (bytes : List β) : (w.onBinary env bytes).lifecycle = w.lifecycle := by
  unfold onBinary
  split
  · rfl
  · split
    · exact lifecycle_unsupported w _
    · rw [lifecycle_pumpPlayback, lifecycle_receive]

theorem lifecycle_pushAudio (pcm : List β) : (w.pushAudio pcm).lifecycle = w.lifecycle := by
  rcases pushAudio_writes w pcm with ⟨_, _, _, _, _, hwrites⟩
  rw [hwrites]
  rfl

theorem lifecycle_leave : (w.leave env).lifecycle = w.lifecycle.abandonSocket := by
  unfold leave Lifecycle.abandonSocket
  rw [lifecycle_connection]
  cases w.session.connection with
  | none => rfl
  | some c => rfl

theorem lifecycle_applyModify (endpoint : Endpoint) :
    (w.applyModify env endpoint).lifecycle =
      if w.lifecycle.state.live then w.lifecycle.abandonSocket else w.lifecycle := by
  unfold applyModify
  show _ = if w.session.state.live then w.lifecycle.abandonSocket else w.lifecycle
  split
  · exact lifecycle_leave env _
  · rfl

/-! ## Steps -/

def teardownLabel : Lifecycle.Label :=
  .teardown (w.deadline env) ((w.startDrain env).drainOver env)

end World

/-- The step of the lifecycle that a step of the session amounts to. -/
def label (env : Env β) (w : World β S) : Step β → Lifecycle.Label
  | .start =>
      .start (env.connect w.port.connects) w.session.params.endpoint
        (w.session.tuning.coalesceMaxBytes * 4)
  | .pump => .tick (w.drainOver env)
  | .runPosted i =>
      match w.port.posted[i]? with
      | some .teardown => (w.takeTask i).teardownLabel env
      | some (.applyModify _) => .modify
      | some (.deliverText _) => .quiet
      | none => .quiet
  | .retryTimer =>
      .retryTimer (env.connect w.port.connects) w.session.params.endpoint
        (w.session.tuning.coalesceMaxBytes * 4)
  | .onConnected c =>
      .connected c (World.handshake env { w.markConnected c with session.state := .active })
  | .onText _ text =>
      match parseServerMessage env.json text with
      | .serverDisconnect => (w.emit .disconnect []).teardownLabel env
      | _ => .quiet
  | .onClosed c _ => .closed c
  | _ => .quiet

theorem lifecycle_runPosted (env : Env β) (w : World β S) (i : Nat) :
    (step env w (.runPosted i)).lifecycle = w.lifecycle.step (label env w (.runPosted i)) := by
  simp only [step, label]
  cases w.port.posted[i]? with
  | none => rfl
  | some task =>
      cases task with
      | teardown =>
          show (World.fire env .teardown _).lifecycle = _
          rw [World.fire_teardown, World.lifecycle_teardown]
          rfl
      | deliverText text => exact World.lifecycle_deliverText env _ text
      | applyModify endpoint => exact World.lifecycle_applyModify env _ endpoint

theorem lifecycle_retryTimer (env : Env β) (w : World β S) :
    (step env w .retryTimer).lifecycle = w.lifecycle.step (label env w .retryTimer) := by
  show (w.takeTimer.fire env .retryTimerFired).lifecycle = _
  simp only [label, Lifecycle.step]
  by_cases h : w.session.state = .reconnecting
  · rw [World.fire_retryTimerFired env (w := w.takeTimer) h, World.lifecycle_connect]
    rw [show w.lifecycle.state = .reconnecting from h]
    rfl
  · -- the timer is used up all the same
    rw [World.fire_retryTimerFired_stale env (w := w.takeTimer) h]
    split
    · rename_i hstate
      exact absurd hstate h
    · rfl

theorem lifecycle_onText (env : Env β) (w : World β S) (c : Nat) (text : Text) :
    (step env w (.onText c text)).lifecycle = w.lifecycle.step (label env w (.onText c text)) := by
  simp only [step, label, World.onText]
  cases parseServerMessage env.json text with
  | serverDisconnect =>
      simp only
      rw [World.fire_teardown, World.lifecycle_teardown, World.lifecycle_emit w _ (by decide)]
      rfl
  | relayToApp payload => exact World.lifecycle_emit w payload (by decide)
  | invalidMessage reason => exact World.lifecycle_emit w reason (by decide)
  | startPlayback sampleRate channels =>
      exact World.lifecycle_playbackControl w fun _ =>
        World.lifecycle_handlePlaybackStart w sampleRate channels
  | clearPlayback => exact World.lifecycle_playbackControl w (World.lifecycle_handleClear w)
  | playbackMark name => exact World.lifecycle_playbackControl w fun _ => rfl

/-- Every step of a session is a step of its lifecycle. -/
theorem lifecycle_step (env : Env β) (w : World β S) (s : Step β) :
    (step env w s).lifecycle = w.lifecycle.step (label env w s) := by
  cases s with
  | start =>
      show (World.beginConnectWith _ env _).lifecycle = _
      rw [World.beginConnect_eq, World.lifecycle_connect]
      rfl
  | pump => exact World.lifecycle_pump env w
  | stop | sendText _ | sendDtmf _ _ | modify _ =>
      exact step_posts (P := fun v => v.lifecycle = w.lifecycle) rfl fun _ => rfl
  | runPosted i => exact lifecycle_runPosted env w i
  | retryTimer => exact lifecycle_retryTimer env w
  | onConnected c => exact World.lifecycle_onConnected env w c
  | onText c text => exact lifecycle_onText env w c text
  | onBinary c bytes => exact World.lifecycle_onBinary env w bytes
  | onClosed c connectFailed =>
      show ((w.markClosed c).onClosed env connectFailed).lifecycle = _
      rw [World.lifecycle_onClosed]
      rfl
  | pushAudio pcm => exact World.lifecycle_pushAudio w pcm
  | setPaused paused => rfl
  | readPlayback count => rfl

/-- A step the port and the shard allow is one the lifecycle allows. -/
theorem allows_of_contract {env : Env β} {w : World β S} {s : Step β} (h : contract w s = true) :
    w.lifecycle.allows (label env w s) = true := by
  cases s with
  | runPosted i =>
      have hstarted : w.started = true := (Bool.and_eq_true_iff.mp h).1
      simp only [label]
      split <;> first
        | exact hstarted
        | rfl
  | onText c text =>
      have hstarted : w.started = true := (Bool.and_eq_true_iff.mp h).1
      simp only [label]
      split <;> first
        | exact hstarted
        | rfl
  | start => exact h
  | pump => exact h
  | retryTimer => exact h
  | onConnected c => exact h
  | onClosed c connectFailed => exact h
  | _ => rfl

/-- A run of a session is a run of its lifecycle, under any guard that the session's guard
implies. -/
theorem lifecycle_run {env : Env β} {guard : World β S → Step β → Prop}
    {aguard : Lifecycle → Lifecycle.Label → Prop}
    (hguard : ∀ w s, guard w s → aguard w.lifecycle (label env w s)) {w w' : World β S}
    (h : Run (step env) guard w w') :
    Run Lifecycle.step aguard w.lifecycle w'.lifecycle :=
  h.simulates World.lifecycle (label env) (lifecycle_step env) hguard

theorem lifecycle_create {params : ForkParams} {tuning : Tuning} {onFinished : Bool}
    {supply : SlabSupply} {w : World β S}
    (h : World.create params tuning onFinished supply = some w) :
    w.lifecycle = .initial onFinished := by
  rcases World.create_spec h with ⟨ring, path, rate, channels, -, -, -, rfl⟩
  rfl

end Session
end AudioFork
