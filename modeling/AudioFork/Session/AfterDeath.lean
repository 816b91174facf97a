import AudioFork.Buffers.Room
import AudioFork.Session.Leases
import AudioFork.Session.Ownership

/-!
# AfterDeath — what a session still does once it is dead

`Finalize` is meant to be the end: it reports `stop` last and clears the playback buffer.  Nothing
stops the calls that follow.  The shard keeps pumping until it retires the session, a socket that was
abandoned may still deliver, and the media thread keeps reading.

The module says how a session dies (`dies`: some step is `fatal`, and it ends in `retire`), what a
dead session can still do (`dead_idle`), and from these

* when the stop event is the last one: no step makes a dead session speak (`speaks`);
* when a dead session plays nothing: none dies with audio in its handoff ring (`unplayed`), and no
  audio reaches a dead session (`heard`).
-/

namespace AudioFork
namespace Session

open Buffers Protocol Lib

variable {β : Type} {S : ℕ+}

/-! ## How a session dies -/

namespace World

/-- `v` is a session that has just been finalized, with playback `p` up to then. -/
def EndsWith (p : Playback β S) (v : World β S) : Prop :=
  ∃ u : World β S, v = u.retire ∧ u.session.playback = p

/-- A teardown finds no socket to wait for. -/
def unheld (w : World β S) : Bool :=
  w.session.state == .reconnecting || (w.session.state.live && w.session.connection.isNone)

variable {env : Env β} {w : World β S}

theorem hangUp_dead (h : w.hangUp.session.state = .dead) :
    w.session.connection = none ∧ w.hangUp = w.retire := by
  cases hconn : w.session.connection with
  | none => exact ⟨rfl, hangUp_none hconn⟩
  | some c =>
      rw [hangUp_some hconn] at h
      cases h

/-- The audio work of a pump leaves the state and the connection alone. -/
theorem state_moveAudio : (w.moveAudio env).session.state = w.session.state :=
  congrArg Lifecycle.state (lifecycle_moveAudio env w)

theorem connection_moveAudio : (w.moveAudio env).session.connection = w.session.connection :=
  congrArg Lifecycle.connection (lifecycle_moveAudio env w)

/-- A pump ends a drain that has lost its socket, when its time is up. -/
theorem pump_dead (halive : w.session.state ≠ .dead) (h : (w.pump env).session.state = .dead) :
    w.session.state = .draining ∧ w.session.connection = none ∧ w.drainOver env = true ∧
      EndsWith (w.moveAudio env).session.playback (w.pump env) := by
  rcases drainTick_writes env (w.moveAudio env) with ⟨_, _, _, _, _, _, _, _, -, -, htick⟩
  have hstate : ((w.moveAudio env).drainTick env).2.session.state = w.session.state := by
    rw [htick]
    exact state_moveAudio
  have hconn : ((w.moveAudio env).drainTick env).2.session.connection = w.session.connection := by
    rw [htick]
    exact connection_moveAudio
  have hplayback : ((w.moveAudio env).drainTick env).2.session.playback =
      (w.moveAudio env).session.playback := by
    rw [htick]
  rw [pump_eq] at h ⊢
  split at h
  · rename_i hactive
    have hstays : (((w.moveAudio env).flushToConnection env).restoreCapIfDrained).lifecycle =
        w.lifecycle := by
      rw [lifecycle_restoreCapIfDrained, lifecycle_flushToConnection, lifecycle_moveAudio]
    exact absurd ((congrArg Lifecycle.state hstays).symm.trans h) halive
  · rename_i hdraining
    split at h
    · rename_i hover
      rcases hangUp_dead h with ⟨hnone, hretire⟩
      rw [if_pos hover]
      exact ⟨hdraining, hconn.symm.trans hnone, hover, _, hretire, hplayback⟩
    · exact absurd (hstate.symm.trans h) halive
  · exact absurd (state_moveAudio.symm.trans h) halive

theorem drain_dead (h : (w.drain env).session.state = .dead) :
    w.session.connection = none ∧ w.drain env = (w.startDrain env).retire := by
  unfold drain at h ⊢
  cases hconn : w.session.connection with
  | none => exact ⟨rfl, rfl⟩
  | some c =>
      simp only [hconn] at h
      have hnone : (w.startDrain env).session.connection = none := (pump_dead (fun hdead => by cases hdead) h).2.1
      cases hconn.symm.trans hnone

theorem teardown_dead (halive : w.session.state ≠ .dead)
    (h : (w.teardown env).session.state = .dead) :
    w.unheld = true ∧ EndsWith w.session.playback (w.teardown env) := by
  unfold teardown at h ⊢
  unfold unheld
  cases hstate : w.session.state with
  | connecting =>
      simp only [hstate] at h
      rcases hangUp_dead h with ⟨hnone, hretire⟩
      exact ⟨by simp [hnone, SessionState.live], w, hretire, rfl⟩
  | active =>
      simp only [hstate] at h
      rcases drain_dead h with ⟨hnone, hretire⟩
      exact ⟨by simp [hnone, SessionState.live], w.startDrain env, hretire, rfl⟩
  | reconnecting => exact ⟨rfl, w, rfl, rfl⟩
  | draining =>
      simp only [hstate] at h
      cases h
  | closing =>
      simp only [hstate] at h
      cases h
  | dead => exact absurd hstate halive

theorem lose_dead (halive : w.session.state ≠ .dead) (h : w.lose.session.state = .dead) :
    (w.session.state = .draining ∨ w.session.state = .closing) ∧
      EndsWith w.session.playback w.lose := by
  unfold lose at h ⊢
  cases hstate : w.session.state with
  | connecting =>
      simp only [hstate] at h
      cases h
  | active =>
      simp only [hstate] at h
      cases h
  | reconnecting =>
      simp only [hstate] at h
      cases h
  | draining =>
      simp only [hstate] at h
      exact ⟨Or.inl rfl, w, (hangUp_dead h).2, rfl⟩
  | closing => exact ⟨Or.inr rfl, w, rfl, rfl⟩
  | dead => exact absurd hstate halive

/-- A connect attempt never ends the session. -/
theorem connect_alive (h : w.session.state = .connecting) :
    (w.connect env).session.state ≠ .dead := by
  intro hdead
  have hview := congrArg Lifecycle.state (lifecycle_connect env w)
  rw [show (w.connect env).lifecycle.state = .dead from hdead] at hview
  rcases Lifecycle.connect_state (l := w.lifecycle) h _ _ _ with hstate | hstate
  · cases hview.trans hstate
  · cases hview.trans hstate

/-- `OnConnected` of a session that waited for it ends only a session without a hello. -/
theorem notifyConnected_dead (hactive : w.session.state = .active)
    (h : (w.notifyConnected env).session.state = .dead) :
    w.hello env = none ∧ w.session.connection = none ∧
      EndsWith w.session.playback (w.notifyConnected env) := by
  cases hhello : w.hello env with
  | none =>
      rw [notifyConnected_invalid env hhello] at h ⊢
      let u := w.emit .error (ascii "invalid fork parameters for hello")
      have halive : u.session.state ≠ .dead := by simp [u, emit, hactive]
      rcases teardown_dead (w := u) halive h with ⟨hunheld, hends⟩
      refine ⟨rfl, ?_, hends⟩
      simpa [unheld, u, emit, hactive, SessionState.live] using hunheld
  | some hello =>
      cases hconn : w.session.connection with
      | none =>
          rw [notifyConnected_unheld env hhello hconn] at h
          simp [lose, emit, hactive, retry, scheduleRetry] at h
      | some c =>
          cases hsend : (w.send env c (.hello hello)).1 with
          | false =>
              rw [notifyConnected_refused env hhello hconn hsend] at h
              simp [lose, emit, send, hactive, retry, scheduleRetry] at h
          | true =>
              rw [notifyConnected_greeted env hhello hconn hsend] at h
              let v := ((w.send env c (.hello hello)).2.announce env c).flushPendingTexts env
              have hv : v.lifecycle = w.lifecycle := by
                rw [lifecycle_flushPendingTexts, lifecycle_announce, lifecycle_send]
              have hstate : v.session.state = .active :=
                (congrArg Lifecycle.state hv).trans hactive
              have halive : v.session.state ≠ .dead := by simp [hstate]
              cases hstate.symm.trans (pump_dead halive h).1

end World

/-- The steps that end a session. -/
def fatal (env : Env β) (w : World β S) : Step β → Bool
  | .pump => w.session.state == .draining && w.session.connection.isNone && w.drainOver env
  | .runPosted i =>
      match w.port.posted[i]? with
      | some .teardown => w.unheld
      | _ => false
  | .onConnected _ =>
      w.session.state == .connecting && w.session.connection.isNone && (w.hello env).isNone
  | .onText _ text =>
      match parseServerMessage env.json text with
      | .serverDisconnect => w.unheld
      | _ => false
  | .onClosed _ _ => w.session.state == .draining || w.session.state == .closing
  | _ => false

/-- The playback of a session when the step `s` comes to finalize it. -/
def lastPlayback (env : Env β) (w : World β S) : Step β → Playback β S
  | .pump => (w.moveAudio env).session.playback
  | _ => w.session.playback

/-- A step that is nothing to the lifecycle keeps the state. -/
theorem state_of_quiet {env : Env β} {w : World β S} {s : Step β} (h : label env w s = .quiet) :
    (step env w s).session.state = w.session.state := by
  have hview := lifecycle_step env w s
  rw [h] at hview
  exact congrArg Lifecycle.state hview

section Dying

variable {env : Env β} {w : World β S}

theorem dies_runPosted {i : Nat} (halive : w.session.state ≠ .dead)
    (hdead : (step env w (.runPosted i)).session.state = .dead) :
    fatal env w (.runPosted i) = true ∧
      World.EndsWith w.session.playback (step env w (.runPosted i)) := by
  have hmoved : (step env w (.runPosted i)).session.state ≠ w.session.state :=
    fun hsame => halive (hsame.symm.trans hdead)
  cases htask : w.port.posted[i]? with
  | none => exact absurd (state_of_quiet (by simp [label, htask])) hmoved
  | some task =>
      cases task with
      | teardown =>
          rw [step_runPosted_some env htask] at hdead ⊢
          have hrun : (w.takeTask i).runTask env .teardown = (w.takeTask i).teardown env :=
            World.fire_teardown env _
          rw [hrun] at hdead ⊢
          simp only [fatal, htask]
          exact World.teardown_dead (w := w.takeTask i) halive hdead
      | deliverText text => exact absurd (state_of_quiet (by simp [label, htask])) hmoved
      | applyModify endpoint =>
          -- the socket is given up, nothing more
          rw [step_runPosted_some env htask] at hmoved
          refine absurd ?_ hmoved
          refine (congrArg Lifecycle.state
            (World.lifecycle_applyModify env (w.takeTask i) endpoint)).trans ?_
          split
          · exact Lifecycle.state_abandonSocket
          · rfl

theorem dies_onConnected {c : Nat} (halive : w.session.state ≠ .dead)
    (hdead : (step env w (.onConnected c)).session.state = .dead) :
    fatal env w (.onConnected c) = true ∧
      World.EndsWith w.session.playback (step env w (.onConnected c)) := by
  change ((w.markConnected c).onConnected env).session.state = .dead at hdead
  change _ ∧ World.EndsWith _ ((w.markConnected c).onConnected env)
  by_cases hstate : w.session.state = .connecting
  · rw [World.onConnected_connecting env (w := w.markConnected c) hstate] at hdead ⊢
    rcases World.notifyConnected_dead rfl hdead with ⟨hhello, hconn, hends⟩
    have hnone : w.session.connection = none := hconn
    have hinvalid : w.hello env = none := hhello
    exact ⟨by simp [fatal, hstate, hnone, hinvalid], hends⟩
  · -- a late handshake costs the socket, not the session
    rw [World.onConnected_late env (w := w.markConnected c) hstate] at hdead
    rcases World.abandonSocket_writes (w.markConnected c) with ⟨_, -, habandon⟩
    rw [habandon] at hdead
    exact absurd hdead halive

theorem dies_onClosed {c : Nat} {connectFailed : Bool} (halive : w.session.state ≠ .dead)
    (hdead : (step env w (.onClosed c connectFailed)).session.state = .dead) :
    fatal env w (.onClosed c connectFailed) = true ∧
      World.EndsWith w.session.playback (step env w (.onClosed c connectFailed)) := by
  change ((w.markClosed c).onClosed env connectFailed).session.state = .dead at hdead
  change _ ∧ World.EndsWith _ ((w.markClosed c).onClosed env connectFailed)
  rw [World.onClosed_eq] at hdead ⊢
  rcases World.noteClosed_writes env (w.markClosed c) connectFailed with ⟨_, _, _, -, hnote⟩
  have hstate : ((w.markClosed c).noteClosed env connectFailed).session.state =
      w.session.state := by
    rw [hnote]
    rfl
  have hplayback : ((w.markClosed c).noteClosed env connectFailed).session.playback =
      w.session.playback := by
    rw [hnote]
    rfl
  rcases World.lose_dead (hstate ▸ halive) hdead with ⟨hending, hends⟩
  rw [hstate] at hending
  rw [hplayback] at hends
  exact ⟨by simpa [fatal] using hending, hends⟩

/-- A session dies by a fatal step, which finalizes it last. -/
theorem dies {s : Step β} {onFinished : Bool}
    (hreach : w.lifecycle.Reachable onFinished) (hcontract : contract w s = true)
    (halive : w.session.state ≠ .dead) (hdead : (step env w s).session.state = .dead) :
    fatal env w s = true ∧ World.EndsWith (lastPlayback env w s) (step env w s) := by
  have hmoved : (step env w s).session.state ≠ w.session.state :=
    fun hsame => halive (hsame.symm.trans hdead)
  cases s with
  | start =>
      have hconnecting := (connecting_of_reachable hreach hcontract).1
      change (World.beginConnectWith (World.apply env) env { w with started := true }).session.state
        = .dead at hdead
      rw [World.beginConnect_eq] at hdead
      exact absurd hdead (World.connect_alive hconnecting)
  | pump =>
      rcases World.pump_dead halive hdead with ⟨hstate, hconn, hover, hends⟩
      exact ⟨by simp [fatal, hstate, hconn, hover], hends⟩
  | runPosted i => exact dies_runPosted halive hdead
  | retryTimer =>
      by_cases hstate : w.session.state = .reconnecting
      · change (w.takeTimer.fire env .retryTimerFired).session.state = .dead at hdead
        rw [World.fire_retryTimerFired env (w := w.takeTimer) hstate] at hdead
        exact absurd hdead (World.connect_alive rfl)
      · change (w.takeTimer.fire env .retryTimerFired).session.state ≠ _ at hmoved
        rw [World.fire_retryTimerFired_stale env (w := w.takeTimer) hstate] at hmoved
        exact absurd rfl hmoved
  | onConnected c => exact dies_onConnected halive hdead
  | onText c text =>
      cases hmessage : parseServerMessage env.json text with
      | serverDisconnect =>
          have hstep : step env w (.onText c text) = (w.emit .disconnect []).teardown env := by
            simp only [step, World.onText, hmessage]
            exact World.fire_teardown env _
          rw [hstep] at hdead ⊢
          simp only [fatal, hmessage]
          exact World.teardown_dead (w := w.emit .disconnect []) halive hdead
      | _ => exact absurd (state_of_quiet (by simp [label, hmessage])) hmoved
  | onClosed c connectFailed => exact dies_onClosed halive hdead
  | _ => exact absurd (state_of_quiet rfl) hmoved

end Dying

/-- A dead session has been started before. -/
theorem not_start_of_dead {w : World β S} {s : Step β} {onFinished : Bool}
    (hreach : w.lifecycle.Reachable onFinished) (hcontract : contract w s = true)
    (hdead : w.session.state = .dead) : s ≠ .start := by
  rintro rfl
  have hconnecting := (connecting_of_reachable hreach hcontract).1
  cases hconnecting.symm.trans hdead

/-! ## What a dead session still does -/

namespace World

variable {env : Env β} {w : World β S}

/-- A close is reported as a failed attempt only while connecting. -/
theorem noteClosed_dead (env : Env β) (hdead : w.session.state = .dead) (connectFailed : Bool) :
    (w.noteClosed env connectFailed).events = w.events ∧
      (w.noteClosed env connectFailed).session.state = .dead ∧
      (w.noteClosed env connectFailed).session.playback = w.session.playback := by
  unfold noteClosed
  simp only
  split <;> rw [if_neg (by simp [now, hdead])] <;> exact ⟨rfl, hdead, rfl⟩

theorem teardown_of_dead (hdead : w.session.state = .dead) : w.teardown env = w := by
  unfold teardown
  rw [hdead]

theorem lose_of_dead (hdead : w.session.state = .dead) : w.lose = w := by
  unfold lose
  rw [hdead]

theorem pump_of_dead (hdead : w.session.state = .dead) : w.pump env = w.moveAudio env := by
  rw [pump_eq, hdead]

theorem sendText_of_dead (hdead : w.session.state = .dead) (text : Text) : w.sendText text = w := by
  unfold sendText
  rw [hdead]
  rfl

/-- No task that was posted before its end reaches a dead session. -/
theorem runTask_of_dead (hdead : w.session.state = .dead) (task : Task) :
    (w.runTask env task).events = w.events ∧
      (w.runTask env task).session.playback = w.session.playback := by
  cases task with
  | teardown =>
      have hrun : w.runTask env .teardown = w :=
        (fire_teardown env w).trans (teardown_of_dead hdead)
      rw [hrun]
      exact ⟨rfl, rfl⟩
  | deliverText text =>
      rcases deliverText_writes env w text with ⟨_, _, _, -, hwrites⟩
      show (w.deliverText env text).events = w.events ∧
        (w.deliverText env text).session.playback = w.session.playback
      rw [hwrites]
      exact ⟨rfl, rfl⟩
  | applyModify endpoint =>
      have hidle : w.runTask env (.applyModify endpoint) = w :=
        if_neg (by simp [hdead, SessionState.live])
      rw [hidle]
      exact ⟨rfl, rfl⟩

/-- `PumpPlayback` reports nothing when no mark is reached and no audio is left to reach one. -/
theorem pumpPlayback_silent
    (h : ∀ path, w.session.playback.path = some path →
      path.jitter.queue.chunks = [] ∧ path.jitter.reachedMarks = []) :
    w.pumpPlayback.events = w.events := by
  cases hpath : w.session.playback.path with
  | none => rw [pumpPlayback_none hpath]
  | some path =>
      rcases h path hpath with ⟨hchunks, hmarks⟩
      unfold pumpPlayback
      rw [hpath]
      simp only [transfer_no_chunks _ _ _ hchunks, JitterBuffer.takeReachedMarks, hmarks,
        List.map_nil, List.append_nil]
      split
      · rfl
      · rename_i c _
        rcases flowControl_writes _ c _ with ⟨_, _, hflow⟩
        rw [hflow]

theorem generations_pumpPlayback (w : World β S) :
    w.pumpPlayback.session.playback.generation = w.session.playback.generation ∧
      w.pumpPlayback.session.playback.mediaGeneration = w.session.playback.mediaGeneration := by
  have haudio := audio_pumpPlayback (w := w)
  exact ⟨congrArg Audio.generation haudio, congrArg Audio.mediaGeneration haudio⟩

/-- Without audio to hand over, `PumpPlayback` leaves the ring alone. -/
theorem pumpPlayback_stuck {path : PlaybackPath β S} (hpath : w.session.playback.path = some path)
    (hempty : path.jitter.empty = true) :
    w.pumpPlayback.session.playback.path =
      some { path with jitter := path.jitter.takeReachedMarks.2 } := by
  rcases pumpPlayback_writes hpath with ⟨_, _, _, _, hwrites⟩
  rw [hwrites]
  show some (w.pumped path).1 = _
  unfold pumped PlaybackPath.pumped
  rw [PlaybackPath.transfer_stuck _ _ (by simp [PlaybackPath.stuck, hempty])]

theorem playback_drainHandoffRing : (w.drainHandoffRing env).session.playback = w.session.playback := by
  rcases drainHandoffRing_writes env w with ⟨_, _, _, _, _, _, _, _, _, -, hwrites⟩
  rw [hwrites]

theorem unsupported_silent (h : w.session.unsupportedInbound ≠ 0) (detail : Text) :
    (w.unsupported detail).events = w.events := by
  unfold unsupported
  simp only
  rw [if_neg h]

/-- A muted buffer takes nothing and so starts nothing. -/
theorem receive_muted (env : Env β) {path : PlaybackPath β S} (hmuted : path.jitter.muted = true)
    (hempty : path.jitter.empty = true) (bytes : List β) :
    (w.receive env path bytes).events = w.events ∧
      (w.receive env path bytes).session.playback.path = some path := by
  unfold receive
  rw [JitterBuffer.append_muted env.others w.supply bytes hmuted]
  simp only
  rw [if_neg (by simp [hempty]), if_neg (by simp [hmuted])]
  exact ⟨rfl, rfl⟩

end World

/-- The calls by which a dead session can still say or play something. -/
def stirs : Step β → Bool
  | .start | .pump | .onText _ _ | .onBinary _ _ | .readPlayback _ => true
  | _ => false

/-- All others leave its events and its playback alone. -/
theorem dead_idle {env : Env β} {w : World β S} {s : Step β} (hdead : w.session.state = .dead)
    (hstirs : stirs s = false) :
    (step env w s).events = w.events ∧ (step env w s).session.playback = w.session.playback := by
  have hlive : w.session.state.live = false := by
    rw [hdead]
    rfl
  cases s with
  | start => cases hstirs
  | pump => cases hstirs
  | onText c text => cases hstirs
  | onBinary c bytes => cases hstirs
  | readPlayback count => cases hstirs
  | stop => exact ⟨rfl, rfl⟩
  | sendText text =>
      simp only [step, World.sendText_of_dead hdead, and_self]
  | sendDtmf digit durationMs =>
      simp only [step, World.sendDtmf]
      split
      · exact ⟨rfl, rfl⟩
      · rw [World.sendText_of_dead hdead]
        exact ⟨rfl, rfl⟩
  | modify endpoint =>
      simp only [step, World.modify, hlive]
      exact ⟨rfl, rfl⟩
  | runPosted i =>
      cases htask : w.port.posted[i]? with
      | none =>
          rw [step_runPosted_none env htask]
          exact ⟨rfl, rfl⟩
      | some task =>
          rw [step_runPosted_some env htask]
          exact World.runTask_of_dead (w := w.takeTask i) hdead task
  | retryTimer =>
      have hstale : w.takeTimer.session.state ≠ .reconnecting := by
        simp [World.takeTimer, hdead]
      simp only [step, World.fire_retryTimerFired_stale env hstale]
      exact ⟨rfl, rfl⟩
  | onConnected c =>
      have hlate : (w.markConnected c).session.state ≠ .connecting := by
        simp [World.markConnected, hdead]
      rcases World.abandonSocket_writes (w.markConnected c) with ⟨_, -, hwrites⟩
      simp only [step, World.onConnected_late env hlate, hwrites]
      exact ⟨rfl, rfl⟩
  | onClosed c connectFailed =>
      rcases World.noteClosed_dead env (w := w.markClosed c) hdead connectFailed with
        ⟨hevents, hstays, hplayback⟩
      simp only [step, World.onClosed_eq, World.lose_of_dead hstays]
      exact ⟨hevents, hplayback⟩
  | pushAudio pcm =>
      simp only [step, World.pushAudio, hlive]
      exact ⟨rfl, rfl⟩
  | setPaused paused => exact ⟨rfl, rfl⟩

/-! ## Reading from a dead session -/

/-- The media thread knows no generation before the shard does. -/
def Playback.Clocked (p : Playback β S) : Prop := p.mediaGeneration ≤ p.generation

/-- The jitter buffer is empty.  If the session had played all it had, nothing is on its way to the
caller: the ring is empty or about to be discarded. -/
structure Playback.Hushed (played : Prop) (p : Playback β S) : Prop where
  clocked : p.Clocked
  chunks : ∀ path, p.path = some path → path.jitter.queue.chunks = []
  ring : played → ∀ path, p.path = some path →
    path.ring.bytes = [] ∨ p.mediaGeneration < p.generation

theorem Playback.Clocked.read {p : Playback β S} (h : p.Clocked) (count : Nat) :
    (p.read count).2.Clocked := by
  unfold Playback.read
  split
  · exact h
  · split
    · exact h
    · split
      · exact Nat.le_refl _
      · simp only
        split <;> exact h

section Hushed

variable {played : Prop}

namespace Playback.Hushed

variable {p q : Playback β S}

/-- Whatever keeps the ring and the generations, and brings no audio into the jitter buffer. -/
theorem same (h : p.Hushed played) (hgeneration : q.generation = p.generation)
    (hmedia : q.mediaGeneration = p.mediaGeneration)
    (hpath : ∀ path', q.path = some path' → ∃ path, p.path = some path ∧
      path'.jitter.queue = path.jitter.queue ∧ path'.ring = path.ring) : q.Hushed played where
  clocked := by
    unfold Playback.Clocked
    rw [hgeneration, hmedia]
    exact h.clocked
  chunks := by
    intro path' hsome
    rcases hpath path' hsome with ⟨path, hp, hqueue, -⟩
    rw [hqueue]
    exact h.chunks path hp
  ring := by
    intro hplayed path' hsome
    rcases hpath path' hsome with ⟨path, hp, -, hring⟩
    rw [hring, hgeneration, hmedia]
    exact h.ring hplayed path hp

/-- A read leaves nothing, and where all was played it returns nothing. -/
theorem read (h : p.Hushed played) (count : Nat) :
    (played → (p.read count).1 = []) ∧ (p.read count).2.Hushed played := by
  cases hpath : p.path with
  | none =>
      have hnone : p.read count = ([], p) := by simp only [Playback.read, hpath]
      rw [hnone]
      exact ⟨fun _ => rfl, h⟩
  | some path =>
      by_cases hcount : count = 0
      · have hzero : p.read count = ([], p) := by simp only [Playback.read, hpath, hcount, if_pos]
        rw [hzero]
        exact ⟨fun _ => rfl, h⟩
      · by_cases hstale : p.generation = p.mediaGeneration
        · -- the current generation: the ring is empty
          have hring : played → path.ring.bytes = [] := by
            intro hplayed
            rcases h.ring hplayed path hpath with hring | hlt
            · exact hring
            · omega
          rcases Playback.read_current hpath hcount hstale with ⟨hbytes, hafter, hgen, hmedia⟩
          refine ⟨fun hplayed => by simp [hbytes, hring hplayed], ⟨?_, ?_, ?_⟩⟩
          · unfold Playback.Clocked
            rw [hgen, hmedia]
            exact h.clocked
          · intro path' hsome
            cases hafter.symm.trans hsome
            exact h.chunks path hpath
          · intro hplayed path' hsome
            cases hafter.symm.trans hsome
            exact Or.inl (by simp [SpscByteRing.pop, hring hplayed])
        · rw [Playback.read_stale hpath hcount hstale]
          refine ⟨fun _ => rfl, ⟨Nat.le_refl _, ?_, ?_⟩⟩
          · intro path' hsome
            cases hsome
            exact h.chunks path hpath
          · intro _ path' hsome
            cases hsome
            exact Or.inl (discard_bytes hcount _ _ (Nat.lt_succ_self _))

end Playback.Hushed

/-! ### Steps of a dead session -/

namespace World

variable {env : Env β} {w : World β S}

theorem hushed_pumpPlayback (h : w.session.playback.Hushed played) :
    w.pumpPlayback.session.playback.Hushed played := by
  cases hpath : w.session.playback.path with
  | none =>
      rw [pumpPlayback_none hpath]
      exact h
  | some path =>
      have hempty : path.jitter.empty = true := by
        simp [JitterBuffer.empty, size_of_no_chunks path.jitter.ok (h.chunks path hpath)]
      have hafter := pumpPlayback_stuck hpath hempty
      rcases generations_pumpPlayback w with ⟨hgeneration, hmedia⟩
      refine h.same hgeneration hmedia ?_
      intro path' hsome
      cases hafter.symm.trans hsome
      exact ⟨path, hpath, rfl, rfl⟩

theorem hushed_unsupported (h : w.session.playback.Hushed played) (detail : Text) :
    (w.unsupported detail).session.playback.Hushed played := by
  rcases unsupported_writes w detail with ⟨_, -, hwrites⟩
  rw [hwrites]
  exact h

theorem hushed_playbackControl {control : PlaybackPath β S → World β S → World β S}
    (h : w.session.playback.Hushed played)
    (hcontrol : ∀ path, w.session.playback.path = some path →
      (control path w).session.playback.Hushed played) :
    (w.playbackControl control).session.playback.Hushed played := by
  unfold playbackControl
  split
  · exact hushed_unsupported h _
  · rename_i path hpath
    exact hcontrol path hpath

/-- A clear outdates whatever is in the ring. -/
theorem hushed_handleClear (h : w.session.playback.Clocked) (path : PlaybackPath β S) :
    (w.handleClear path).session.playback.Hushed played := by
  have hlt : w.session.playback.mediaGeneration < w.session.playback.generation + 1 :=
    Nat.lt_succ_of_le h
  rcases handleClear_writes w path with ⟨_, _, hwrites⟩
  rw [hwrites]
  refine ⟨Nat.le_of_lt hlt, ?_, fun _ _ _ => Or.inr hlt⟩
  intro path' hsome
  cases hsome
  rfl

end World

/-- Audio for a dead session whose jitter buffer would take it. -/
def heard (w : World β S) : Step β → Bool
  | .onBinary _ bytes => w.session.state == .dead && !bytes.isEmpty &&
      w.session.playback.path.any fun path => !path.jitter.muted
  | _ => false

theorem hushed_dead_step (env : Env β) {w : World β S} {s : Step β}
    (hdead : w.session.state = .dead) (h : w.session.playback.Hushed played) (hstart : s ≠ .start)
    (hheard : heard w s = false) : (step env w s).session.playback.Hushed played := by
  by_cases hstirs : stirs s = false
  · rw [(dead_idle hdead hstirs).2]
    exact h
  cases s with
  | start => exact absurd rfl hstart
  | pump =>
      show (w.pump env).session.playback.Hushed played
      rw [World.pump_of_dead hdead]
      refine World.hushed_pumpPlayback ?_
      rw [World.playback_drainHandoffRing]
      exact h
  | onBinary c bytes =>
      show (w.onBinary env bytes).session.playback.Hushed played
      unfold World.onBinary
      split
      · exact h
      · rename_i hbytes
        split
        · exact World.hushed_unsupported h _
        · rename_i path hpath
          have hmuted : path.jitter.muted = true := by
            simpa [heard, hdead, hbytes, hpath] using hheard
          refine World.hushed_pumpPlayback ?_
          rcases World.receive_writes env w path bytes with ⟨_, _, _, -, hwrites⟩
          rw [hwrites]
          refine h.same rfl rfl ?_
          intro path' hsome
          cases hsome
          rw [JitterBuffer.append_muted env.others w.supply bytes hmuted]
          exact ⟨path, hpath, rfl, rfl⟩
  | onText c text =>
      show (w.onText env text).session.playback.Hushed played
      unfold World.onText
      split
      · rw [World.fire_teardown, World.teardown_of_dead (w := w.emit .disconnect []) hdead]
        exact h
      · exact h
      · exact h
      · refine World.hushed_playbackControl h ?_
        intro path hpath
        exact h.same rfl rfl fun path' hsome => ⟨path', hsome, rfl, rfl⟩
      · exact World.hushed_playbackControl h fun path _ => World.hushed_handleClear h.clocked path
      · refine World.hushed_playbackControl h ?_
        intro path hpath
        refine h.same rfl rfl ?_
        intro path' hsome
        cases hsome
        exact ⟨path, hpath, JitterBuffer.queue_addMark _ _, rfl⟩
  | readPlayback count => exact (h.read count).2
  | _ => exact absurd rfl hstirs

/-! ### The generations of a live session -/

theorem clocked_move {env : Env β} {w v : World β S} (hmove : World.Move env w v)
    (h : w.audio.mediaGeneration ≤ w.audio.generation) :
    v.audio.mediaGeneration ≤ v.audio.generation := by
  cases hmove with
  | quiet hsame =>
      rw [hsame]
      exact h
  | drainHandoffRing => exact h
  | flushToConnection =>
      rcases World.flushToConnection_writes env w with ⟨_, _, _, _, _, -, hwrites⟩
      rw [hwrites]
      exact h
  | restoreCapIfDrained => exact h
  | retire =>
      rw [World.audio_retire]
      exact h
  | pushAudio pcm =>
      unfold World.pushAudio
      split <;> exact h
  | onBinary _ _ _ =>
      rw [World.audio_pumpPlayback, World.audio_receive]
      exact h
  | pumpPlayback =>
      rw [World.audio_pumpPlayback]
      exact h
  | handleClear _ =>
      rw [World.audio_handleClear]
      exact Nat.le_succ_of_le h
  | handleMark name _ => exact h
  | readPlayback count => exact Playback.Clocked.read h count

/-- A run keeps the media thread's generation behind the shard's. -/
theorem clocked_step {env : Env β} {w : World β S} {s : Step β} (halive : w.session.state ≠ .dead)
    (h : w.session.playback.Clocked) : (step env w s).session.playback.Clocked :=
  (moves_step env (intake_alive halive s)).preserves
    (I := fun v => v.audio.mediaGeneration ≤ v.audio.generation)
    (fun _ _ hmove => clocked_move hmove) h

/-! ### Dying with nothing to play -/

/-- Audio of the current generation that a finalization by this step would leave in the handoff
ring. -/
def unplayed (w : World β S) : Step β → Bool
  | .pump =>
      w.session.playback.generation == w.session.playback.mediaGeneration &&
        w.session.playback.path.any fun path => !path.ring.bytes.isEmpty || !path.jitter.empty
  | _ =>
      w.session.playback.generation == w.session.playback.mediaGeneration &&
        w.session.playback.path.any fun path => !path.ring.bytes.isEmpty

/-- Finalization hushes a playback whose ring is empty or outdated. -/
theorem hushed_of_endsWith {p : Playback β S} {v : World β S} (hends : World.EndsWith p v)
    (hclocked : p.Clocked)
    (hring : played → ∀ path, p.path = some path →
      path.ring.bytes = [] ∨ p.generation ≠ p.mediaGeneration) :
    v.session.playback.Hushed played := by
  rcases hends with ⟨u, rfl, rfl⟩
  rcases World.finalize_writes { u with session.state := .dead } with ⟨_, _, -, hwrites⟩
  unfold World.retire
  rw [hwrites]
  refine ⟨hclocked, ?_, ?_⟩
  · intro path' hsome
    rcases Option.map_eq_some_iff.mp hsome with ⟨path, -, rfl⟩
    rfl
  · intro hplayed path' hsome
    rcases Option.map_eq_some_iff.mp hsome with ⟨path, hpath, rfl⟩
    refine (hring hplayed path hpath).imp_right ?_
    intro hne
    exact Nat.lt_of_le_of_ne hclocked (Ne.symm hne)

theorem of_not_unplayed {p : Playback β S} {left : PlaybackPath β S → Bool} {path : PlaybackPath β S}
    (h : (p.generation == p.mediaGeneration && p.path.any left) = false)
    (hpath : p.path = some path) : left path = false ∨ p.generation ≠ p.mediaGeneration := by
  rcases Bool.and_eq_false_iff.mp h with hgeneration | hleft
  · exact Or.inr (by simpa using hgeneration)
  · rw [hpath] at hleft
    exact Or.inl hleft

/-- What the last step finds in the ring is not for the caller. -/
theorem lastPlayback_outdated (env : Env β) {w : World β S} {s : Step β}
    (hclocked : w.session.playback.Clocked) (hunplayed : played → unplayed w s = false) :
    (lastPlayback env w s).Clocked ∧
      (played → ∀ path, (lastPlayback env w s).path = some path →
        path.ring.bytes = [] ∨
          (lastPlayback env w s).generation ≠ (lastPlayback env w s).mediaGeneration) := by
  cases s with
  | pump =>
      -- the pump that finalizes has handed the jitter buffer over first
      have hbefore : (w.drainHandoffRing env).session.playback = w.session.playback :=
        World.playback_drainHandoffRing
      rcases World.generations_pumpPlayback (w.drainHandoffRing env) with ⟨hgeneration, hmedia⟩
      rw [hbefore] at hgeneration hmedia
      have hlast : lastPlayback env w .pump =
          (w.drainHandoffRing env).pumpPlayback.session.playback := rfl
      unfold Playback.Clocked
      rw [hlast, hgeneration, hmedia]
      refine ⟨hclocked, ?_⟩
      intro hplayed path' hsome
      cases hpath : w.session.playback.path with
      | none =>
          rw [World.pumpPlayback_none (w := w.drainHandoffRing env) (by rw [hbefore, hpath]), hbefore,
            hpath] at hsome
          cases hsome
      | some path =>
          refine (of_not_unplayed (hunplayed hplayed) hpath).imp_left ?_
          intro hleft
          have hnothing : path.ring.bytes = [] ∧ path.jitter.empty = true := by
            simpa using hleft
          have hstuck := (World.pumpPlayback_stuck (w := w.drainHandoffRing env)
            (by rw [hbefore, hpath]) hnothing.2)
          cases hstuck.symm.trans hsome
          exact hnothing.1
  | _ =>
      refine ⟨hclocked, ?_⟩
      intro hplayed path hpath
      refine (of_not_unplayed (hunplayed hplayed) hpath).imp_left ?_
      intro hring
      simpa using hring

theorem hushed_of_run {env : Env β} {params : ForkParams} {tuning : Tuning} {onFinished : Bool}
    {supply : SlabSupply} {w₀ w : World β S}
    (hcreate : World.create params tuning onFinished supply = some w₀)
    (hrun : Run (step env)
      (fun v s => contract v s = true ∧ (played → (fatal env v s && unplayed v s) = false) ∧
        heard v s = false) w₀ w) :
    w.session.playback.Clocked ∧ (w.session.state = .dead → w.session.playback.Hushed played) := by
  -- a live session only keeps its generations in order; the rest is settled by the step it dies in
  refine hrun.invariant_with (J := fun v => v.lifecycle.Reachable onFinished)
    (I := fun v => v.session.playback.Clocked ∧
      (v.session.state = .dead → v.session.playback.Hushed played)) ?_ ?_ ?_
  · exact fun v hv => reachable_of_run hcreate (hv.mono fun _ _ h => h.1)
  · rcases World.create_spec hcreate with ⟨ring, path, rate, channels, -, -, -, rfl⟩
    refine ⟨Nat.le_refl _, ?_⟩
    intro hdead
    cases hdead
  · rintro v s hreach ⟨hclocked, hhushed⟩ ⟨hcontract, hplayed, hheard⟩
    by_cases halive : v.session.state = .dead
    · have hstart := not_start_of_dead hreach hcontract halive
      have hafter := hushed_dead_step env halive (hhushed halive) hstart hheard
      exact ⟨hafter.clocked, fun _ => hafter⟩
    · refine ⟨clocked_step halive hclocked, ?_⟩
      intro hdies
      -- what the last step left in the ring is all a later read could return
      rcases dies hreach hcontract halive hdies with ⟨hfatal, hends⟩
      have hunplayed : played → unplayed v s = false := by
        simpa [hfatal] using hplayed
      rcases lastPlayback_outdated env hclocked hunplayed with ⟨hlast, hring⟩
      exact hushed_of_endsWith hends hlast hring

end Hushed

/-- In a run in which no session dies with audio left to play and no dead one is given any, a read
from a dead session returns nothing. -/
theorem read_after_death {env : Env β} {params : ForkParams} {tuning : Tuning} {onFinished : Bool}
    {supply : SlabSupply} {w₀ w : World β S}
    (hcreate : World.create params tuning onFinished supply = some w₀)
    (hrun : Run (step env)
      (fun v s => contract v s = true ∧ (fatal env v s && unplayed v s) = false ∧ heard v s = false)
      w₀ w)
    (hdead : w.session.state = .dead) (count : Nat) : (w.session.playback.read count).1 = [] := by
  have hhushed : w.session.playback.Hushed True :=
    (hushed_of_run hcreate (hrun.mono fun _ _ h => ⟨h.1, fun _ => h.2.1, h.2.2⟩)).2 hdead
  exact (hhushed.read count).1 trivial

/-- A fork whose caller heard everything before it died; the clear it is sent afterwards, the pumps
and the audio for the muted buffer bring nothing back. -/
theorem read_after_death_sample :
    let w := exec (step Sample.env) Sample.fork
      [.start, .onConnected 0, .onBinary 0 [7, 8, 9], .readPlayback 4, .modify Sample.otherEndpoint,
        .runPosted 0, .stop, .runPosted 0, .pump, .onText 0 Sample.clearText, .onBinary 0 [5, 6], .pump]
    w.session.state = .dead ∧ (w.session.playback.read 4).1 = [] :=
  ⟨by decide +kernel,
    read_after_death Sample.create_fork (Run.of_exec (by decide +kernel)) (by decide +kernel) 4⟩

/-- Audio handed to the ring before the teardown is still played after death. -/
theorem audio_after_death :
    let w := exec (step Sample.env) Sample.fork
      [.start, .onConnected 0, .onBinary 0 [7, 8, 9], .stop, .runPosted 0, .onClosed 0 false]
    Run (step Sample.env) (fun v s => contract v s = true) Sample.fork w ∧
      w.session.state = .dead ∧ (w.session.playback.read 4).1 = [7, 8, 9] :=
  ⟨Run.of_exec (by decide +kernel), by decide +kernel, by decide +kernel⟩

/-! ## The last event -/

/-- Inbound playback traffic of a send-only fork that will be reported. -/
def World.firstUnsupported (w : World β S) : Bool :=
  w.session.playback.path.isNone && w.session.unsupportedInbound == 0

/-- A playback control is silent when it is not the first one reported as unsupported, and its handler
is. -/
theorem World.playbackControl_silent {w : World β S}
    {control : PlaybackPath β S → World β S → World β S} (hfirst : w.firstUnsupported = false)
    (hcontrol : ∀ path, w.session.playback.path = some path →
      (control path w).events = w.events) :
    (w.playbackControl control).events = w.events := by
  unfold World.playbackControl
  split
  · rename_i hnone
    refine World.unsupported_silent ?_ _
    simpa [World.firstUnsupported, hnone] using hfirst
  · rename_i path hpath
    exact hcontrol path hpath

/-- The calls by which a dead session would speak: a pump while the handoff ring holds more than the
send buffer has room for or a reached mark is unreported, a message other than a mark, and audio for a
buffer that plays or holds a reached mark. -/
def speaks (env : Env β) (w : World β S) (s : Step β) : Bool :=
  w.session.state == .dead &&
    match s with
    | .pump =>
        (!w.session.outbound.ring.bytes.isEmpty &&
            !w.session.outbound.buffer.roomy env.others w.supply w.session.outbound.ring.size) ||
          w.session.playback.path.any fun path => !path.jitter.reachedMarks.isEmpty
    | .onBinary _ bytes =>
        !bytes.isEmpty &&
          (w.firstUnsupported ||
            w.session.playback.path.any fun path =>
              !path.jitter.muted || !path.jitter.reachedMarks.isEmpty)
    | .onText _ text =>
        match parseServerMessage env.json text with
        | .playbackMark _ => w.firstUnsupported
        | .startPlayback _ _ | .clearPlayback =>
            w.firstUnsupported || w.session.playback.path.isSome
        | .serverDisconnect | .relayToApp _ | .invalidMessage _ => true
    | _ => false

theorem heard_of_speaks {env : Env β} {w : World β S} {s : Step β} (h : speaks env w s = false) :
    heard w s = false := by
  cases s with
  | onBinary c bytes =>
      simp only [speaks, Bool.and_eq_false_iff, Bool.or_eq_false_iff] at h
      simp only [heard, Bool.and_eq_false_iff]
      rcases h with hdead | hempty | ⟨-, hpath⟩
      · exact Or.inl (Or.inl hdead)
      · exact Or.inl (Or.inr hempty)
      · refine Or.inr ?_
        cases hsome : w.session.playback.path with
        | none => rfl
        | some path =>
            rw [hsome] at hpath
            exact (Bool.or_eq_false_iff.mp hpath).1
  | _ => rfl

/-- A drain reports nothing when all there is in the ring finds room. -/
theorem Drain.loop_silent {others : Nat → Nat → Nat} {params : ForkParams} {tuning : Tuning}
    (fuel : Nat) {d : Drain β S}
    (h : d.outbound.buffer.roomy others d.supply d.outbound.ring.size = true) :
    (loop others params tuning fuel d).events = d.events := by
  refine (loop_invariant
    (P := fun d' => d'.events = d.events ∧
      d'.outbound.buffer.roomy others d'.supply d'.outbound.ring.size = true) ?_ fuel ⟨rfl, h⟩).1
  rintro d' ⟨hevents, hroomy⟩ hring
  have hsome : (d'.outbound.ring.pop drainChunkBytes).1 ≠ [] := by
    rw [SpscByteRing.pop_fst, Ne, List.take_eq_nil_iff]
    simp [drainChunkBytes, hring]
  have hsplit : d'.outbound.ring.size = (d'.outbound.ring.pop drainChunkBytes).1.length +
      (d'.outbound.ring.pop drainChunkBytes).2.size := by
    unfold SpscByteRing.size SpscByteRing.pop
    rw [← List.length_append, List.take_append_drop]
  -- the chunk finds room and leaves room for the rest of the ring
  rw [hsplit] at hroomy
  rcases SendBuffer.append_roomy hroomy hsome with ⟨hresult, hspare⟩
  unfold round chunk store
  simp only
  rw [hresult]
  exact ⟨hevents, hspare⟩

namespace World

variable {env : Env β} {w : World β S}

theorem pump_silent (hdead : w.session.state = .dead)
    (hchunks : ∀ path, w.session.playback.path = some path → path.jitter.queue.chunks = [])
    (hspeaks : speaks env w .pump = false) : (w.pump env).events = w.events := by
  simp only [speaks, hdead, beq_self_eq_true, Bool.true_and, Bool.or_eq_false_iff,
    Bool.and_eq_false_iff, Bool.not_eq_false'] at hspeaks
  have hdrained : (w.drainHandoffRing env).events = w.events := by
    rcases hspeaks.1 with hring | hroomy
    · rw [drainHandoffRing_idle (List.isEmpty_iff.mp hring)]
    · exact Drain.loop_silent _ hroomy
  rw [pump_of_dead hdead]
  unfold moveAudio
  rw [pumpPlayback_silent, hdrained]
  rw [playback_drainHandoffRing]
  intro path hpath
  refine ⟨hchunks path hpath, ?_⟩
  simpa [hpath] using hspeaks.2

theorem onBinary_silent (hdead : w.session.state = .dead)
    (hchunks : ∀ path, w.session.playback.path = some path → path.jitter.queue.chunks = [])
    {c : Nat} {bytes : List β} (hspeaks : speaks env w (.onBinary c bytes) = false) :
    (w.onBinary env bytes).events = w.events := by
  unfold onBinary
  split
  · rfl
  · rename_i hbytes
    have hquiet : w.firstUnsupported = false ∧ (w.session.playback.path.any fun path =>
        !path.jitter.muted || !path.jitter.reachedMarks.isEmpty) = false := by
      simpa [speaks, hdead, hbytes] using hspeaks
    split
    · rename_i hnone
      refine unsupported_silent ?_ _
      simpa [firstUnsupported, hnone] using hquiet.1
    · rename_i path hpath
      have hpath' : path.jitter.muted = true ∧ path.jitter.reachedMarks = [] := by
        simpa [hpath] using hquiet.2
      have hempty : path.jitter.empty = true := by
        simp [JitterBuffer.empty, size_of_no_chunks path.jitter.ok (hchunks path hpath)]
      rcases receive_muted env (w := w) hpath'.1 hempty bytes with ⟨hevents, hsame⟩
      rw [pumpPlayback_silent, hevents]
      intro q hq
      cases hsame.symm.trans hq
      exact ⟨hchunks path hpath, hpath'.2⟩

theorem onText_silent (hdead : w.session.state = .dead) {c : Nat} {text : Text}
    (hspeaks : speaks env w (.onText c text) = false) : (w.onText env text).events = w.events := by
  simp only [speaks, hdead, beq_self_eq_true, Bool.true_and] at hspeaks
  unfold onText
  cases hmessage : parseServerMessage env.json text with
  | serverDisconnect => simp [hmessage] at hspeaks
  | relayToApp payload => simp [hmessage] at hspeaks
  | invalidMessage reason => simp [hmessage] at hspeaks
  | playbackMark name =>
      simp only [hmessage] at hspeaks
      exact playbackControl_silent hspeaks fun _ _ => rfl
  | startPlayback sampleRate channels =>
      simp only [hmessage, Bool.or_eq_false_iff] at hspeaks
      refine playbackControl_silent hspeaks.1 ?_
      intro path hpath
      simp [hpath] at hspeaks
  | clearPlayback =>
      simp only [hmessage, Bool.or_eq_false_iff] at hspeaks
      refine playbackControl_silent hspeaks.1 ?_
      intro path hpath
      simp [hpath] at hspeaks

end World

/-- A dead session that is not made to speak stays silent. -/
theorem dead_silent {env : Env β} {w : World β S} {s : Step β} (hdead : w.session.state = .dead)
    (hchunks : ∀ path, w.session.playback.path = some path → path.jitter.queue.chunks = [])
    (hstart : s ≠ .start) (hspeaks : speaks env w s = false) :
    (step env w s).events = w.events := by
  by_cases hstirs : stirs s = false
  · exact (dead_idle hdead hstirs).1
  cases s with
  | start => exact absurd rfl hstart
  | pump => exact World.pump_silent hdead hchunks hspeaks
  | onBinary c bytes => exact World.onBinary_silent hdead hchunks hspeaks
  | onText c text => exact World.onText_silent hdead hspeaks
  | readPlayback count => rfl
  | _ => exact absurd rfl hstirs

/-- Once the session is dead, the stop event is the last one. -/
def StopReported (w : World β S) : Prop :=
  w.session.state = .dead → ∃ before e, w.events = before ++ [e] ∧ e.type = .stop

theorem stopReported_of_run {env : Env β} {params : ForkParams} {tuning : Tuning} {onFinished : Bool}
    {supply : SlabSupply} {w₀ w : World β S}
    (hcreate : World.create params tuning onFinished supply = some w₀)
    (hrun : Run (step env) (fun v s => contract v s = true ∧ speaks env v s = false) w₀ w) :
    StopReported w := by
  have hknown : ∀ v, Run (step env) (fun v s => contract v s = true ∧ speaks env v s = false) w₀ v →
      v.lifecycle.Reachable onFinished ∧
        (v.session.state = .dead → v.session.playback.Hushed False) := by
    intro v hv
    refine ⟨reachable_of_run hcreate (hv.mono fun _ _ h => h.1), ?_⟩
    exact (hushed_of_run hcreate (hv.mono fun _ _ h => ⟨h.1, False.elim, heard_of_speaks h.2⟩)).2
  refine hrun.invariant_with hknown ?_ ?_
  · rcases World.create_spec hcreate with ⟨ring, path, rate, channels, -, -, -, rfl⟩
    intro hdead
    cases hdead
  · rintro v s ⟨hreach, hhushed⟩ hreported ⟨hcontract, hspeaks⟩ hdead
    by_cases halive : v.session.state = .dead
    · -- already dead: the step adds nothing
      have hstart := not_start_of_dead hreach hcontract halive
      rw [dead_silent halive (hhushed halive).chunks hstart hspeaks]
      exact hreported halive
    · -- the step that kills the session finalizes it, and `Finalize` emits the stop last
      rcases (dies hreach hcontract halive hdead).2 with ⟨u, hretire, -⟩
      rcases World.finalize_writes { u with session.state := .dead } with ⟨_, events, -, hwrites⟩
      refine ⟨u.events ++ events, forkEvent u.session.params .stop [], ?_, rfl⟩
      rw [hretire]
      unfold World.retire
      rw [hwrites]

/-- In a run in which no step makes a dead session speak, nothing follows the stop event. -/
theorem stop_is_last {env : Env β} {params : ForkParams} {tuning : Tuning} {onFinished : Bool}
    {supply : SlabSupply} {w₀ w : World β S}
    (hcreate : World.create params tuning onFinished supply = some w₀)
    (hrun : Run (step env) (fun v s => contract v s = true ∧ speaks env v s = false) w₀ w)
    {before after : List ForkEvent} {e : ForkEvent} (hevents : w.events = before ++ e :: after)
    (hstop : e.type = .stop) : after = [] := by
  have hreach : w.lifecycle.Reachable onFinished :=
    reachable_of_run hcreate (hrun.mono fun _ _ h => h.1)
  have hcount : stops w.events = stops before + (stops after + 1) := by
    rw [hevents, stops_append, stops_cons, if_pos hstop]
  have hsound : w.lifecycle.Sound onFinished := by
    rcases hreach with hinit | hsound
    · have hnone : stops w.events = 0 := congrArg Lifecycle.stops hinit
      omega
    · exact hsound
  have hdead : w.session.state = .dead := by
    by_contra halive
    have hnone : stops w.events = 0 := (hsound.pending halive).1
    omega
  have hone : stops w.events = 1 := (hsound.retired hdead).1
  rcases stopReported_of_run hcreate hrun hdead with ⟨front, last, hlast, htype⟩
  -- a later event would make the last one a second stop
  rcases List.eq_nil_or_concat after with hnil | ⟨rest, x, hafter⟩
  · exact hnil
  · rw [List.concat_eq_append] at hafter
    have hend : x = last := by
      rw [hafter] at hevents
      have hboth : (before ++ e :: rest) ++ [x] = front ++ [last] := by
        rw [← hlast, hevents]
        simp
      exact (List.append_singleton_inj.mp hboth).2
    have hsecond : stops after = stops rest + 1 := by
      rw [hafter, stops_append, hend, stops_cons, if_pos htype]
      rfl
    omega

/-- A fork that drained and died, and was pumped, torn down and closed again afterwards. -/
theorem stop_is_last_sample :
    let w := exec (step Sample.env) Sample.fork
      [.start, .onConnected 0, .pushAudio [1, 2], .onText 0 Sample.markText, .pump, .stop, .stop,
        .runPosted 0, .onClosed 0 false, .pump, .runPosted 0, .pushAudio [3], .pump]
    w.events = w.events.take 2 ++ forkEvent Sample.params .stop [] :: w.events.drop 3 ∧
      w.events.drop 3 = [] := by
  intro w
  have hevents : w.events = w.events.take 2 ++ forkEvent Sample.params .stop [] ::
      w.events.drop 3 := by
    decide +kernel
  exact ⟨hevents, stop_is_last Sample.create_fork (Run.of_exec (by decide +kernel)) hevents rfl⟩

/-- A mark that arrives while the socket is closing is reached at once and survives `Finalize`; the
next pump reports it. -/
theorem mark_after_stop :
    let w := exec (step Sample.env) Sample.fork
      [.start, .onConnected 0, .stop, .runPosted 0, .onText 0 Sample.markText, .onClosed 0 false,
        .pump]
    Run (step Sample.env) (fun v s => contract v s = true) Sample.fork w ∧
      w.events.map ForkEvent.type = [.connect, .stop, .mark] :=
  ⟨Run.of_exec (by decide +kernel), by decide +kernel⟩

end Session
end AudioFork
