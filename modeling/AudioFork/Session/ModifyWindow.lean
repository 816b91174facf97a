import AudioFork.Session.Liveness
import AudioFork.Session.Moves

/-!
# ModifyWindow — between a modify and the reconnect

`ApplyModify` says bye to the current connection and forgets it; until that connection reports
`OnClosed` its server can still send.  The inbound handlers do not ask who is speaking, so such a
message may steer the session: `steers` says exactly when, message by message
(`World.course_message`).  A server that does not use this power leaves the session `Bound` for the
endpoint of the modify, and the session reconnects to it.
-/

namespace AudioFork
namespace Session

open Buffers Protocol Lib

variable {β : Type} {S : ℕ+}

/-! ## What a server can steer -/

/-- The session state, the jitter buffer, the playback generation and the playback format. -/
structure Course (β : Type) (S : ℕ+) where
  state : SessionState
  jitter : Option (JitterBuffer β S)
  generation : Nat
  rate : Nat
  channels : Nat

def World.course (w : World β S) : Course β S :=
  { state := w.session.state
    jitter := w.session.playback.path.map PlaybackPath.jitter
    generation := w.session.playback.generation
    rate := w.session.playback.rate
    channels := w.session.playback.channels }

/-- A message of a server. -/
def Step.isMessage : Step β → Bool
  | .onText _ _ => true
  | .onBinary _ _ => true
  | _ => false

/-- The message changes course.  A disconnect always does; a clear or a mark does on a fork with
playback; a start of playback does when it names another format; audio does unless the jitter buffer
takes nothing in, hands nothing over and has no reached mark to report. -/
def steers (env : Env β) (w : World β S) : Step β → Bool
  | .onText _ text =>
      match parseServerMessage env.json text with
      | .serverDisconnect => true
      | .relayToApp _ => false
      | .invalidMessage _ => false
      | .startPlayback sampleRate channels =>
          w.session.playback.path.isSome &&
            (sampleRate != 0 && sampleRate != w.session.playback.rate ||
              channels != 0 && channels != w.session.playback.channels)
      | .clearPlayback => w.session.playback.path.isSome
      | .playbackMark _ => w.session.playback.path.isSome
  | .onBinary _ bytes =>
      !bytes.isEmpty && w.session.playback.path.any fun path =>
        !(path.jitter.deaf env.others w.supply &&
          path.stuck w.session.tuning.playbackHandoffBytes && path.jitter.reachedMarks.isEmpty)
  | _ => false

namespace World

variable {env : Env β} {w : World β S}

/-- With no connection to close or to drain, a teardown is the end. -/
theorem teardown_unheld (hlive : w.session.state.live = true)
    (hconn : w.session.connection = none) : (w.teardown env).session.state = .dead := by
  have hretire : ∀ v : World β S, v.retire.session.state = .dead :=
    fun v => congrArg Lifecycle.state (lifecycle_retire v)
  unfold teardown
  split
  · rw [hangUp_none hconn]
    exact hretire w
  · unfold drain
    rw [hconn]
    exact hretire _
  · exact hretire w
  · rename_i hstate
    simp [hstate, SessionState.live] at hlive
  · rename_i hstate
    simp [hstate, SessionState.live] at hlive
  · rename_i hstate
    simp [hstate, SessionState.live] at hlive

theorem course_unsupported (detail : Text) : (w.unsupported detail).course = w.course := by
  rcases unsupported_writes w detail with ⟨events, -, hwrites⟩
  rw [hwrites]
  rfl

theorem course_handlePlaybackStart (sampleRate channels : Nat) :
    (w.handlePlaybackStart sampleRate channels).course = w.course ↔
      (sampleRate = 0 ∨ sampleRate = w.session.playback.rate) ∧
        (channels = 0 ∨ channels = w.session.playback.channels) := by
  have hcourse : (w.handlePlaybackStart sampleRate channels).course =
      { w.course with
        rate := if sampleRate ≠ 0 then sampleRate else w.session.playback.rate
        channels := if channels ≠ 0 then channels else w.session.playback.channels } := rfl
  rw [hcourse]
  simp only [course, Course.mk.injEq, true_and]
  by_cases hrate : sampleRate = 0 <;> by_cases hchannels : channels = 0 <;>
    simp [hrate, hchannels]

theorem course_handleClear (path : PlaybackPath β S) : (w.handleClear path).course ≠ w.course := by
  have hgeneration : (w.handleClear path).session.playback.generation =
      w.session.playback.generation + 1 := by
    rcases handleClear_writes w path with ⟨paused, pauses, hwrites⟩
    rw [hwrites]
  intro hsame
  have hkept := congrArg Course.generation hsame
  exact Nat.succ_ne_self _ (hgeneration.symm.trans hkept)

theorem course_handleMark {path : PlaybackPath β S} (hpath : w.session.playback.path = some path)
    (name : Text) : (w.handleMark path name).course ≠ w.course := by
  intro hsame
  have hjitter : some (path.jitter.addMark name) = w.session.playback.path.map PlaybackPath.jitter :=
    congrArg Course.jitter hsame
  rw [hpath] at hjitter
  exact JitterBuffer.addMark_ne path.jitter name (Option.some.inj hjitter)

/-- What `OnBinary` makes of the jitter buffer: an append, a handover, and the reached marks taken. -/
def heardPath (env : Env β) (w : World β S) (path : PlaybackPath β S) (bytes : List β) :
    PlaybackPath β S :=
  ((w.receive env path bytes).pumped
    { path with jitter := (path.jitter.append env.others w.supply bytes).2.1 }).1

theorem course_onBinary {path : PlaybackPath β S} {bytes : List β} (hbytes : bytes ≠ [])
    (hpath : w.session.playback.path = some path) :
    (w.onBinary env bytes).course =
      { w.course with jitter := some (w.heardPath env path bytes).jitter } := by
  have hreceive : (w.receive env path bytes).session.playback.path =
      some { path with jitter := (path.jitter.append env.others w.supply bytes).2.1 } :=
    congrArg Audio.path (audio_receive path bytes)
  have hcourse : (w.receive env path bytes).course =
      { w.course with jitter := some (path.jitter.append env.others w.supply bytes).2.1 } := by
    rcases receive_writes env w path bytes with ⟨dropped, started, events, -, hwrites⟩
    rw [hwrites]
    rfl
  have hpump : (w.receive env path bytes).pumpPlayback.course =
      { (w.receive env path bytes).course with
        jitter := some (w.heardPath env path bytes).jitter } := by
    rcases pumpPlayback_writes hreceive with ⟨_, _, _, _, hwrites⟩
    rw [hwrites]
    rfl
  unfold onBinary
  rw [if_neg (by simpa using hbytes), hpath]
  simp only
  rw [hpump, hcourse]

/-- The tuning is nobody's to change. -/
theorem tuning_receive (path : PlaybackPath β S) (bytes : List β) :
    (w.receive env path bytes).session.tuning = w.session.tuning :=
  congrArg Audio.tuning (audio_receive path bytes)

theorem heardPath_jitter_iff {path : PlaybackPath β S} {bytes : List β} (hbytes : bytes ≠ []) :
    (w.heardPath env path bytes).jitter = path.jitter ↔
      path.jitter.deaf env.others w.supply = true ∧
        path.stuck w.session.tuning.playbackHandoffBytes = true ∧ path.jitter.reachedMarks = [] := by
  unfold heardPath pumped PlaybackPath.pumped
  simp only
  rw [tuning_receive]
  generalize (w.receive env path bytes).supply = p
  have hoffsets := PlaybackPath.transfer_offsets w.session.tuning.playbackHandoffBytes
    (path.jitter.append env.others w.supply bytes).2.1.size
    { path with jitter := (path.jitter.append env.others w.supply bytes).2.1 } p
  constructor
  · intro hsame
    -- an append that took something in, or a handover that moved, shows in the offsets
    have hdeaf : path.jitter.deaf env.others w.supply = true := by
      by_contra hheard
      have hmore := JitterBuffer.append_heard env.others w.supply hbytes (by simpa using hheard)
      have hwritten := congrArg JitterBuffer.writtenOffset hsame
      rw [show (JitterBuffer.takeReachedMarks _).2.writtenOffset = _ from hoffsets.1] at hwritten
      exact absurd hwritten (Nat.ne_of_gt hmore)
    rw [JitterBuffer.append_deaf env.others w.supply bytes hdeaf] at hsame
    have hstuck : path.stuck w.session.tuning.playbackHandoffBytes = true := by
      by_contra hmoves
      have hmoves : path.stuck w.session.tuning.playbackHandoffBytes = false := by
        simpa using hmoves
      have hsize : path.jitter.size ≠ 0 := by
        intro hzero
        simp [PlaybackPath.stuck, JitterBuffer.empty, show path.jitter.queue.size = 0 from hzero]
          at hmoves
      rcases Nat.exists_eq_add_one_of_ne_zero hsize with ⟨fuel, hfuel⟩
      rw [hfuel] at hsame
      have hconsumed := congrArg JitterBuffer.consumedOffset hsame
      exact absurd hconsumed (Nat.ne_of_gt (PlaybackPath.transfer_moves fuel p hmoves))
    rw [PlaybackPath.transfer_stuck _ p hstuck] at hsame
    exact ⟨hdeaf, hstuck, (congrArg JitterBuffer.reachedMarks hsame).symm⟩
  · rintro ⟨hdeaf, hstuck, hmarks⟩
    rw [JitterBuffer.append_deaf env.others w.supply bytes hdeaf,
      PlaybackPath.transfer_stuck _ _ hstuck]
    unfold JitterBuffer.takeReachedMarks
    rw [← hmarks]

/-- In the window, a message leaves the session on course exactly when it does not steer. -/
theorem course_message (hlive : w.session.state.live = true) (hconn : w.session.connection = none)
    {s : Step β} (hs : s.isMessage = true) :
    (step env w s).course = w.course ↔ steers env w s = false := by
  cases s with
  | onText c text =>
      show (w.onText env text).course = w.course ↔ _
      unfold onText
      simp only [steers]
      generalize parseServerMessage env.json text = message
      cases message with
      | serverDisconnect =>
          -- without a connection the teardown does not even drain
          simp only [Bool.true_eq_false, iff_false]
          intro hsame
          have hstate := congrArg Course.state hsame
          rw [fire_teardown] at hstate
          have hdead : w.session.state = .dead :=
            hstate.symm.trans (teardown_unheld (w := w.emit .disconnect []) hlive hconn)
          rw [hdead] at hlive
          cases hlive
      | relayToApp payload => exact ⟨fun _ => rfl, fun _ => rfl⟩
      | invalidMessage reason => exact ⟨fun _ => rfl, fun _ => rfl⟩
      | startPlayback sampleRate channels =>
          unfold playbackControl
          cases w.session.playback.path with
          | none => simp [course_unsupported]
          | some path =>
              simp only [course_handlePlaybackStart, Option.isSome_some, Bool.true_and,
                Bool.or_eq_false_iff, Bool.and_eq_false_iff, bne_eq_false_iff_eq]
      | clearPlayback =>
          unfold playbackControl
          cases w.session.playback.path with
          | none => simp [course_unsupported]
          | some path => simp [course_handleClear]
      | playbackMark name =>
          unfold playbackControl
          cases hpath : w.session.playback.path with
          | none => simp [course_unsupported]
          | some path => simp [course_handleMark hpath]
  | onBinary c bytes =>
      show (w.onBinary env bytes).course = w.course ↔ _
      by_cases hbytes : bytes = []
      · subst hbytes
        exact ⟨fun _ => rfl, fun _ => rfl⟩
      · cases hpath : w.session.playback.path with
        | none =>
            unfold onBinary steers
            rw [if_neg (by simpa using hbytes), hpath]
            simp [course_unsupported]
        | some path =>
            have hjitter : (w.onBinary env bytes).course = w.course ↔
                (w.heardPath env path bytes).jitter = path.jitter := by
              rw [course_onBinary hbytes hpath]
              simp [course, hpath]
            rw [hjitter, heardPath_jitter_iff hbytes]
            simp [steers, hpath, hbytes, and_assoc]
  | _ => cases hs

end World

/-! ## The window -/

/-- A step by which someone else decides where the session goes: a teardown or another modify from
the shard's queue, a socket that completes on a fork without a hello, or the retry itself. -/
def decides (env : Env β) (w : World β S) : Step β → Bool
  | .runPosted i =>
      match w.port.posted[i]? with
      | some .teardown => true
      | some (.applyModify _) => true
      | _ => false
  | .onConnected _ => w.session.state == .connecting && (w.hello env).isNone
  | .retryTimer => true
  | _ => false

/-- Where a session is berthed: its state, its socket and its parameters. -/
def World.berth (w : World β S) : SessionState × Option Nat × ForkParams :=
  (w.session.state, w.session.connection, w.session.params)

/-- Live, without a socket, and bound for endpoint `e`. -/
structure Bound (e : Endpoint) (w : World β S) : Prop where
  live : w.session.state.live = true
  connection : w.session.connection = none
  endpoint : w.session.params.endpoint = e

namespace World

variable {env : Env β} {w : World β S}

theorem berth_pumpPlayback : w.pumpPlayback.berth = w.berth := by
  rcases pumpPlayback_local w with ⟨_, _, _, _, hwrites⟩
  rw [hwrites]
  rfl

theorem berth_moveAudio : (w.moveAudio env).berth = w.berth :=
  berth_pumpPlayback (w := w.drainHandoffRing env)

theorem berth_pump (hlive : w.session.state.live = true) : (w.pump env).berth = w.berth := by
  rw [pump_eq]
  split
  · have hmoved : (w.moveAudio env).berth = w.berth := berth_moveAudio
    refine Eq.trans ?_ hmoved
    rcases flushToConnection_writes env (w.moveAudio env) with ⟨_, _, _, _, _, -, hwrites⟩
    rw [hwrites]
    rfl
  · rename_i hstate
    rw [hstate] at hlive
    cases hlive
  · exact berth_moveAudio

theorem berth_deliverText (text : Text) : (w.deliverText env text).berth = w.berth := by
  rcases deliverText_writes env w text with ⟨_, _, _, -, hwrites⟩
  rw [hwrites]
  rfl

theorem berth_unsupported (detail : Text) : (w.unsupported detail).berth = w.berth := by
  rcases unsupported_writes w detail with ⟨events, -, hwrites⟩
  rw [hwrites]
  rfl

theorem berth_playbackControl {control : PlaybackPath β S → World β S → World β S}
    (h : ∀ path, (control path w).berth = w.berth) :
    (w.playbackControl control).berth = w.berth := by
  unfold playbackControl
  split
  · exact berth_unsupported _
  · exact h _

theorem berth_onText {text : Text} (h : parseServerMessage env.json text ≠ .serverDisconnect) :
    (w.onText env text).berth = w.berth := by
  unfold onText
  split
  · rename_i hdisconnect
    exact absurd hdisconnect h
  · rfl
  · rfl
  · exact berth_playbackControl fun _ => rfl
  · refine berth_playbackControl fun path => ?_
    rcases handleClear_writes w path with ⟨paused, pauses, hwrites⟩
    rw [hwrites]
    rfl
  · exact berth_playbackControl fun _ => rfl

theorem berth_onBinary (bytes : List β) : (w.onBinary env bytes).berth = w.berth := by
  unfold onBinary
  split
  · rfl
  · split
    · exact berth_unsupported _
    · rename_i path _
      rcases receive_writes env w path bytes with ⟨dropped, started, events, -, hwrites⟩
      rw [berth_pumpPlayback, hwrites]
      rfl

end World

namespace Bound

variable {env : Env β} {e : Endpoint} {v w : World β S}

theorem congr (h : Bound e w) (hsame : v.berth = w.berth) : Bound e v := by
  simp only [World.berth, Prod.mk.injEq] at hsame
  rcases hsame with ⟨hstate, hconn, hparams⟩
  exact ⟨hstate ▸ h.live, hconn.trans h.connection, hparams ▸ h.endpoint⟩

theorem lose (h : Bound e w) : Bound e w.lose := by
  unfold World.lose
  split <;> rename_i hstate
  · exact ⟨rfl, h.connection, h.endpoint⟩
  · exact ⟨rfl, h.connection, h.endpoint⟩
  · exact absurd h.live (by simp [hstate, SessionState.live])
  · exact absurd h.live (by simp [hstate, SessionState.live])
  · exact h
  · exact h

theorem onConnected (h : Bound e w) (hhello : decides env w (.onConnected 0) = false) :
    Bound e (w.onConnected env) := by
  by_cases hstate : w.session.state = .connecting
  · rw [World.onConnected_connecting env hstate]
    have hsome : (w.hello env).isNone = false := by simpa [decides, hstate] using hhello
    rcases Option.isSome_iff_exists.mp (by simpa using hsome) with ⟨hello, hhello⟩
    -- the socket is nobody's, so the hello cannot be sent
    rw [World.notifyConnected_unheld (w := { w with session.state := .active }) env hhello
      h.connection]
    exact lose ⟨rfl, h.connection, h.endpoint⟩
  · rw [World.onConnected_late env hstate]
    unfold World.abandonSocket
    rw [h.connection]
    exact h

theorem onClosed (h : Bound e w) (connectFailed : Bool) :
    Bound e (w.onClosed env connectFailed) := by
  rw [World.onClosed_eq]
  have hnoted : (w.noteClosed env connectFailed).berth =
      (w.session.state, none, w.session.params) := by
    rcases World.noteClosed_writes env w connectFailed with
      ⟨since, clockReads, events, -, hwrites⟩
    rw [hwrites]
    rfl
  refine lose (h.congr (hnoted.trans ?_))
  rw [World.berth, h.connection]

theorem stepped (h : Bound e w) {s : Step β} (hcontract : contract w s = true)
    (hstarted : w.started = true) (hdecides : decides env w s = false)
    (hsteers : steers env w s = false) : Bound e (step env w s) := by
  cases s with
  | start => simp [contract, hstarted] at hcontract
  | pump => exact h.congr (World.berth_pump h.live)
  | stop | sendText _ | sendDtmf _ _ | modify _ => exact step_posts rfl fun _ => h.congr rfl
  | runPosted i =>
      cases htask : w.port.posted[i]? with
      | none =>
          rw [step_runPosted_none env htask]
          exact h
      | some task =>
          rw [step_runPosted_some env htask]
          -- of the tasks only a text can run in the window
          cases task with
          | teardown => simp [decides, htask] at hdecides
          | applyModify endpoint => simp [decides, htask] at hdecides
          | deliverText text => exact h.congr (World.berth_deliverText (w := w.takeTask i) text)
  | retryTimer => cases hdecides
  | onConnected c =>
      exact onConnected (w := w.markConnected c) ⟨h.live, h.connection, h.endpoint⟩ hdecides
  | onText c text =>
      refine h.congr (World.berth_onText ?_)
      intro hdisconnect
      simp [steers, hdisconnect] at hsteers
  | onBinary c bytes => exact h.congr (World.berth_onBinary bytes)
  | onClosed c connectFailed =>
      exact onClosed (w := w.markClosed c) ⟨h.live, h.connection, h.endpoint⟩ connectFailed
  | pushAudio pcm =>
      refine h.congr ?_
      show (w.pushAudio pcm).berth = w.berth
      unfold World.pushAudio
      split <;> rfl
  | setPaused paused => exact h.congr rfl
  | readPlayback count => exact h.congr rfl

/-- `ApplyModify` opens the window. -/
theorem applyModify (hlive : w.session.state.live = true) (endpoint : Endpoint) :
    Bound endpoint (w.applyModify env endpoint) := by
  unfold World.applyModify
  rw [if_pos hlive]
  unfold World.leave
  split
  · rename_i hconn
    exact ⟨hlive, hconn, rfl⟩
  · exact ⟨hlive, rfl, rfl⟩

end Bound

/-- The session will call `Connect` for endpoint `e`: it waits for a socket to report `OnClosed`,
which makes it reconnect, or it is reconnecting and its timer is set. -/
structure Reconnects (env : Env β) (e : Endpoint) (w : World β S) : Prop where
  waits : w.session.state ≠ .reconnecting → (∃ c, outstanding w.port.conns c = true) ∧
    ∀ c connectFailed, (step env w (.onClosed c connectFailed)).session.state = .reconnecting
  timed : w.session.state = .reconnecting → w.port.timers = 1
  dials : w.session.state = .reconnecting → env.connect w.port.connects = .returned →
    ∃ k, (step env w .retryTimer).port.conns = w.port.conns ++ [k] ∧ k.endpoint = e

theorem Bound.reconnects {env : Env β} {e : Endpoint} {w : World β S} {callback : Bool}
    (h : Bound e w) (hsound : w.lifecycle.Sound callback) : Reconnects env e w where
  waits := by
    intro hstate
    have hopen : w.session.state = .connecting ∨ w.session.state = .active := by
      have hlive := h.live
      cases hw : w.session.state <;> simp_all [SessionState.live]
    refine ⟨hsound.socket (hopen.imp_right Or.inl), ?_⟩
    -- whichever socket closes: a live session that loses one goes to `reconnecting`
    intro c connectFailed
    have hlose := congrArg Lifecycle.state
      (World.lifecycle_onClosed env (w.markClosed c) connectFailed)
    refine Eq.trans hlose ?_
    unfold Lifecycle.lose
    rcases hopen with hstate | hstate <;>
      simp [World.lifecycle, World.markClosed, hstate, Lifecycle.retry]
  timed := hsound.retrying
  dials := by
    intro hstate hanswer
    have hfire : step env w .retryTimer =
        World.connect env { w.takeTimer with session.state := .connecting } :=
      World.fire_retryTimerFired (w := w.takeTimer) env hstate
    have hanswer : env.connect w.takeTimer.port.connects = .returned := hanswer
    rw [hfire]
    unfold World.connect
    simp only
    rw [hanswer]
    exact ⟨_, rfl, h.endpoint⟩

/-- After a modify has been applied, and until the retry fires, as long as nobody else redirects the
session and the server it left sends nothing that steers: a message leaves the session on course
exactly when it does not steer, and the session reconnects to the endpoint of the modify. -/
theorem left_server_cannot_steer {env : Env β} {params : ForkParams} {tuning : Tuning}
    {onFinished : Bool} {supply : SlabSupply} {w₀ w v : World β S} {i : Nat} {e : Endpoint}
    (hcreate : World.create params tuning onFinished supply = some w₀)
    (hrun : Run (step env) (fun v s => contract v s = true) w₀ w) (hstarted : w.started = true)
    (hlive : w.session.state.live = true) (htask : w.port.posted[i]? = some (.applyModify e))
    (hwindow : Run (step env)
      (fun v s => contract v s = true ∧ decides env v s = false ∧ steers env v s = false)
      (step env w (.runPosted i)) v) :
    (∀ s, s.isMessage = true → ((step env v s).course = v.course ↔ steers env v s = false)) ∧
      Reconnects env e v := by
  have hmodify : step env w (.runPosted i) = (w.takeTask i).applyModify env e :=
    step_runPosted_some env htask
  have hcontract : contract w (.runPosted i) = true := by
    have hi : i < w.port.posted.length := (List.getElem?_eq_some_iff.mp htask).1
    simp [contract, hstarted, hi]
  -- the window opens with the modify, and every step in it keeps the session sound and bound
  have hopen : (step env w (.runPosted i)).lifecycle.Sound onFinished ∧
      Bound e (step env w (.runPosted i)) := by
    refine ⟨sound_step (sound_of_run hcreate hrun hstarted) hcontract, ?_⟩
    rw [hmodify]
    exact Bound.applyModify (w := w.takeTask i) hlive e
  have hbound : v.lifecycle.Sound onFinished ∧ Bound e v := by
    refine hwindow.invariant (I := fun v => v.lifecycle.Sound onFinished ∧ Bound e v) hopen ?_
    rintro u s ⟨hsound, hbound⟩ ⟨hcontract, hdecides, hsteers⟩
    exact ⟨sound_step hsound hcontract, hbound.stepped hcontract hsound.started hdecides hsteers⟩
  rcases hbound with ⟨hsound, hbound⟩
  exact ⟨fun s hs => World.course_message hbound.live hbound.connection hs,
    hbound.reconnects hsound⟩

/-- A fork that was told to move to another endpoint, with the modify still in the shard's queue. -/
def movingFork : World UInt8 Sample.slabBytes :=
  exec (step Sample.env) Sample.fork [.start, .onConnected 0, .modify Sample.otherEndpoint]

theorem left_server_cannot_steer_sample :
    let v := exec (step Sample.env) (step Sample.env movingFork (.runPosted 0))
      [.onText 0 (ascii "noise"), .pump, .pushAudio [1, 2], .onClosed 0 false]
    (∀ s, s.isMessage = true →
        ((step Sample.env v s).course = v.course ↔ steers Sample.env v s = false)) ∧
      Reconnects Sample.env Sample.otherEndpoint v :=
  left_server_cannot_steer Sample.create_fork (Run.of_exec (by decide +kernel)) (by decide +kernel)
    (w := movingFork) (i := 0) (by decide +kernel) (by decide +kernel)
    (Run.of_exec (by decide +kernel))

/-- A disconnect from the server that was left kills the fork before it reaches the new endpoint; a
clear from it bumps the playback generation. -/
theorem left_server_kills_fork :
    let w := exec (step Sample.env) Sample.fork
      [.start, .onConnected 0, .modify Sample.otherEndpoint, .runPosted 0]
    Run (step Sample.env) (fun v s => contract v s = true) Sample.fork w ∧
      contract w (.onText 0 Sample.disconnectText) = true ∧
      w.session.connection = none ∧ w.session.state = .active ∧
      (step Sample.env w (.onText 0 Sample.disconnectText)).session.state = .dead ∧
      (step Sample.env w (.onText 0 Sample.clearText)).session.playback.generation =
        w.session.playback.generation + 1 :=
  ⟨Run.of_exec (by decide +kernel), by decide +kernel, by decide +kernel, by decide +kernel,
    by decide +kernel, by decide +kernel⟩

end Session
end AudioFork
