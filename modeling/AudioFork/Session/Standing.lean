import AudioFork.Session.Liveness

/-!
# Standing — what the events of a fork tell

An application sees a fork through its events.  `Link.hear` is what it can make of them: each event
that reports on the link moves its picture, and some events make no sense in some pictures.  The
theorem of this module is that a fork always makes sense, and that the picture is right: an
application that does nothing but listen knows whether the fork is up, is trying again, or is over.
-/

namespace AudioFork
namespace Session

open Buffers Protocol Lib

variable {β : Type} {S : ℕ+}

/-! ## The listener -/

/-- How an application pictures the link. -/
inductive Link
  /-- Nothing was reported yet. -/
  | fresh
  /-- The first attempt has failed. -/
  | failed
  | up
  /-- There will be another attempt. -/
  | down
  | over
  deriving DecidableEq, Repr

/-- The picture after an event, `none` for an event that cannot come now. -/
def Link.hear (l : Link) : ForkEventType → Option Link
  | .connectFailed => if l = .fresh then some .failed else none
  | .connect => if l = .fresh ∨ l = .down then some .up else none
  | .resume => if l = .down then some .up else none
  | .reconnecting => if l = .over then none else some .down
  | .stop => if l = .over ∨ l = .failed then none else some .over
  | _ => some l

/-- The events that report on the link. -/
def linking : ForkEventType → Bool
  | .connectFailed => true
  | .connect => true
  | .resume => true
  | .reconnecting => true
  | .stop => true
  | _ => false

theorem Link.hear_of_not_linking (l : Link) {type : ForkEventType} (h : linking type = false) :
    l.hear type = some l := by
  cases type <;> first | rfl | cases h

/-- The picture after all events. -/
def follow (events : List ForkEvent) : Option Link :=
  events.foldlM (fun l e => l.hear e.type) .fresh

theorem follow_concat (events : List ForkEvent) (e : ForkEvent) :
    follow (events ++ [e]) = (follow events).bind fun l => l.hear e.type := by
  unfold follow
  rw [List.foldlM_append]
  cases List.foldlM (fun l e => l.hear e.type) Link.fresh events with
  | none => rfl
  | some l =>
      show (l.hear e.type).bind some = l.hear e.type
      cases l.hear e.type with
      | none => rfl
      | some l' => rfl

theorem follow_append {events news : List ForkEvent} (h : ∀ e ∈ news, linking e.type = false) :
    follow (events ++ news) = follow events := by
  induction news generalizing events with
  | nil => rw [List.append_nil]
  | cons e news ih =>
      have hfirst : follow (events ++ [e]) = follow events := by
        rw [follow_concat]
        cases follow events with
        | none => rfl
        | some l => exact l.hear_of_not_linking (h e List.mem_cons_self)
      calc follow (events ++ e :: news) = follow ((events ++ [e]) ++ news) := by
            rw [List.append_assoc, List.singleton_append]
        _ = follow (events ++ [e]) := ih fun e' he' => h e' (List.mem_cons_of_mem e he')
        _ = follow events := hfirst

/-! ## The fork and its listener -/

/-- Where a fork stands, and where its listener believes it to stand. -/
structure Standing where
  state : SessionState
  reconnecting : Bool
  link : Option Link
  deriving DecidableEq

namespace Standing

/-- The picture is the right one.  Once the fork is on its way out nothing is reported until the end,
so the listener keeps the picture it had. -/
def Right (σ : Standing) : Prop :=
  match σ.state with
  | .connecting => σ.link = some (if σ.reconnecting then .down else .fresh)
  | .active => σ.link = some .up
  | .reconnecting => σ.link = some .down ∧ σ.reconnecting = true
  | .draining => σ.link = some .fresh ∨ σ.link = some .up ∨ σ.link = some .down
  | .closing => σ.link = some .fresh ∨ σ.link = some .up ∨ σ.link = some .down
  | .dead => σ.link = some .over

def hear (type : ForkEventType) (σ : Standing) : Standing :=
  { σ with link := σ.link.bind fun l => l.hear type }

def retry (σ : Standing) : Standing :=
  { hear .reconnecting σ with state := .reconnecting, reconnecting := true }

def retire (σ : Standing) : Standing := { hear .stop σ with state := .dead }

/-- A fork that is not dead has one of three pictures, unless an attempt has just failed. -/
theorem Right.alive {σ : Standing} (h : σ.Right) (halive : σ.state ≠ .dead) :
    σ.link = some .fresh ∨ σ.link = some .up ∨ σ.link = some .down := by
  rcases σ with ⟨state, reconnecting, link⟩
  cases state with
  | connecting =>
      have hlink : link = some (if reconnecting then .down else .fresh) := h
      cases reconnecting with
      | false => exact Or.inl hlink
      | true => exact Or.inr (Or.inr hlink)
  | active => exact Or.inr (Or.inl h)
  | reconnecting => exact Or.inr (Or.inr h.1)
  | draining => exact h
  | closing => exact h
  | dead => exact absurd rfl halive

theorem right_retire {σ : Standing}
    (h : σ.link = some .fresh ∨ σ.link = some .up ∨ σ.link = some .down) : σ.retire.Right := by
  show (σ.link.bind fun l => l.hear .stop) = some .over
  rcases h with h | h | h <;> rw [h] <;> rfl

theorem right_retry {σ : Standing} {l : Link} (h : σ.link = some l) (hl : l ≠ .over) :
    σ.retry.Right := by
  refine ⟨?_, rfl⟩
  show (σ.link.bind fun l => l.hear .reconnecting) = some .down
  rw [h]
  exact if_neg hl

end Standing

def World.standing (w : World β S) : Standing :=
  { state := w.session.state
    reconnecting := w.session.reconnecting
    link := follow w.events }

namespace World

section

variable {env : Env β} {v w : World β S}

/-! ### What the listener does not notice -/

/-- From `w` to `v` the fork stands where it stood and reported nothing on the link. -/
def Backstage (w v : World β S) : Prop :=
  v.session.state = w.session.state ∧ v.session.reconnecting = w.session.reconnecting ∧
    ∃ news, (∀ e ∈ news, linking e.type = false) ∧ v.events = w.events ++ news

theorem Backstage.standing (h : Backstage w v) : v.standing = w.standing := by
  rcases h with ⟨hstate, hflag, news, hnews, hevents⟩
  unfold World.standing
  rw [hstate, hflag, hevents, follow_append hnews]

theorem backstage_silent (hstate : v.session.state = w.session.state)
    (hflag : v.session.reconnecting = w.session.reconnecting) (hevents : v.events = w.events) :
    Backstage w v :=
  ⟨hstate, hflag, [], by simp, by rw [hevents, List.append_nil]⟩

theorem backstage_emit {type : ForkEventType} (h : linking type = false) (detail : Text) :
    Backstage w (w.emit type detail) :=
  ⟨rfl, rfl, [forkEvent w.session.params type detail], by simpa [forkEvent] using h, rfl⟩

theorem standing_drainHandoffRing : (w.drainHandoffRing env).standing = w.standing := by
  rcases drainHandoffRing_writes env w with ⟨_, _, _, _, _, _, _, _, news, hnews, hwrites⟩
  refine Backstage.standing ⟨by rw [hwrites], by rw [hwrites], news, ?_, by rw [hwrites]⟩
  intro e he
  rcases hnews e he with htype | htype <;> rw [htype] <;> rfl

theorem standing_pumpPlayback : w.pumpPlayback.standing = w.standing := by
  rcases pumpPlayback_local w with ⟨_, _, _, names, hwrites⟩
  refine Backstage.standing ⟨by rw [hwrites], by rw [hwrites], _, ?_, by rw [hwrites]⟩
  simp [forkEvent, linking]

theorem standing_flushToConnection : (w.flushToConnection env).standing = w.standing := by
  rcases flushToConnection_writes env w with ⟨_, _, _, _, _, -, hwrites⟩
  rw [hwrites]
  rfl

theorem standing_drainTick : (w.drainTick env).2.standing = w.standing := by
  rcases drainTick_writes env w with ⟨_, _, _, _, _, _, _, _, -, -, hwrites⟩
  rw [hwrites]
  rfl

theorem standing_receive (env : Env β) (path : PlaybackPath β S) (bytes : List β) (w : World β S) :
    (w.receive env path bytes).standing = w.standing := by
  rcases receive_writes env w path bytes with ⟨_, _, news, hnews, hwrites⟩
  refine Backstage.standing ⟨by rw [hwrites], by rw [hwrites], news, ?_, by rw [hwrites]⟩
  intro e he
  rcases hnews e he with htype | htype <;> rw [htype] <;> rfl

theorem standing_unsupported (detail : Text) (w : World β S) :
    (w.unsupported detail).standing = w.standing := by
  rcases unsupported_writes w detail with ⟨news, hnews, hwrites⟩
  refine Backstage.standing ⟨by rw [hwrites], by rw [hwrites], news, ?_, by rw [hwrites]⟩
  intro e he
  rw [hnews e he]
  rfl

theorem standing_onBinary (env : Env β) (bytes : List β) (w : World β S) :
    (w.onBinary env bytes).standing = w.standing := by
  unfold onBinary
  split
  · rfl
  · split
    · exact standing_unsupported _ w
    · rw [standing_pumpPlayback, standing_receive]

theorem standing_applyModify (env : Env β) (endpoint : Endpoint) (w : World β S) :
    (w.applyModify env endpoint).standing = w.standing := by
  rcases applyModify_writes env w endpoint with ⟨_, _, _, _, _, -, hwrites⟩
  rw [hwrites]
  rfl

theorem standing_playbackControl {control : PlaybackPath β S → World β S → World β S}
    (w : World β S) (hcontrol : ∀ path, Backstage w (control path w)) :
    (w.playbackControl control).standing = w.standing := by
  unfold playbackControl
  split
  · exact standing_unsupported _ w
  · rename_i path _
    exact (hcontrol path).standing

/-! ### What it does notice -/

theorem standing_emit (type : ForkEventType) (detail : Text) (w : World β S) :
    (w.emit type detail).standing = w.standing.hear type := by
  show Standing.mk _ _ (follow (w.events ++ [_])) = _
  rw [follow_concat]
  rfl

theorem standing_retry : w.retry.standing = w.standing.retry := by
  show Standing.mk .reconnecting true (follow (w.events ++ [_])) = _
  rw [follow_concat]
  rfl

theorem standing_retire : w.retire.standing = w.standing.retire := by
  rcases finalize_writes { w with session.state := .dead } with ⟨_, news, hnews, hwrites⟩
  have hquiet : ∀ e ∈ news, linking e.type = false := by
    intro e he
    rw [hnews e he]
    rfl
  unfold retire
  rw [hwrites]
  show Standing.mk .dead w.session.reconnecting (follow (w.events ++ news ++ [_])) = _
  rw [follow_concat, follow_append hquiet]
  rfl

/-- What a handshake reports. -/
def greeted (w : World β S) : ForkEventType :=
  if w.session.reconnecting ∧ w.session.endpointChanged = false then .resume else .connect

theorem hear_greeted (w : World β S) :
    (if w.session.reconnecting then Link.down else Link.fresh).hear w.greeted = some .up := by
  unfold greeted
  cases w.session.reconnecting with
  | false => rfl
  | true => cases w.session.endpointChanged <;> rfl

theorem announce_reports (env : Env β) (c : Nat) (w : World β S) :
    (w.announce env c).session.state = w.session.state ∧
      follow (w.announce env c).events = (follow w.events).bind fun l => l.hear w.greeted := by
  have hsettle : ∀ v : World β S, v.settleEndpoint.session.state = v.session.state ∧
      v.settleEndpoint.events = v.events := by
    intro v
    unfold settleEndpoint
    split <;> exact ⟨rfl, rfl⟩
  unfold announce greeted
  simp only
  split
  · refine ⟨(hsettle _).1.trans ?_, (congrArg follow (hsettle _).2).trans ?_⟩
    · unfold sendResume resumeGap
      cases w.session.disconnectedAt <;> rfl
    · unfold sendResume resumeGap
      cases w.session.disconnectedAt with
      | none => exact follow_concat w.events _
      | some since => exact follow_concat w.events _
  · refine ⟨(hsettle _).1, (congrArg follow (hsettle _).2).trans ?_⟩
    exact follow_concat w.events _

/-! ### The functions of the driver -/

/-- A fork that hangs up is closing, or over if there is no socket to wait for. -/
theorem standing_hangUp :
    w.hangUp.standing = w.standing.retire ∨
      w.hangUp.standing = { w.standing with state := .closing } :=
  hangUp_ends (P := fun v => v.standing = w.standing.retire ∨
    v.standing = { w.standing with state := .closing }) (Or.inl standing_retire) fun _ => Or.inr rfl

theorem right_hangUp
    (h : w.standing.link = some .fresh ∨ w.standing.link = some .up ∨ w.standing.link = some .down) :
    w.hangUp.standing.Right := by
  rcases standing_hangUp (w := w) with hend | hend <;> rw [hend]
  · exact Standing.right_retire h
  · exact h

theorem standing_moveAudio : (w.moveAudio env).standing = w.standing := by
  unfold moveAudio
  rw [standing_pumpPlayback, standing_drainHandoffRing]

theorem right_pump (h : w.standing.Right) : (w.pump env).standing.Right := by
  rw [pump_eq]
  split <;> rename_i hstate
  · rcases restoreCapIfDrained_writes ((w.moveAudio env).flushToConnection env) with
      ⟨_, _, _, hwrites⟩
    have hsame : (((w.moveAudio env).flushToConnection env).restoreCapIfDrained).standing =
        w.standing := by
      rw [hwrites]
      exact standing_flushToConnection.trans standing_moveAudio
    rw [hsame]
    exact h
  · have hsame : ((w.moveAudio env).drainTick env).2.standing = w.standing :=
      standing_drainTick.trans standing_moveAudio
    split
    · refine right_hangUp ?_
      rw [hsame]
      exact h.alive (by rw [show w.standing.state = .draining from hstate]; simp)
    · rw [hsame]
      exact h
  · rw [standing_moveAudio]
    exact h

/-- An attempt that is given up is followed by another one, whether it was reported as failed or
not. -/
theorem right_lose_attempt {l : Link} (hlink : w.standing.link = some l) (hl : l ≠ .over)
    (hstate : w.session.state = .connecting ∨ w.session.state = .active) :
    w.lose.standing.Right := by
  have hretry : w.lose = w.retry := by
    unfold lose
    rcases hstate with hstate | hstate <;> rw [hstate]
  rw [hretry, standing_retry]
  exact Standing.right_retry hlink hl

theorem right_lose (h : w.standing.Right) : w.lose.standing.Right := by
  have hlink : w.session.state ≠ .dead → ∃ l, w.standing.link = some l ∧ l ≠ .over := by
    intro halive
    rcases h.alive halive with hlink | hlink | hlink <;> exact ⟨_, hlink, by simp⟩
  cases hstate : w.session.state with
  | connecting =>
      rcases hlink (by simp [hstate]) with ⟨l, hl, hover⟩
      exact right_lose_attempt hl hover (Or.inl hstate)
  | active =>
      rcases hlink (by simp [hstate]) with ⟨l, hl, hover⟩
      exact right_lose_attempt hl hover (Or.inr hstate)
  | draining =>
      have hend : w.lose = w.hangUp := by simp only [lose, hstate]
      rw [hend]
      exact right_hangUp (h.alive (by simp [standing, hstate]))
  | closing =>
      have hend : w.lose = w.retire := by simp only [lose, hstate]
      rw [hend, standing_retire]
      exact Standing.right_retire (h.alive (by simp [standing, hstate]))
  | reconnecting =>
      have hend : w.lose = w := by simp only [lose, hstate]
      rw [hend]
      exact h
  | dead =>
      have hend : w.lose = w := by simp only [lose, hstate]
      rw [hend]
      exact h

/-- A drain may start with any picture of a fork that is alive. -/
theorem right_drain
    (h : w.standing.link = some .fresh ∨ w.standing.link = some .up ∨ w.standing.link = some .down) :
    (w.drain env).standing.Right := by
  unfold drain
  split
  · rw [standing_retire]
    exact Standing.right_retire h
  · exact right_pump h

theorem right_teardown (h : w.standing.Right) : (w.teardown env).standing.Right := by
  unfold teardown
  split <;> rename_i hstate
  · exact right_hangUp (h.alive (by simp [standing, hstate]))
  · exact right_drain (h.alive (by simp [standing, hstate]))
  · rw [standing_retire]
    exact Standing.right_retire (h.alive (by simp [standing, hstate]))
  · exact h
  · exact h
  · exact h

theorem right_onText (env : Env β) (text : Text) (h : w.standing.Right) :
    (w.onText env text).standing.Right := by
  have hquiet : ∀ {v : World β S}, v.standing = w.standing → v.standing.Right := by
    intro v hv
    rw [hv]
    exact h
  unfold onText
  split
  · rw [fire_teardown]
    refine right_teardown ?_
    exact hquiet (backstage_emit rfl _).standing
  · exact hquiet (backstage_emit rfl _).standing
  · exact hquiet (backstage_emit rfl _).standing
  · refine hquiet (standing_playbackControl w fun path => ?_)
    exact ⟨rfl, rfl, [_], by simp [forkEvent, linking], rfl⟩
  · refine hquiet (standing_playbackControl w fun path => ?_)
    rcases handleClear_writes w path with ⟨_, _, hwrites⟩
    exact ⟨by rw [hwrites], by rw [hwrites], [forkEvent w.session.params .playbackCleared []],
      by simp [forkEvent, linking], by rw [hwrites]⟩
  · refine hquiet (standing_playbackControl w fun path => ?_)
    exact backstage_silent rfl rfl rfl

/-! ### Attempts -/

/-- `OnClosed` up to its event: in the first attempt it may report the failure. -/
theorem noteClosed_reports (env : Env β) (connectFailed : Bool) (w : World β S) :
    (w.noteClosed env connectFailed).standing = w.standing ∨
      w.session.state = .connecting ∧ w.session.reconnecting = false ∧
        (w.noteClosed env connectFailed).standing = w.standing.hear .connectFailed := by
  unfold noteClosed
  simp only
  cases w.session.disconnectedAt with
  | none =>
      simp only
      split
      · rename_i hfailed
        exact Or.inr ⟨hfailed.2.1, hfailed.2.2, standing_emit _ _ _⟩
      · exact Or.inl rfl
  | some since =>
      simp only
      split
      · rename_i hfailed
        exact Or.inr ⟨hfailed.2.1, hfailed.2.2, standing_emit _ _ _⟩
      · exact Or.inl rfl

/-- The picture of a fork in its first attempt. -/
theorem link_first (h : w.standing.Right) (hstate : w.session.state = .connecting)
    (hflag : w.session.reconnecting = false) : w.standing.link = some .fresh := by
  have hlink : w.standing.link = some (if w.session.reconnecting then .down else .fresh) := by
    unfold Standing.Right at h
    rw [show w.standing.state = .connecting from hstate] at h
    exact h
  rw [hlink, hflag]
  rfl

theorem right_noteClosed_lose (env : Env β) (connectFailed : Bool) (h : w.standing.Right) :
    (w.noteClosed env connectFailed).lose.standing.Right := by
  rcases noteClosed_reports env connectFailed w with hsame | ⟨hstate, hflag, hfailed⟩
  · rw [← hsame] at h
    exact right_lose h
  · have hlink : (w.noteClosed env connectFailed).standing.link = some .failed := by
      rw [hfailed]
      show (w.standing.link.bind fun l => l.hear .connectFailed) = some .failed
      rw [link_first h hstate hflag]
      rfl
    have hconnecting : (w.noteClosed env connectFailed).session.state = .connecting :=
      (congrArg Standing.state hfailed).trans hstate
    exact right_lose_attempt hlink (by simp) (Or.inl hconnecting)

/-- A null answer is reported in the first attempt only: later the listener knows already. -/
theorem noteRefused_reports (w : World β S) :
    w.session.reconnecting = true ∧ w.noteRefused.standing = w.standing ∨
      w.session.reconnecting = false ∧
        w.noteRefused.standing = w.standing.hear .connectFailed := by
  unfold noteRefused
  simp only
  split
  · rename_i hflag
    exact Or.inr ⟨hflag, standing_emit _ _ _⟩
  · rename_i hflag
    exact Or.inl ⟨by simpa using hflag, rfl⟩

theorem right_noteRefused_lose (h : w.standing.Right)
    (hstate : w.session.state = .connecting ∨ w.session.state = .reconnecting) :
    w.noteRefused.lose.standing.Right := by
  rcases noteRefused_reports w with ⟨-, hsame⟩ | ⟨hflag, hfailed⟩
  · rw [← hsame] at h
    exact right_lose h
  · have hconnecting : w.session.state = .connecting := by
      rcases hstate with hstate | hstate
      · exact hstate
      · -- a fork that waits for its retry has the flag set
        unfold Standing.Right at h
        rw [show w.standing.state = .reconnecting from hstate] at h
        exact absurd (hflag.symm.trans h.2) (by simp)
    have hlink : w.noteRefused.standing.link = some .failed := by
      rw [hfailed]
      show (w.standing.link.bind fun l => l.hear .connectFailed) = some .failed
      rw [link_first h hconnecting hflag]
      rfl
    exact right_lose_attempt hlink (by simp)
      (Or.inl ((congrArg Standing.state hfailed).trans hconnecting))

theorem right_connect (env : Env β) (h : w.standing.Right) (hstate : w.session.state = .connecting) :
    (w.connect env).standing.Right := by
  unfold connect
  cases env.connect w.port.connects with
  | returned => exact h
  | null =>
      refine right_noteRefused_lose ?_ (Or.inl hstate)
      exact h
  | closedThenNull connectFailed =>
      -- the socket closed inside `Connect`, so the retry is under way when the null comes
      let dialing : World β S := { w with port.connects := w.port.connects + 1 }
      have hclosed : (dialing.noteClosed env connectFailed).session.state = .connecting := by
        rcases noteClosed_writes env dialing connectFailed with ⟨_, _, _, -, hwrites⟩
        rw [hwrites]
        exact hstate
      have hlost : (dialing.noteClosed env connectFailed).lose.session.state = .reconnecting := by
        unfold lose
        rw [hclosed]
        rfl
      exact right_noteRefused_lose (right_noteClosed_lose env connectFailed h) (Or.inr hlost)

/-- The handshake of a fork that was connecting.  It is active in passing, before its listener is
told. -/
theorem right_notifyConnected (env : Env β) (h : w.standing.Right)
    (hstate : w.session.state = .connecting) :
    (notifyConnected env { w with session.state := .active }).standing.Right := by
  have hlink : w.standing.link = some (if w.session.reconnecting then .down else .fresh) := by
    unfold Standing.Right at h
    rw [show w.standing.state = .connecting from hstate] at h
    exact h
  have hlost : ∀ v : World β S, v.session.state = .active → v.events = w.events →
      (v.emit .error (ascii "hello could not be sent")).lose.standing.Right := by
    intro v hactive hevents
    have herror : (v.emit .error (ascii "hello could not be sent")).standing.link =
        w.standing.link := by
      show follow (v.events ++ [_]) = follow w.events
      rw [hevents]
      exact follow_append (by simp [forkEvent, linking])
    refine right_lose_attempt (herror.trans hlink) ?_ (Or.inr hactive)
    cases w.session.reconnecting <;> simp
  let active : World β S := { w with session.state := .active }
  cases hhello : active.hello env with
  | none =>
      rw [notifyConnected_invalid env hhello]
      have hdrain : (active.emit .error (ascii "invalid fork parameters for hello")).teardown env =
          (active.emit .error (ascii "invalid fork parameters for hello")).drain env := rfl
      rw [hdrain]
      refine right_drain ?_
      have herror : (active.emit .error (ascii "invalid fork parameters for hello")).standing.link =
          w.standing.link := follow_append (by simp [forkEvent, linking])
      rw [herror]
      exact h.alive (by simp [standing, hstate])
  | some hello =>
      cases hconn : active.session.connection with
      | none =>
          rw [notifyConnected_unheld env hhello hconn]
          exact hlost active rfl rfl
      | some c =>
          cases hsend : (active.send env c (.hello hello)).1 with
          | false =>
              rw [notifyConnected_refused env hhello hconn hsend]
              exact hlost _ rfl rfl
          | true =>
              rw [notifyConnected_greeted env hhello hconn hsend]
              refine right_pump ?_
              let sent := (active.send env c (.hello hello)).2
              rcases announce_reports env c sent with ⟨hactive, hfollow⟩
              rcases flushPendingTexts_writes env (sent.announce env c) with ⟨_, _, -, hflush⟩
              have hgreeted : ((sent.announce env c).flushPendingTexts env).standing.state =
                  .active := by
                rw [hflush]
                exact hactive
              have hup : ((sent.announce env c).flushPendingTexts env).standing.link = some .up := by
                rw [hflush]
                refine hfollow.trans ?_
                show ((follow w.events).bind fun l => l.hear active.greeted) = some .up
                rw [show follow w.events = _ from hlink]
                -- a resume is only reported to a listener that knows of the gap
                exact hear_greeted w
              unfold Standing.Right
              rw [hgreeted]
              exact hup

end

end World

/-- A step leaves the listener with the right picture. -/
theorem right_step (env : Env β) {w : World β S} {s : Step β} (h : w.standing.Right)
    (hstart : s = .start → w.session.state = .connecting) : (step env w s).standing.Right := by
  have hquiet : ∀ {v : World β S}, v.standing = w.standing → v.standing.Right := by
    intro v hv
    rw [hv]
    exact h
  cases s with
  | start =>
      show (World.beginConnectWith _ env { w with started := true }).standing.Right
      rw [World.beginConnect_eq]
      exact World.right_connect env h (hstart rfl)
  | pump => exact World.right_pump h
  | stop | sendText _ | sendDtmf _ _ | modify _ => exact step_posts (P := fun v => v.standing.Right) rfl fun _ => h
  | runPosted i =>
      cases htask : w.port.posted[i]? with
      | none =>
          rw [step_runPosted_none env htask]
          exact h
      | some task =>
          rw [step_runPosted_some env htask]
          cases task with
          | teardown =>
              show (World.fire env .teardown (w.takeTask i)).standing.Right
              rw [World.fire_teardown]
              exact World.right_teardown h
          | deliverText text =>
              rcases World.deliverText_writes env (w.takeTask i) text with ⟨_, _, _, -, hwrites⟩
              refine hquiet ?_
              show ((w.takeTask i).deliverText env text).standing = w.standing
              rw [hwrites]
              rfl
          | applyModify endpoint =>
              refine hquiet ?_
              show ((w.takeTask i).applyModify env endpoint).standing = w.standing
              exact World.standing_applyModify env endpoint (w.takeTask i)
  | retryTimer =>
      by_cases hstate : w.session.state = .reconnecting
      · show (World.fire env .retryTimerFired w.takeTimer).standing.Right
        rw [World.fire_retryTimerFired env (w := w.takeTimer) hstate]
        refine World.right_connect env ?_ rfl
        -- the picture stays what it was while the fork waited
        unfold Standing.Right at h
        rw [show w.standing.state = .reconnecting from hstate] at h
        show w.standing.link = some (if w.session.reconnecting then .down else .fresh)
        rw [h.1, show w.session.reconnecting = true from h.2]
        rfl
      · show (World.fire env .retryTimerFired w.takeTimer).standing.Right
        rw [World.fire_retryTimerFired_stale env (w := w.takeTimer) hstate]
        exact h
  | onConnected c =>
      by_cases hstate : w.session.state = .connecting
      · show ((w.markConnected c).onConnected env).standing.Right
        rw [World.onConnected_connecting env (w := w.markConnected c) hstate]
        exact World.right_notifyConnected (w := w.markConnected c) env h hstate
      · show ((w.markConnected c).onConnected env).standing.Right
        rw [World.onConnected_late env (w := w.markConnected c) hstate]
        rcases World.abandonSocket_writes (w.markConnected c) with ⟨_, -, hwrites⟩
        rw [hwrites]
        exact h
  | onText c text => exact World.right_onText env text h
  | onBinary c bytes => exact hquiet (World.standing_onBinary env bytes w)
  | onClosed c connectFailed =>
      show ((w.markClosed c).onClosed env connectFailed).standing.Right
      rw [World.onClosed_eq]
      exact World.right_noteClosed_lose (w := w.markClosed c) env connectFailed h
  | pushAudio pcm =>
      rcases World.pushAudio_writes w pcm with ⟨_, _, _, _, _, hwrites⟩
      refine hquiet ?_
      show (w.pushAudio pcm).standing = w.standing
      rw [hwrites]
      rfl
  | setPaused paused => exact h
  | readPlayback count => exact h

/-! ## Whole runs -/

/-- Whatever happens to a fork, its events make sense to a listener, and the listener knows: it has
heard of no link while the first attempt is under way, it takes the fork to be up while it is active,
it knows that the fork tries again while it does, and it has heard of the end when the fork is dead. -/
theorem events_tell_standing {env : Env β} {params : ForkParams} {tuning : Tuning}
    {onFinished : Bool} {supply : SlabSupply} {w₀ w : World β S}
    (hcreate : World.create params tuning onFinished supply = some w₀)
    (hrun : Run (step env) (fun v s => contract v s = true) w₀ w) : w.standing.Right := by
  refine hrun.invariant_with (I := fun v => v.standing.Right)
    (J := fun v => v.lifecycle.Reachable onFinished) ?_ ?_ ?_
  · exact fun v hv => reachable_of_run hcreate hv
  · rcases World.create_spec hcreate with ⟨ring, path, rate, channels, -, -, -, rfl⟩
    rfl
  · intro v s hreach hv hcontract
    refine right_step env hv ?_
    rintro rfl
    -- `Start` comes once, and nothing moves the state before it
    have hbefore : v.started = false := by simpa [contract] using hcontract
    rcases hreach with hinitial | hsound
    · exact congrArg Lifecycle.state hinitial
    · exact absurd (hbefore.symm.trans hsound.started) (by simp)

namespace Sample

/-- The server refuses the first attempt. -/
def lateEnv : Env UInt8 := { env with connect := fun n => if n = 0 then .null else .returned }

/-- A refused first attempt, a retry that connects, a close, another retry, and the end. -/
def ups : List (Step UInt8) :=
  [.start, .retryTimer, .onConnected 0, .onClosed 0 false, .retryTimer, .onConnected 1, .stop,
    .runPosted 0, .onClosed 1 false]

theorem run_ups :
    Run (step lateEnv) (fun v s => contract v s = true) fork (exec (step lateEnv) fork ups) :=
  Run.of_exec (by decide +kernel)

end Sample

/-- All of it can be followed. -/
theorem events_tell_standing_sample :
    ((exec (step Sample.lateEnv) Sample.fork Sample.ups).events.map ForkEvent.type =
        [.connectFailed, .reconnecting, .resume, .reconnecting, .resume, .stop] ∧
      follow (exec (step Sample.lateEnv) Sample.fork Sample.ups).events = some .over) ∧
      (exec (step Sample.lateEnv) Sample.fork Sample.ups).standing.Right :=
  ⟨by decide +kernel, events_tell_standing Sample.create_fork Sample.run_ups⟩

end Session
end AudioFork
