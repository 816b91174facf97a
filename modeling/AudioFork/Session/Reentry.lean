import AudioFork.Playback.Handoff
import AudioFork.Session.Step

/-!
# Reentry — `Apply` comes back, and asks the port for little

`Apply` enters itself through `BeginConnect`, `BeginDrain`, `BeginClose`, `Pump` and `OnClosed`, and the
transitions of a session run in a circle: from `connecting` to `reconnecting` and back.  No entry point
follows the circle, as the way back goes through a timer.  An action only ever fires events that are
answered by actions of smaller depth, whatever the port says.

The port is as free here as it can be: `Connect` may or may not call `OnClosed` before it returns, and
may return a connection or none after either (`ConnectReply`).  The driver of such a port is that of
`Driver` with another `BeginConnect`, and is the same where the port keeps to the three answers of
`ConnectAnswer`.
-/

namespace AudioFork
namespace Session

open Buffers Protocol Lib

variable {β : Type} {S : ℕ+}

/-! ## A port that answers anything -/

/-- What `Connect` does. -/
structure ConnectReply where
  /-- The argument of `OnClosed`, if it is called before `Connect` returns. -/
  closed : Option Bool
  /-- Whether a connection is returned. -/
  returned : Bool
  deriving DecidableEq, Repr

def ConnectReply.ofAnswer : ConnectAnswer → ConnectReply
  | .returned => { closed := none, returned := true }
  | .null => { closed := none, returned := false }
  | .closedThenNull connectFailed => { closed := some connectFailed, returned := false }

namespace World

/-- `BeginConnect`. -/
def beginConnectReplied (rec : SessionAction → World β S → World β S) (env : Env β)
    (replies : Nat → ConnectReply) (w : World β S) : World β S :=
  let reply := replies w.port.connects
  let w := { w with port.connects := w.port.connects + 1 }
  match reply.closed, reply.returned with
  | none, true => w.adopt
  | none, false => beginConnectWith.refused rec w
  | some connectFailed, true =>
      -- the session keeps a connection that has told it that it is gone
      let w := onClosedWith rec env connectFailed w
      w.adopt.markClosed w.port.conns.length
  | some connectFailed, false => beginConnectWith.refused rec (onClosedWith rec env connectFailed w)

def applyRepliedBody (env : Env β) (replies : Nat → ConnectReply)
    (rec : SessionAction → World β S → World β S) : SessionAction → World β S → World β S
  | .beginConnect, w => beginConnectReplied rec env replies w
  | a, w => applyBody env rec a w

def applyReplied (env : Env β) (replies : Nat → ConnectReply) :
    SessionAction → World β S → World β S :=
  unroll (applyRepliedBody env replies) (fun _ w => w) 4

/-- The entry points, for any driver. -/
def enter (rec : SessionAction → World β S → World β S) (env : Env β) (w : World β S) :
    Step β → World β S
  | .start => rec .beginConnect { w with started := true }
  | .pump => pumpWith rec env w
  | .runPosted i =>
      match w.port.posted[i]? with
      | none => w
      | some .teardown => fireWith rec .teardown (w.takeTask i)
      | some task => (w.takeTask i).runTask env task
  | .retryTimer => fireWith rec .retryTimerFired w.takeTimer
  | .onConnected c =>
      let transition := sessionTransitionFor w.session.state .wsConnected
      let w := { w.markConnected c with session.state := transition.next }
      if transition.action = .abandonSocket then w.abandonSocket else rec transition.action w
  | .onText c text =>
      match parseServerMessage env.json text with
      | .serverDisconnect => fireWith rec .teardown (w.emit .disconnect [])
      | _ => step env w (.onText c text)
  | .onClosed c connectFailed => onClosedWith rec env connectFailed (w.markClosed c)
  | s => step env w s

/-! ## The recursion -/

section

variable {env : Env β} {replies : Nat → ConnectReply} {f g : SessionAction → World β S → World β S}

theorem applyRepliedBody_of_ne {a : SessionAction} (h : a ≠ .beginConnect) :
    applyRepliedBody env replies f a = applyBody env f a := by
  funext w
  cases a <;> first | rfl | exact absurd rfl h

theorem applyRepliedBody_descends :
    Descends (applyRepliedBody (S := S) env replies) SessionAction.depth := by
  intro f g a h
  by_cases ha : a = .beginConnect
  · subst ha
    have herror : fireWith f .wsError = (fireWith g .wsError : World β S → World β S) :=
      fireWith_congr (fun b hb => h b (depth_of_answer hb)) wsError_answer
    funext w
    simp only [applyRepliedBody, beginConnectReplied, beginConnectWith.refused, onClosedWith, herror]
  · rw [applyRepliedBody_of_ne ha, applyRepliedBody_of_ne ha]
    exact applyBody_descends f g a h

theorem depth_lt_four (a : SessionAction) : a.depth < 4 := by
  cases a <;> decide

theorem applyReplied_eq (a : SessionAction) :
    applyReplied (S := S) env replies a =
      applyRepliedBody env replies (applyReplied env replies) a :=
  unroll_eq applyRepliedBody_descends _ depth_lt_four a

/-- A port that keeps to the answers it has. -/
theorem applyReplied_answers :
    applyReplied (S := S) env (fun n => .ofAnswer (env.connect n)) = apply env := by
  have hbody : applyRepliedBody (S := S) env (fun n => .ofAnswer (env.connect n)) = applyBody env := by
    funext rec a w
    by_cases ha : a = .beginConnect
    · subst ha
      simp only [applyRepliedBody, applyBody, beginConnectReplied, beginConnectWith]
      cases env.connect w.port.connects <;> rfl
    · rw [applyRepliedBody_of_ne ha]
  unfold applyReplied apply
  rw [hbody]

theorem enter_apply (w : World β S) (s : Step β) : enter (apply env) env w s = step env w s := by
  cases s with
  | start =>
      show apply env .beginConnect { w with started := true } = _
      rw [apply_eq]
      rfl
  | runPosted i =>
      simp only [enter, step]
      cases hposted : w.port.posted[i]? with
      | none => rfl
      | some task => cases task <;> rfl
  | onText c text =>
      simp only [enter]
      split
      · rename_i hparsed
        simp only [step, onText, hparsed, fire]
      · rfl
  | _ => rfl

end

/-! ## What an action costs -/

/-- The calls of `Connect`, the timers and the state. -/
structure Calls where
  connects : Nat
  timers : Nat
  state : SessionState

def calls (w : World β S) : Calls :=
  { connects := w.port.connects
    timers := w.port.timers
    state := w.session.state }

/-- The states in which an error schedules no retry. -/
def Settled (s : SessionState) : Prop := s ≠ .connecting ∧ s ≠ .active

instance (s : SessionState) : Decidable (Settled s) := inferInstanceAs (Decidable (_ ∧ _))

/-- From `w` to `v` with so many calls of `Connect` and `ScheduleTimer` at most, and not back to where
an error schedules a retry. -/
structure Spends (connects timers : Nat) (w v : World β S) : Prop where
  connects : v.port.connects ≤ w.port.connects + connects
  timers : v.port.timers ≤ w.port.timers + timers
  settled : Settled w.session.state → Settled v.session.state

namespace Spends

variable {c t c' t' : Nat} {u v w : World β S}

theorem of_calls (h : v.calls = w.calls) : Spends 0 0 w v where
  connects := Nat.le_of_eq (congrArg Calls.connects h)
  timers := Nat.le_of_eq (congrArg Calls.timers h)
  settled := by
    have hstate : v.session.state = w.session.state := congrArg Calls.state h
    rw [hstate]
    exact id

theorem trans (h : Spends c t w v) (h' : Spends c' t' v u) : Spends (c + c') (t + t') w u where
  connects := by
    have hfirst := h.connects
    have hsecond := h'.connects
    omega
  timers := by
    have hfirst := h.timers
    have hsecond := h'.timers
    omega
  settled := h'.settled ∘ h.settled

/-- What was done before cost nothing. -/
theorem after (h : Spends c t v u) (hsame : v.calls = w.calls) : Spends c t w u := by
  have hboth := (of_calls hsame).trans h
  rwa [Nat.zero_add, Nat.zero_add] at hboth

/-- What is done afterwards costs nothing. -/
theorem before (h : Spends c t w v) (hsame : u.calls = v.calls) : Spends c t w u :=
  h.trans (of_calls hsame)

theorem mono (h : Spends c t w v) (hc : c ≤ c') (ht : t ≤ t') : Spends c' t' w v where
  connects := h.connects.trans (Nat.add_le_add_left hc _)
  timers := h.timers.trans (Nat.add_le_add_left ht _)
  settled := h.settled

end Spends

/-! ### What costs nothing -/

section Frames

variable (env : Env β) (w : World β S)

theorem calls_emit (type : ForkEventType) (detail : Text) : (w.emit type detail).calls = w.calls := rfl

theorem calls_adopt_closed (c : Nat) : (w.adopt.markClosed c).calls = w.calls := rfl

theorem calls_pumpPlayback : w.pumpPlayback.calls = w.calls := by
  rcases pumpPlayback_local w with ⟨_, _, _, _, hwrites⟩
  rw [hwrites]
  rfl

theorem calls_moveAudio : (w.moveAudio env).calls = w.calls := by
  have hring : (w.drainHandoffRing env).calls = w.calls := by
    rcases drainHandoffRing_writes env w with ⟨_, _, _, _, _, _, _, _, _, -, hwrites⟩
    rw [hwrites]
    rfl
  exact (calls_pumpPlayback _).trans hring

theorem calls_flushToConnection : (w.flushToConnection env).calls = w.calls := by
  rcases flushToConnection_writes env w with ⟨_, _, _, _, _, -, hwrites⟩
  rw [hwrites]
  rfl

theorem calls_restoreCapIfDrained : w.restoreCapIfDrained.calls = w.calls := by
  rcases restoreCapIfDrained_writes w with ⟨_, _, _, hwrites⟩
  rw [hwrites]
  rfl

theorem calls_drainTick : (w.drainTick env).2.calls = w.calls := by
  rcases drainTick_writes env w with ⟨_, _, _, _, _, _, _, _, -, -, hwrites⟩
  rw [hwrites]
  rfl

theorem calls_noteClosed (connectFailed : Bool) : (w.noteClosed env connectFailed).calls = w.calls := by
  rcases noteClosed_writes env w connectFailed with ⟨_, _, _, -, hwrites⟩
  rw [hwrites]
  rfl

theorem calls_noteRefused : w.noteRefused.calls = w.calls := by
  rcases noteRefused_writes w with ⟨_, -, hwrites⟩
  rw [hwrites]
  rfl

theorem calls_abandonSocket : w.abandonSocket.calls = w.calls := by
  rcases abandonSocket_writes w with ⟨_, -, hwrites⟩
  rw [hwrites]
  rfl

theorem calls_finalize : w.finalize.calls = w.calls := by
  rcases finalize_writes w with ⟨_, _, -, hwrites⟩
  rw [hwrites]
  rfl

theorem calls_greet (c : Nat) : ((w.announce env c).flushPendingTexts env).calls = w.calls := by
  have htexts : ∀ v : World β S, (v.flushPendingTexts env).calls = v.calls := by
    intro v
    rcases flushPendingTexts_writes env v with ⟨_, _, -, hwrites⟩
    rw [hwrites]
    rfl
  have hannounce : (w.announce env c).calls = w.calls := by
    rcases announce_writes env w c with ⟨_, _, _, _, _, _, -, -, hwrites⟩
    rw [hwrites]
    rfl
  exact (htexts _).trans hannounce

theorem calls_playbackControl {control : PlaybackPath β S → World β S → World β S}
    (h : ∀ path, (control path w).calls = w.calls) : (w.playbackControl control).calls = w.calls := by
  unfold playbackControl
  split
  · rcases unsupported_writes w
      (ascii "playback control received but playback is not enabled") with ⟨_, -, hwrites⟩
    rw [hwrites]
    rfl
  · exact h _

theorem calls_onText {text : Text} (h : parseServerMessage env.json text ≠ .serverDisconnect) :
    (w.onText env text).calls = w.calls := by
  unfold onText
  split
  · rename_i hparsed
    exact absurd hparsed h
  · rfl
  · rfl
  · exact calls_playbackControl w fun _ => rfl
  · refine calls_playbackControl w fun path => ?_
    rcases handleClear_writes w path with ⟨_, _, hwrites⟩
    rw [hwrites]
    rfl
  · exact calls_playbackControl w fun _ => rfl

theorem calls_onBinary (bytes : List β) : (w.onBinary env bytes).calls = w.calls := by
  unfold onBinary
  split
  · rfl
  · split
    · rcases unsupported_writes w
        (ascii "inbound audio received but playback is not enabled") with ⟨_, -, hwrites⟩
      rw [hwrites]
      rfl
    · rename_i path _
      have hreceived : (w.receive env path bytes).calls = w.calls := by
        rcases receive_writes env w path bytes with ⟨_, _, _, -, hwrites⟩
        rw [hwrites]
        rfl
      exact (calls_pumpPlayback _).trans hreceived

theorem calls_sendText (text : Text) : (w.sendText text).calls = w.calls := by
  unfold sendText
  split <;> rfl

/-- The entry points that leave the driver alone. -/
theorem calls_runTask (i : Nat) {task : Task} (h : task ≠ .teardown) :
    ((w.takeTask i).runTask env task).calls = w.calls := by
  cases task with
  | teardown => exact absurd rfl h
  | deliverText text =>
      rcases deliverText_writes env (w.takeTask i) text with ⟨_, _, _, -, hwrites⟩
      show ((w.takeTask i).deliverText env text).calls = w.calls
      rw [hwrites]
      rfl
  | applyModify endpoint =>
      rcases applyModify_writes env (w.takeTask i) endpoint with ⟨_, _, _, _, _, -, hwrites⟩
      show ((w.takeTask i).applyModify env endpoint).calls = w.calls
      rw [hwrites]
      rfl

end Frames

/-! ### Action by action -/

section Costs

variable {env : Env β} {replies : Nat → ConnectReply} {c t : Nat} {w : World β S}
  {rec : SessionAction → World β S → World β S}

theorem settled_next {s : SessionState} {e : SessionEvent} (h : Settled s)
    (he : e ≠ .retryTimerFired) : Settled (sessionTransitionFor s e).next := by
  revert h he
  cases s <;> cases e <;> decide

/-- An event costs what its answer costs. -/
theorem spends_fire {e : SessionEvent} (he : e ≠ .retryTimerFired)
    (h : ∀ v, Spends c t v (rec (sessionTransitionFor w.session.state e).action v)) :
    Spends c t w (fireWith rec e w) := by
  have hanswer := h { w with session.state := (sessionTransitionFor w.session.state e).next }
  exact ⟨hanswer.connects, hanswer.timers, fun hw => hanswer.settled (settled_next hw he)⟩

theorem spends_pump
    (h : ∀ a ∈ SessionAction.beginDrain.answers, ∀ v, Spends 0 0 v (rec a v)) :
    Spends 0 0 w (pumpWith rec env w) := by
  have hmoved : Spends 0 0 w (w.drainHandoffRing env).pumpPlayback :=
    .of_calls (calls_moveAudio env w)
  unfold pumpWith
  simp only
  split
  · exact hmoved.before ((calls_restoreCapIfDrained _).trans (calls_flushToConnection env _))
  · have hticked := hmoved.before (calls_drainTick env (w.drainHandoffRing env).pumpPlayback)
    split
    · rename_i v hover
      rw [hover] at hticked
      exact hticked.trans (spends_fire (by decide) (h _ (drainComplete_answer _)))
    · rename_i v hgoing
      rw [hgoing] at hticked
      exact hticked
  · exact hmoved

theorem spends_none : Spends 0 0 w (applyReplied env replies .none w) := by
  rw [applyReplied_eq]
  exact .of_calls rfl

theorem spends_abandonSocket : Spends 0 0 w (applyReplied env replies .abandonSocket w) := by
  rw [applyReplied_eq]
  exact .of_calls (calls_abandonSocket w)

theorem spends_finalize : Spends 0 0 w (applyReplied env replies .finalize w) := by
  rw [applyReplied_eq]
  exact .of_calls (calls_finalize w)

theorem spends_scheduleRetry : Spends 0 1 w (applyReplied env replies .scheduleRetry w) := by
  rw [applyReplied_eq]
  exact ⟨Nat.le_refl _, Nat.le_refl _, id⟩

theorem spends_beginClose : Spends 0 0 w (applyReplied env replies .beginClose w) := by
  have hanswers : ∀ a ∈ SessionAction.beginClose.answers, ∀ v : World β S,
      Spends 0 0 v (applyReplied env replies a v) := by
    intro a ha v
    simp only [SessionAction.answers, List.mem_cons, List.not_mem_nil, or_false] at ha
    rcases ha with rfl | rfl
    · exact spends_none
    · exact spends_finalize
  rw [applyReplied_eq]
  show Spends 0 0 w (beginCloseWith (applyReplied env replies) w)
  unfold beginCloseWith
  split
  · exact spends_fire (by decide) (hanswers _ (closeComplete_answer _))
  · exact .of_calls rfl

theorem spends_drain_answers : ∀ a ∈ SessionAction.beginDrain.answers, ∀ v : World β S,
    Spends 0 0 v (applyReplied env replies a v) := by
  intro a ha v
  simp only [SessionAction.answers, List.mem_cons, List.not_mem_nil, or_false] at ha
  rcases ha with rfl | rfl
  · exact spends_none
  · exact spends_beginClose

theorem spends_beginDrain : Spends 0 0 w (applyReplied env replies .beginDrain w) := by
  rw [applyReplied_eq]
  show Spends 0 0 w (beginDrainWith (applyReplied env replies) env w)
  unfold beginDrainWith
  simp only [now]
  split
  · exact (spends_fire (by decide) (spends_drain_answers _ (drainComplete_answer _))).after rfl
  · exact (spends_pump spends_drain_answers).after rfl

theorem spends_teardown : Spends 0 0 w (fireWith (applyReplied env replies) .teardown w) := by
  refine spends_fire (by decide) ?_
  cases w.session.state with
  | connecting => exact fun v => spends_beginClose
  | active => exact fun v => spends_beginDrain
  | reconnecting => exact fun v => spends_finalize
  | draining => exact fun v => spends_none
  | closing => exact fun v => spends_none
  | dead => exact fun v => spends_none

theorem spends_wsError : Spends 0 1 w (fireWith (applyReplied env replies) .wsError w) := by
  have hretry : ∀ v : World β S, Spends 0 1 v (applyReplied env replies .scheduleRetry v) :=
    fun v => spends_scheduleRetry
  refine spends_fire (by decide) ?_
  cases w.session.state with
  | connecting => exact hretry
  | active => exact hretry
  | reconnecting => exact fun v => spends_none.mono (Nat.le_refl 0) (Nat.zero_le 1)
  | draining => exact fun v => spends_beginClose.mono (Nat.le_refl 0) (Nat.zero_le 1)
  | closing => exact fun v => spends_finalize.mono (Nat.le_refl 0) (Nat.zero_le 1)
  | dead => exact fun v => spends_none.mono (Nat.le_refl 0) (Nat.zero_le 1)

/-- A second error schedules nothing. -/
theorem spends_wsError_settled (h : Settled w.session.state) :
    Spends 0 0 w (fireWith (applyReplied env replies) .wsError w) := by
  refine spends_fire (by decide) ?_
  cases hstate : w.session.state with
  | connecting => exact absurd hstate h.1
  | active => exact absurd hstate h.2
  | reconnecting => exact fun v => spends_none
  | draining => exact fun v => spends_beginClose
  | closing => exact fun v => spends_finalize
  | dead => exact fun v => spends_none

/-- After an error the session is where another one schedules nothing. -/
theorem settled_wsError (w : World β S) :
    Settled (fireWith (applyReplied env replies) .wsError w).session.state := by
  have hnext : Settled (sessionTransitionFor w.session.state .wsError).next := by
    cases w.session.state <;> decide
  let v : World β S :=
    { w with session.state := (sessionTransitionFor w.session.state .wsError).next }
  have hkept : ∀ a ∈ SessionAction.beginConnect.answers,
      Settled v.session.state → Settled (applyReplied env replies a v).session.state := by
    intro a ha
    simp only [SessionAction.answers, List.mem_cons, List.not_mem_nil, or_false] at ha
    rcases ha with rfl | rfl | rfl | rfl
    · exact spends_none.settled
    · exact spends_scheduleRetry.settled
    · exact spends_beginClose.settled
    · exact spends_finalize.settled
  exact hkept _ (wsError_answer _) hnext

theorem spends_onClosed (connectFailed : Bool) :
    Spends 0 1 w (onClosedWith (applyReplied env replies) env connectFailed w) := by
  have hlost : Spends 0 1 (w.noteClosed env connectFailed)
      (onClosedWith (applyReplied env replies) env connectFailed w) := spends_wsError
  exact hlost.after (calls_noteClosed env w connectFailed)

theorem spends_refused : Spends 0 1 w (beginConnectWith.refused (applyReplied env replies) w) := by
  have hlost : Spends 0 1 w.noteRefused (beginConnectWith.refused (applyReplied env replies) w) :=
    spends_wsError
  exact hlost.after (calls_noteRefused w)

theorem spends_refused_settled (h : Settled w.session.state) :
    Spends 0 0 w (beginConnectWith.refused (applyReplied env replies) w) := by
  have hnoted : Spends 0 0 w w.noteRefused := .of_calls (calls_noteRefused w)
  have hlost : Spends 0 0 w.noteRefused (beginConnectWith.refused (applyReplied env replies) w) :=
    spends_wsError_settled (hnoted.settled h)
  exact hlost.after (calls_noteRefused w)

/-- `Connect` is called once, and of the errors it may report by `OnClosed` and by returning null only
the first schedules a retry. -/
theorem spends_beginConnect : Spends 1 1 w (applyReplied env replies .beginConnect w) := by
  let v : World β S := { w with port.connects := w.port.connects + 1 }
  have hcounted : Spends 1 0 w v := ⟨Nat.le_refl _, Nat.le_refl _, id⟩
  rw [applyReplied_eq]
  show Spends 1 1 w (beginConnectReplied (applyReplied env replies) env replies w)
  unfold beginConnectReplied
  simp only
  split
  · have hadopted : Spends 1 0 w v.adopt := hcounted.before rfl
    exact hadopted.mono (Nat.le_refl 1) (Nat.zero_le 1)
  · exact hcounted.trans spends_refused
  · rename_i connectFailed _ _
    have hclosed : Spends 0 1 v (onClosedWith (applyReplied env replies) env connectFailed v) :=
      spends_onClosed connectFailed
    exact (hcounted.trans hclosed).before (calls_adopt_closed _ _)
  · rename_i connectFailed _ _
    have hclosed : Spends 0 1 v (onClosedWith (applyReplied env replies) env connectFailed v) :=
      spends_onClosed connectFailed
    have hsettled : Settled
        (onClosedWith (applyReplied env replies) env connectFailed v).session.state :=
      settled_wsError (v.noteClosed env connectFailed)
    exact hcounted.trans (hclosed.trans (spends_refused_settled hsettled))

theorem spends_notifyConnected : Spends 0 1 w (applyReplied env replies .notifyConnected w) := by
  have hlost : ∀ v : World β S, v.calls = w.calls →
      Spends 0 1 w (fireWith (applyReplied env replies) .wsError v) :=
    fun v hv => spends_wsError.after hv
  rw [applyReplied_eq]
  show Spends 0 1 w (notifyConnectedWith (applyReplied env replies) env w)
  unfold notifyConnectedWith
  split
  · have hfailed : Spends 0 0 w (fireWith (applyReplied env replies) .teardown
        (w.emit .error (ascii "invalid fork parameters for hello"))) :=
      spends_teardown.after (calls_emit w _ _)
    exact hfailed.mono (Nat.le_refl 0) (Nat.zero_le 1)
  · split
    · exact hlost _ rfl
    · split
      · rename_i c _ v hsend
        have hv : v.calls = w.calls := congrArg (fun r => calls r.2) hsend.symm
        exact hlost _ hv
      · rename_i c _ _ v hsend
        have hv : v.calls = w.calls := congrArg (fun r => calls r.2) hsend.symm
        have hgreeted : Spends 0 0 w (pumpWith (applyReplied env replies) env
            ((v.announce env c).flushPendingTexts env)) :=
          (spends_pump spends_drain_answers).after ((calls_greet env v c).trans hv)
        exact hgreeted.mono (Nat.le_refl 0) (Nat.zero_le 1)

theorem spends_apply (env : Env β) (replies : Nat → ConnectReply) (a : SessionAction) (w : World β S) :
    Spends 1 1 w (applyReplied env replies a w) := by
  cases a with
  | beginConnect => exact spends_beginConnect
  | notifyConnected => exact spends_notifyConnected.mono (Nat.zero_le 1) (Nat.le_refl 1)
  | scheduleRetry => exact spends_scheduleRetry.mono (Nat.zero_le 1) (Nat.le_refl 1)
  | beginDrain => exact spends_beginDrain.mono (Nat.zero_le 1) (Nat.zero_le 1)
  | beginClose => exact spends_beginClose.mono (Nat.zero_le 1) (Nat.zero_le 1)
  | abandonSocket => exact spends_abandonSocket.mono (Nat.zero_le 1) (Nat.zero_le 1)
  | finalize => exact spends_finalize.mono (Nat.zero_le 1) (Nat.zero_le 1)
  | none => exact spends_none.mono (Nat.zero_le 1) (Nat.zero_le 1)

/-! ### Entry by entry -/

/-- The port's books when an entry point is called: a timer that fires is no longer pending. -/
def atEntry (w : World β S) : Step β → World β S
  | .retryTimer => w.takeTimer
  | _ => w

/-- At most one call of `Connect` and one of `ScheduleTimer`. -/
def AtMostOnce (w v : World β S) : Prop :=
  v.port.connects ≤ w.port.connects + 1 ∧ v.port.timers ≤ w.port.timers + 1

theorem Spends.atMostOnce {v : World β S} (h : Spends c t w v) (hc : c ≤ 1) (ht : t ≤ 1) :
    AtMostOnce w v :=
  ⟨(h.mono hc ht).connects, (h.mono hc ht).timers⟩

theorem atMostOnce_of_calls {v : World β S} (h : v.calls = w.calls) : AtMostOnce w v :=
  (Spends.of_calls h).atMostOnce (Nat.zero_le 1) (Nat.zero_le 1)

theorem atMostOnce_enter (env : Env β) (replies : Nat → ConnectReply) (w : World β S) (s : Step β) :
    AtMostOnce (w.atEntry s) (enter (applyReplied env replies) env w s) := by
  cases s with
  | start =>
      have hstarted := spends_apply env replies .beginConnect { w with started := true }
      exact hstarted.atMostOnce (Nat.le_refl 1) (Nat.le_refl 1)
  | pump => exact (spends_pump spends_drain_answers).atMostOnce (Nat.zero_le 1) (Nat.zero_le 1)
  | runPosted i =>
      simp only [enter]
      split
      · exact atMostOnce_of_calls rfl
      · have hteardown : Spends 0 0 w
            (fireWith (applyReplied env replies) .teardown (w.takeTask i)) :=
          spends_teardown.after rfl
        exact hteardown.atMostOnce (Nat.zero_le 1) (Nat.zero_le 1)
      · rename_i task hteardown _
        exact atMostOnce_of_calls (calls_runTask env w i fun heq => hteardown heq)
  | retryTimer =>
      -- the one event that may lead to `BeginConnect`
      exact (spends_apply env replies _ _).atMostOnce (Nat.le_refl 1) (Nat.le_refl 1)
  | onConnected conn =>
      simp only [enter]
      split
      · exact (Spends.of_calls (calls_abandonSocket _)).atMostOnce (Nat.zero_le 1) (Nat.zero_le 1)
      · exact (spends_apply env replies _ _).atMostOnce (Nat.le_refl 1) (Nat.le_refl 1)
  | onText conn text =>
      simp only [enter]
      split
      · have hteardown : Spends 0 0 w
            (fireWith (applyReplied env replies) .teardown (w.emit .disconnect [])) :=
          spends_teardown.after (calls_emit w _ _)
        exact hteardown.atMostOnce (Nat.zero_le 1) (Nat.zero_le 1)
      · rename_i hother
        exact atMostOnce_of_calls (calls_onText env w fun heq => hother heq)
  | onClosed conn connectFailed =>
      have hclosed : Spends 0 1 w
          (onClosedWith (applyReplied env replies) env connectFailed (w.markClosed conn)) :=
        (spends_onClosed connectFailed).after rfl
      exact hclosed.atMostOnce (Nat.zero_le 1) (Nat.le_refl 1)
  | stop => exact atMostOnce_of_calls rfl
  | sendText text => exact atMostOnce_of_calls (calls_sendText w text)
  | sendDtmf digit durationMs =>
      refine atMostOnce_of_calls ?_
      simp only [enter, step, sendDtmf]
      split
      · rfl
      · exact calls_sendText w _
  | modify endpoint =>
      refine atMostOnce_of_calls ?_
      simp only [enter, step, modify]
      split <;> rfl
  | onBinary conn bytes => exact atMostOnce_of_calls (calls_onBinary env w bytes)
  | pushAudio pcm =>
      refine atMostOnce_of_calls ?_
      simp only [enter, step]
      rcases pushAudio_writes w pcm with ⟨_, _, _, _, _, hwrites⟩
      rw [hwrites]
      rfl
  | setPaused paused => exact atMostOnce_of_calls rfl
  | readPlayback count => exact atMostOnce_of_calls rfl

end Costs

end World

/-! ## The loops of a pump -/

/-- Each round of `FlushToConnection` that is not its last takes at least a byte off the buffer. -/
theorem Flush.loop_ends (accepts : Nat → Frame β → Bool) (c coalesceMaxBytes : Nat)
    {fuel fuel' sentThisTick : Nat} {f : Flush β S} (h : f.outbound.buffer.size < fuel)
    (h' : f.outbound.buffer.size < fuel') :
    Flush.loop accepts c coalesceMaxBytes fuel sentThisTick f =
      Flush.loop accepts c coalesceMaxBytes fuel' sentThisTick f := by
  induction fuel generalizing fuel' sentThisTick f with
  | zero => exact absurd h (Nat.not_lt_zero _)
  | succ fuel ih =>
      cases fuel' with
      | zero => exact absurd h' (Nat.not_lt_zero _)
      | succ fuel' =>
          by_cases hmore : f.more coalesceMaxBytes sentThisTick
          · cases hanswer : accepts f.wire.length
              (.audio (f.outbound.buffer.peek (coalesceMaxBytes - sentThisTick))) with
            | false => rw [Flush.loop_refused hmore hanswer, Flush.loop_refused hmore hanswer]
            | true =>
                have hless := Flush.size_taken (c := c) hmore
                rw [Flush.loop_taken hmore hanswer, Flush.loop_taken hmore hanswer]
                apply ih
                · exact Nat.lt_of_lt_of_le hless (Nat.le_of_lt_succ h)
                · exact Nat.lt_of_lt_of_le hless (Nat.le_of_lt_succ h')
          · rw [Flush.loop_done hmore, Flush.loop_done hmore]

/-- Each round of `DrainHandoffRing` that is not its last takes something out of the ring. -/
theorem Drain.loop_ends (others : Nat → Nat → Nat) (params : ForkParams) (tuning : Tuning)
    {fuel fuel' : Nat} {d : Drain β S} (h : d.outbound.ring.size ≤ fuel)
    (h' : d.outbound.ring.size ≤ fuel') :
    Drain.loop others params tuning fuel d = Drain.loop others params tuning fuel' d := by
  induction fuel generalizing fuel' d with
  | zero =>
      have hring : d.outbound.ring.bytes = [] := List.length_eq_zero_iff.mp (Nat.le_zero.mp h)
      rw [Drain.loop_empty _ hring, Drain.loop_empty _ hring]
  | succ fuel ih =>
      by_cases hring : d.outbound.ring.bytes = []
      · rw [Drain.loop_empty _ hring, Drain.loop_empty _ hring]
      · have hless := World.drain_round_size others params tuning hring
        cases fuel' with
        | zero => exact absurd (List.length_eq_zero_iff.mp (Nat.le_zero.mp h')) hring
        | succ fuel' =>
            rw [Drain.loop_round _ hring, Drain.loop_round _ hring]
            exact ih (by omega) (by omega)

/-- Whatever the port answers, `Apply` comes back: its recursion is at most four deep and has one
solution, the loops of a pump end after as many rounds as there are bytes, and an entry point calls
`Connect` at most once and `ScheduleTimer` at most once. -/
theorem apply_terminates_and_dials_once (env : Env β) (replies : Nat → ConnectReply) :
    (∀ base n, 4 ≤ n → unroll (World.applyRepliedBody env replies) base n =
        (World.applyReplied env replies : SessionAction → World β S → World β S)) ∧
      (∀ a (w : World β S), World.applyReplied env replies a w =
        World.applyRepliedBody env replies (World.applyReplied env replies) a w) ∧
      (∀ f : SessionAction → World β S → World β S,
        (∀ a, f a = World.applyRepliedBody env replies f a) → f = World.applyReplied env replies) ∧
      (∀ (w : World β S) c fuel,
        (w.session.outbound.buffer.size < fuel →
          Flush.loop (env.accepts w.port.conns c) c w.session.tuning.coalesceMaxBytes fuel 0
              { outbound := w.session.outbound, supply := w.supply, wire := w.port.wire } =
            Flush.loop (env.accepts w.port.conns c) c w.session.tuning.coalesceMaxBytes
              (w.session.outbound.buffer.size + 1) 0
              { outbound := w.session.outbound, supply := w.supply, wire := w.port.wire }) ∧
        (w.session.outbound.ring.size ≤ fuel →
          Drain.loop env.others w.session.params w.session.tuning fuel
              { outbound := w.session.outbound, supply := w.supply, events := w.events } =
            Drain.loop env.others w.session.params w.session.tuning w.session.outbound.ring.size
              { outbound := w.session.outbound, supply := w.supply, events := w.events }) ∧
        ∀ path, w.session.playback.path = some path → path.jitter.size ≤ fuel →
          path.transfer w.session.tuning.playbackHandoffBytes fuel w.supply =
            path.transfer w.session.tuning.playbackHandoffBytes path.jitter.size w.supply) ∧
      (∀ a (w : World β S), World.AtMostOnce w (World.applyReplied env replies a w)) ∧
      (∀ (w : World β S) s, World.AtMostOnce (w.atEntry s)
        (World.enter (World.applyReplied env replies) env w s)) ∧
      ∀ (w : World β S) s, World.AtMostOnce (w.atEntry s) (step env w s) := by
  refine ⟨?_, ?_, ?_, ?_, ?_, ?_, ?_⟩
  · intro base n hn
    funext a
    have hdepth := World.depth_lt_four a
    exact unroll_stable World.applyRepliedBody_descends _ _ n 4 a (Nat.lt_of_lt_of_le hdepth hn) hdepth
  · intro a w
    exact congrFun (World.applyReplied_eq a) w
  · intro f hf
    funext a
    exact eq_unroll World.applyRepliedBody_descends _ hf 4 a (World.depth_lt_four a)
  · intro w c fuel
    refine ⟨?_, ?_, ?_⟩
    · intro hfuel
      exact Flush.loop_ends _ c _ hfuel (Nat.lt_succ_self _)
    · intro hfuel
      exact Drain.loop_ends _ _ _ hfuel (Nat.le_refl _)
    · intro path _ hfuel
      exact (path.transfer_ends _ w.supply hfuel).1
  · intro a w
    exact (World.spends_apply env replies a w).atMostOnce (Nat.le_refl 1) (Nat.le_refl 1)
  · intro w s
    exact World.atMostOnce_enter env replies w s
  · intro w s
    have hentry := World.atMostOnce_enter env (fun n => .ofAnswer (env.connect n)) w s
    rw [World.applyReplied_answers, World.enter_apply] at hentry
    exact hentry

namespace Sample

/-- Every `Connect` calls `OnClosed` and returns a connection all the same. -/
def closedAndReturned : Nat → ConnectReply := fun _ => { closed := some true, returned := true }

end Sample

/-- The connection is gone before `Start` has it: one call of `Connect`, one retry, no second attempt. -/
theorem start_closed_and_returned :
    let v := World.enter (World.applyReplied Sample.env Sample.closedAndReturned) Sample.env
      Sample.fork .start
    v.port.connects = 1 ∧ v.port.timers = 1 ∧ v.session.state = .reconnecting ∧
      v.session.connection = some 0 ∧ World.AtMostOnce Sample.fork v ∧
      unroll (World.applyRepliedBody Sample.env Sample.closedAndReturned) (fun _ w => w) 5 =
        (World.applyReplied Sample.env Sample.closedAndReturned :
          SessionAction → World UInt8 Sample.slabBytes → World UInt8 Sample.slabBytes) := by
  intro v
  have hall := apply_terminates_and_dials_once (S := Sample.slabBytes) Sample.env
    Sample.closedAndReturned
  exact ⟨by decide +kernel, by decide +kernel, by decide +kernel, by decide +kernel,
    hall.2.2.2.2.2.1 Sample.fork .start, hall.1 _ 5 (by decide)⟩

end Session
end AudioFork
