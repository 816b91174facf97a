import AudioFork.Session.Step

/-!
# Transitions — what firing an event amounts to

`fire` runs through the table and the recursive driver.  This module resolves the recursion once:
every event, in every state, ends in one of a handful of outcomes.

* `retry`: back to `reconnecting`, with a timer;
* `retire`: finalized and `dead`;
* `hangUp`: `closing` the current socket, or `retire` when there is none;
* `drain`: `draining` with a deadline, then a pump;
* `notifyConnected`, `connect`, `abandonSocket`: the actions of the same name.

Later modules reason about these and do not look at the table again.
-/

namespace AudioFork
namespace Session
namespace World

open Protocol

variable {β : Type} {S : ℕ+}

/-! ## Outcomes -/

def retire (w : World β S) : World β S := finalize { w with session.state := .dead }

def retry (w : World β S) : World β S :=
  scheduleRetry (emit .reconnecting []
    { w with session.state := .reconnecting, session.reconnecting := true })

def hangUp (w : World β S) : World β S :=
  match w.session.connection with
  | none => w.retire
  | some c => close { w with session.state := .closing } c

/-- `draining` from now until the deadline. -/
def startDrain (env : Env β) (w : World β S) : World β S :=
  { w with
    session.state := .draining
    session.drainDeadline :=
      some (env.now w.port.clockReads + w.session.tuning.drainTimeout * nanosPerMilli)
    port.clockReads := w.port.clockReads + 1 }

def drain (env : Env β) (w : World β S) : World β S :=
  match w.session.connection with
  | none => (w.startDrain env).retire
  | some _ => (w.startDrain env).pump env

/-- What `kWsError` does. -/
def lose (w : World β S) : World β S :=
  match w.session.state with
  | .connecting | .active => w.retry
  | .draining => w.hangUp
  | .closing => w.retire
  | .reconnecting | .dead => w

/-- What `kTeardown` does. -/
def teardown (env : Env β) (w : World β S) : World β S :=
  match w.session.state with
  | .connecting => w.hangUp
  | .active => w.drain env
  | .reconnecting => w.retire
  | .draining | .closing | .dead => w

/-! ## Resolving the recursion -/

variable (env : Env β)

theorem set_state_self {w : World β S} {s : SessionState} (h : w.session.state = s) :
    { w with session.state := s } = w := by
  subst h
  rfl

/-- One round through the table and the driver. -/
theorem fire_eq {w : World β S} {s : SessionState} (e : SessionEvent) (h : w.session.state = s) :
    fire env e w = applyBody env (apply env) (sessionTransitionFor s e).action
      { w with session.state := (sessionTransitionFor s e).next } := by
  subst h
  unfold fire fireWith
  rw [apply_eq]

/-- The rows of the table that ignore the event. -/
theorem fire_ignored {w : World β S} {s : SessionState} (e : SessionEvent)
    (h : w.session.state = s) (htable : sessionTransitionFor s e = ⟨s, .none⟩) :
    fire env e w = w := by
  rw [fire_eq env e h, htable]
  exact set_state_self h

theorem fire_closeComplete {w : World β S} (h : w.session.state = .closing) :
    fire env .closeComplete w = w.retire :=
  fire_eq env .closeComplete h

theorem hangUp_none {w : World β S} (h : w.session.connection = none) : w.hangUp = w.retire := by
  unfold hangUp
  rw [h]

theorem hangUp_some {w : World β S} {c : Nat} (h : w.session.connection = some c) :
    w.hangUp = close { w with session.state := .closing } c := by
  unfold hangUp
  rw [h]

/-- What the end of the session and a close both leave true, hanging up leaves true. -/
theorem hangUp_ends {w : World β S} {P : World β S → Prop} (hretire : P w.retire)
    (hclose : ∀ c, P (close { w with session.state := .closing } c)) : P w.hangUp := by
  cases hconn : w.session.connection with
  | none =>
      rw [hangUp_none hconn]
      exact hretire
  | some c =>
      rw [hangUp_some hconn]
      exact hclose c

/-- `BeginClose`, once the state is `closing`. -/
theorem beginClose_eq {w : World β S} (h : w.session.state = .closing) :
    beginCloseWith (apply env) w = w.hangUp := by
  unfold beginCloseWith hangUp
  cases w.session.connection with
  | none => exact fire_closeComplete env h
  | some c =>
      show w.close c = close { w with session.state := .closing } c
      rw [set_state_self h]

theorem fire_drainComplete {w : World β S} (h : w.session.state = .draining) :
    fire env .drainComplete w = w.hangUp := by
  rw [fire_eq env .drainComplete h]
  exact beginClose_eq env rfl

/-- `BeginDrain`, once the state is `draining`. -/
theorem beginDrain_eq (w : World β S) :
    beginDrainWith (apply env) env { w with session.state := .draining } = w.drain env := by
  show (match (w.startDrain env).session.connection with
    | none => fire env .drainComplete (w.startDrain env)
    | some _ => (w.startDrain env).pump env) = w.drain env
  have hconn : (w.startDrain env).session.connection = w.session.connection := rfl
  rw [hconn]
  unfold drain
  cases h : w.session.connection with
  | none =>
      show fire env .drainComplete (w.startDrain env) = (w.startDrain env).retire
      rw [fire_drainComplete env rfl, hangUp_none (hconn.trans h)]
  | some c => rfl

theorem fire_wsError (w : World β S) : fire env .wsError w = w.lose := by
  unfold lose
  cases h : w.session.state with
  | connecting => exact fire_eq env .wsError h
  | active => exact fire_eq env .wsError h
  | reconnecting => exact fire_ignored env .wsError h rfl
  | draining =>
      rw [fire_eq env .wsError h]
      exact beginClose_eq env rfl
  | closing => exact fire_eq env .wsError h
  | dead => exact fire_ignored env .wsError h rfl

theorem fire_teardown (w : World β S) : fire env .teardown w = w.teardown env := by
  unfold teardown
  cases h : w.session.state with
  | connecting =>
      rw [fire_eq env .teardown h]
      exact beginClose_eq env rfl
  | active =>
      rw [fire_eq env .teardown h]
      exact beginDrain_eq env w
  | reconnecting => exact fire_eq env .teardown h
  | draining => exact fire_ignored env .teardown h rfl
  | closing => exact fire_ignored env .teardown h rfl
  | dead => exact fire_ignored env .teardown h rfl

/-! ## Sockets coming and going -/

/-- `OnClosed` before it fires its event. -/
def noteClosed (env : Env β) (connectFailed : Bool) (w : World β S) : World β S :=
  let w := { w with session.connection := none }
  let w :=
    match w.session.disconnectedAt with
    | some _ => w
    | none =>
        match w.now env with
        | (now, w) => { w with session.disconnectedAt := some now }
  if connectFailed ∧ w.session.state = .connecting ∧ w.session.reconnecting = false then
    w.emit .connectFailed []
  else
    w

/-- `BeginConnect` after a null answer, before it fires its event. -/
def noteRefused (w : World β S) : World β S :=
  let w := { w with session.connection := none }
  if w.session.reconnecting = false then w.emit .connectFailed [] else w

/-- `BeginConnect` after `Connect` returned a connection. -/
def adopt (w : World β S) : World β S :=
  { w with
    port := w.port.opened w.session.params.endpoint (w.session.tuning.coalesceMaxBytes * 4)
    session.connection := some w.port.conns.length }

/-- `BeginConnect`. -/
def connect (env : Env β) (w : World β S) : World β S :=
  let answer := env.connect w.port.connects
  let w := { w with port.connects := w.port.connects + 1 }
  match answer with
  | .returned => w.adopt
  | .null => w.noteRefused.lose
  | .closedThenNull connectFailed => (w.noteClosed env connectFailed).lose.noteRefused.lose

theorem onClosed_eq (connectFailed : Bool) (w : World β S) :
    w.onClosed env connectFailed = (w.noteClosed env connectFailed).lose :=
  fire_wsError env (w.noteClosed env connectFailed)

theorem beginConnect_eq (w : World β S) :
    beginConnectWith (apply env) env w = w.connect env := by
  have hrefused : ∀ v : World β S,
      beginConnectWith.refused (apply env) v = v.noteRefused.lose :=
    fun v => fire_wsError env v.noteRefused
  unfold beginConnectWith connect
  cases env.connect w.port.connects with
  | returned => rfl
  | null => exact hrefused _
  | closedThenNull connectFailed =>
      show beginConnectWith.refused (apply env) (onClosed env connectFailed _) = _
      rw [hrefused, onClosed_eq]

theorem fire_retryTimerFired {w : World β S} (h : w.session.state = .reconnecting) :
    fire env .retryTimerFired w = connect env { w with session.state := .connecting } := by
  rw [fire_eq env .retryTimerFired h]
  exact beginConnect_eq env _

/-- A timer that outlived its purpose. -/
theorem fire_retryTimerFired_stale {w : World β S} (h : w.session.state ≠ .reconnecting) :
    fire env .retryTimerFired w = w := by
  cases hstate : w.session.state with
  | reconnecting => exact absurd hstate h
  | _ => exact fire_ignored env .retryTimerFired hstate rfl

/-- `kNotifyConnected`. -/
def notifyConnected (env : Env β) (w : World β S) : World β S :=
  match w.hello env with
  | none => (w.emit .error (ascii "invalid fork parameters for hello")).teardown env
  | some hello =>
      match w.session.connection with
      | none => (w.emit .error (ascii "hello could not be sent")).lose
      | some c =>
          match w.send env c (.hello hello) with
          | (false, w) => (w.emit .error (ascii "hello could not be sent")).lose
          | (true, w) => ((w.announce env c).flushPendingTexts env).pump env

theorem notifyConnected_invalid {w : World β S} (h : w.hello env = none) :
    w.notifyConnected env =
      (w.emit .error (ascii "invalid fork parameters for hello")).teardown env := by
  unfold notifyConnected
  rw [h]

theorem notifyConnected_unheld {w : World β S} {hello : Text} (h : w.hello env = some hello)
    (hconn : w.session.connection = none) :
    w.notifyConnected env = (w.emit .error (ascii "hello could not be sent")).lose := by
  unfold notifyConnected
  rw [h, hconn]

theorem notifyConnected_refused {w : World β S} {hello : Text} {c : Nat}
    (h : w.hello env = some hello) (hconn : w.session.connection = some c)
    (hsend : (w.send env c (.hello hello)).1 = false) :
    w.notifyConnected env =
      ((w.send env c (.hello hello)).2.emit .error (ascii "hello could not be sent")).lose := by
  unfold notifyConnected
  rw [h, hconn]
  simp only
  split
  · rename_i hr
    rw [hr]
  · rename_i hr
    rw [hr] at hsend
    cases hsend

theorem notifyConnected_greeted {w : World β S} {hello : Text} {c : Nat}
    (h : w.hello env = some hello) (hconn : w.session.connection = some c)
    (hsend : (w.send env c (.hello hello)).1 = true) :
    w.notifyConnected env =
      (((w.send env c (.hello hello)).2.announce env c).flushPendingTexts env).pump env := by
  unfold notifyConnected
  rw [h, hconn]
  simp only
  split
  · rename_i hr
    rw [hr] at hsend
    cases hsend
  · rename_i hr
    rw [hr]

theorem onConnected_connecting {w : World β S} (h : w.session.state = .connecting) :
    w.onConnected env = notifyConnected env { w with session.state := .active } := by
  unfold onConnected
  rw [h]
  show apply env .notifyConnected { w with session.state := .active } = _
  rw [apply_eq]
  show notifyConnectedWith (apply env) env _ = _
  have hteardown : fireWith (apply env) .teardown = teardown (S := S) env :=
    funext (fire_teardown env)
  have herror : fireWith (apply env) .wsError = lose (β := β) (S := S) :=
    funext (fire_wsError env)
  unfold notifyConnectedWith notifyConnected
  rw [hteardown, herror]
  rfl

/-- A socket that completes in any other state is abandoned. -/
theorem onConnected_late {w : World β S} (h : w.session.state ≠ .connecting) :
    w.onConnected env = w.abandonSocket := by
  unfold onConnected
  cases hstate : w.session.state with
  | connecting => exact absurd hstate h
  | _ => exact congrArg abandonSocket (set_state_self hstate)

end World
end Session
end AudioFork
