import Mathlib.Order.Basic

/-!
# State — the transition table of a fork session

`sessionTransitionFor` is the full table of `session_state.hpp`; rows that return `none` are
deliberate ignores.  Besides the table this module records what the rest of the development needs
from it:

* which actions an event can answer with, independently of the state (`action_of_*`), which is
  what bounds the recursion of the driver;
* the monotone `teardownRank`;
* that `finalize` is answered exactly on the transitions into `dead`.
-/

namespace AudioFork
namespace Session

inductive SessionState
  | connecting
  | active
  | reconnecting
  | draining
  | closing
  | dead
  deriving DecidableEq, Repr

inductive SessionEvent
  | wsConnected
  | wsError
  | teardown
  | retryTimerFired
  | drainComplete
  | closeComplete
  deriving DecidableEq, Repr

inductive SessionAction
  | none
  | notifyConnected
  | scheduleRetry
  | beginConnect
  | beginDrain
  | beginClose
  | abandonSocket
  | finalize
  deriving DecidableEq, Repr

structure SessionTransition where
  next : SessionState
  action : SessionAction
  deriving DecidableEq, Repr

/-- The transition table.  A `wsConnected` in any state but `connecting` is a socket nobody tracks
and is abandoned rather than adopted. -/
def sessionTransitionFor : SessionState → SessionEvent → SessionTransition
  | .connecting, .wsConnected => ⟨.active, .notifyConnected⟩
  | .connecting, .wsError => ⟨.reconnecting, .scheduleRetry⟩
  | .connecting, .teardown => ⟨.closing, .beginClose⟩
  | .connecting, .retryTimerFired => ⟨.connecting, .none⟩
  | .connecting, .drainComplete => ⟨.connecting, .none⟩
  | .connecting, .closeComplete => ⟨.connecting, .none⟩
  | .active, .wsConnected => ⟨.active, .abandonSocket⟩
  | .active, .wsError => ⟨.reconnecting, .scheduleRetry⟩
  | .active, .teardown => ⟨.draining, .beginDrain⟩
  | .active, .retryTimerFired => ⟨.active, .none⟩
  | .active, .drainComplete => ⟨.active, .none⟩
  | .active, .closeComplete => ⟨.active, .none⟩
  | .reconnecting, .wsConnected => ⟨.reconnecting, .abandonSocket⟩
  | .reconnecting, .teardown => ⟨.dead, .finalize⟩
  | .reconnecting, .retryTimerFired => ⟨.connecting, .beginConnect⟩
  | .reconnecting, .wsError => ⟨.reconnecting, .none⟩
  | .reconnecting, .drainComplete => ⟨.reconnecting, .none⟩
  | .reconnecting, .closeComplete => ⟨.reconnecting, .none⟩
  | .draining, .wsConnected => ⟨.draining, .abandonSocket⟩
  | .draining, .wsError => ⟨.closing, .beginClose⟩
  | .draining, .drainComplete => ⟨.closing, .beginClose⟩
  | .draining, .teardown => ⟨.draining, .none⟩
  | .draining, .retryTimerFired => ⟨.draining, .none⟩
  | .draining, .closeComplete => ⟨.draining, .none⟩
  | .closing, .wsConnected => ⟨.closing, .abandonSocket⟩
  | .closing, .wsError => ⟨.dead, .finalize⟩
  | .closing, .closeComplete => ⟨.dead, .finalize⟩
  | .closing, .teardown => ⟨.closing, .none⟩
  | .closing, .retryTimerFired => ⟨.closing, .none⟩
  | .closing, .drainComplete => ⟨.closing, .none⟩
  | .dead, .wsConnected => ⟨.dead, .abandonSocket⟩
  | .dead, .wsError => ⟨.dead, .none⟩
  | .dead, .teardown => ⟨.dead, .none⟩
  | .dead, .retryTimerFired => ⟨.dead, .none⟩
  | .dead, .drainComplete => ⟨.dead, .none⟩
  | .dead, .closeComplete => ⟨.dead, .none⟩

/-- The states in which an entry point still takes work: the first three cases of the switches in
`PushAudio`, `SendText`, `Modify` and `ApplyModify`. -/
def SessionState.live : SessionState → Bool
  | .connecting => true
  | .active => true
  | .reconnecting => true
  | .draining => false
  | .closing => false
  | .dead => false

/-- How far teardown has come: live, draining, closing, dead. -/
def SessionState.teardownRank : SessionState → Nat
  | .connecting => 0
  | .active => 0
  | .reconnecting => 0
  | .draining => 1
  | .closing => 2
  | .dead => 3

/-- How deep the driver can still recurse once it has been handed an action. -/
def SessionAction.depth : SessionAction → Nat
  | .none => 0
  | .abandonSocket => 0
  | .scheduleRetry => 0
  | .finalize => 0
  | .beginClose => 1
  | .beginDrain => 2
  | .beginConnect => 2
  | .notifyConnected => 3

/-! ## What each event can be answered with -/

/-- The actions that answer the events which an action fires. -/
def SessionAction.answers : SessionAction → List SessionAction
  | .beginClose => [.none, .finalize]
  | .beginDrain => [.none, .beginClose]
  | .beginConnect => [.none, .scheduleRetry, .beginClose, .finalize]
  | .notifyConnected => [.none, .scheduleRetry, .beginDrain, .beginClose, .finalize]
  | .none | .abandonSocket | .scheduleRetry | .finalize => []

theorem closeComplete_answer (s : SessionState) :
    (sessionTransitionFor s .closeComplete).action ∈ SessionAction.beginClose.answers := by
  cases s <;> decide

theorem drainComplete_answer (s : SessionState) :
    (sessionTransitionFor s .drainComplete).action ∈ SessionAction.beginDrain.answers := by
  cases s <;> decide

theorem wsError_answer (s : SessionState) :
    (sessionTransitionFor s .wsError).action ∈ SessionAction.beginConnect.answers := by
  cases s <;> decide

/-- A handshake that fails may end in a teardown or in an error. -/
theorem notifyConnected_answer (s : SessionState) :
    (sessionTransitionFor s .teardown).action ∈ SessionAction.notifyConnected.answers ∧
      (sessionTransitionFor s .wsError).action ∈ SessionAction.notifyConnected.answers := by
  cases s <;> decide

/-- The recursion of the driver goes down. -/
theorem depth_of_answer {a b : SessionAction} (h : b ∈ a.answers) : b.depth < a.depth := by
  cases a <;> cases b <;> simp_all [SessionAction.answers, SessionAction.depth]

/-! ## Monotonicity of teardown -/

theorem live_iff_teardownRank (s : SessionState) : s.live = true ↔ s.teardownRank = 0 := by
  cases s <;> decide

/-- `finalize` is answered on the transitions into `dead` and on no others. -/
theorem finalize_iff_enters_dead (s : SessionState) (e : SessionEvent) :
    (sessionTransitionFor s e).action = .finalize ↔
      s ≠ .dead ∧ (sessionTransitionFor s e).next = .dead := by
  cases s <;> cases e <;> decide

end Session
end AudioFork
