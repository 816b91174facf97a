import Mathlib.Data.List.Basic
import AudioFork.Config
import AudioFork.Protocol

/-!
# Ports — what a session sees of the outside world

The interfaces of `ports.hpp`.  `Env` fixes every answer the outside can give: whether a connection
accepts the next frame, what `Connect` returns, what the clock shows and what the other users of the
slab pool do.  Each answer may depend on how many such questions were asked before, so any pattern
of answers is the pattern of some `Env`.  `Port` records what the session did to the outside.
-/

namespace AudioFork

open Protocol (JsonLib)

variable {β : Type}

inductive ForkEventType
  | connect
  | connectFailed
  | startFailed
  | reconnecting
  | resume
  | overrun
  | degraded
  | json
  | jsonError
  | disconnect
  | error
  | stop
  | playbackStart
  | playbackStop
  | playbackCleared
  | mark
  deriving DecidableEq, Repr

structure ForkEvent where
  type : ForkEventType
  callUuid : Text
  forkId : Text
  detail : Text
  gapMs : Nat
  droppedMs : Nat
  deriving DecidableEq, Repr

/-- A frame handed to `SendText` or `SendBinary`, tagged by the code path that sends it. -/
inductive Frame (β : Type)
  | hello (payload : Text)
  | resume (payload : Text)
  | audio (bytes : List β)
  | text (payload : Text)
  | bye (payload : Text)
  deriving DecidableEq, Repr

/-- A connection returned by `Connect`: what it was asked for and how far it has come. -/
structure Conn where
  endpoint : Endpoint
  maxQueuedBytes : Nat
  connected : Bool
  closeCalled : Bool
  closed : Bool
  deriving DecidableEq, Repr

/-- One call of `SendText` or `SendBinary` and its answer. -/
structure Offer (β : Type) where
  conn : Nat
  frame : Frame β
  accepted : Bool
  deriving DecidableEq, Repr

/-- What a call of `Connect` does: it returns a connection, or null, or delivers `OnClosed`
synchronously and then returns null. -/
inductive ConnectAnswer
  | returned
  | null
  | closedThenNull (connectFailed : Bool)
  deriving DecidableEq, Repr

/-- A task handed to `NetPort::Post`. -/
inductive Task
  | teardown
  | deliverText (text : Text)
  | applyModify (endpoint : Endpoint)
  deriving DecidableEq, Repr

structure Env (β : Type) where
  json : JsonLib
  /-- The answer to the `n`-th frame offered. -/
  accept : Nat → Conn → Frame β → Bool
  /-- The answer to the `n`-th `Connect`. -/
  connect : Nat → ConnectAnswer
  /-- The `n`-th reading of the clock, in nanoseconds. -/
  now : Nat → Nat
  /-- The moves of the other users of the slab pool. -/
  others : Nat → Nat → Nat

structure Port (β : Type) where
  /-- The connections returned so far; a handle is a position in this list. -/
  conns : List Conn
  /-- How often `Connect` was called. -/
  connects : Nat
  wire : List (Offer β)
  timers : Nat
  posted : List Task
  /-- The calls of `SetReceivePaused`. -/
  receivePauses : List (Nat × Bool)
  clockReads : Nat

namespace Port

def initial : Port β :=
  { conns := []
    connects := 0
    wire := []
    timers := 0
    posted := []
    receivePauses := []
    clockReads := 0 }

/-- `NetConnection::Close`. -/
def close (p : Port β) (c : Nat) : Port β :=
  { p with conns := p.conns.modify c fun k => { k with closeCalled := true } }

/-- `NetPort::Connect` returning a connection. -/
def opened (p : Port β) (endpoint : Endpoint) (maxQueuedBytes : Nat) : Port β :=
  { p with
    conns := p.conns ++
      [{ endpoint := endpoint
         maxQueuedBytes := maxQueuedBytes
         connected := false
         closeCalled := false
         closed := false }] }

end Port

/-- Whether connection `c` accepts a frame as the `n`-th one offered. -/
def Env.accepts (env : Env β) (conns : List Conn) (c n : Nat) (f : Frame β) : Bool :=
  match conns[c]? with
  | some k => env.accept n k f
  | none => false

/-- A connection is outstanding until it has delivered `OnClosed`. -/
def outstanding (conns : List Conn) (c : Nat) : Bool :=
  conns[c]?.any fun k => !k.closed

/-- `Close` was called on the connection. -/
def hungUp (conns : List Conn) (c : Nat) : Bool :=
  conns[c]?.any fun k => k.closeCalled

/-- The connection has delivered `OnConnected`. -/
def isConnected (conns : List Conn) (c : Nat) : Bool :=
  conns[c]?.any fun k => k.connected

section

variable {conns : List Conn}

theorem outstanding_iff {c : Nat} :
    outstanding conns c = true ↔ ∃ k, conns[c]? = some k ∧ k.closed = false := by
  cases h : conns[c]? <;> simp [outstanding, h]

/-- Reading a property of one connection after another one, or the same, was updated. -/
theorem any_modify (p : Conn → Bool) (f : Conn → Conn) (c i : Nat) :
    (conns.modify c f)[i]?.any p = conns[i]?.any fun k => p (if c = i then f k else k) := by
  rw [List.getElem?_modify]
  cases h : conns[i]? with
  | none => simp
  | some k => split <;> simp

/-- An update that a property does not see. -/
theorem any_modify_of_same {p : Conn → Bool} {f : Conn → Conn} (h : ∀ k, p (f k) = p k)
    (c i : Nat) : (conns.modify c f)[i]?.any p = conns[i]?.any p := by
  rw [any_modify]
  congr 1
  funext k
  split
  · exact h k
  · rfl

/-- An update that makes a property true. -/
theorem any_modify_of_set {p : Conn → Bool} {f : Conn → Conn} (h : ∀ k, p (f k) = true)
    (c i : Nat) :
    (conns.modify c f)[i]?.any p = (conns[i]?.any p || decide (c = i ∧ i < conns.length)) := by
  rw [any_modify]
  cases hi : conns[i]? with
  | none =>
      have hge : conns.length ≤ i := List.getElem?_eq_none_iff.mp hi
      simp [Nat.not_lt.mpr hge]
  | some k =>
      have hlt : i < conns.length := (List.getElem?_eq_some_iff.mp hi).1
      by_cases hc : c = i <;> simp [hc, hlt, h]

@[simp] theorem outstanding_close (c i : Nat) :
    outstanding (conns.modify c fun k => { k with closeCalled := true }) i =
      outstanding conns i := by
  refine any_modify_of_same ?_ c i
  intro k
  rfl

@[simp] theorem outstanding_connected (c i : Nat) :
    outstanding (conns.modify c fun k => { k with connected := true }) i =
      outstanding conns i := by
  refine any_modify_of_same ?_ c i
  intro k
  rfl

@[simp] theorem outstanding_closed (c i : Nat) :
    outstanding (conns.modify c fun k => { k with closed := true }) i =
      (outstanding conns i && decide (c ≠ i)) := by
  unfold outstanding
  rw [any_modify]
  cases conns[i]? with
  | none => rfl
  | some k => by_cases h : c = i <;> simp [h]

@[simp] theorem outstanding_append (k : Conn) (i : Nat) (hk : k.closed = false) :
    outstanding (conns ++ [k]) i = (outstanding conns i || decide (i = conns.length)) := by
  unfold outstanding
  rw [List.getElem?_append]
  split
  · rename_i hlt
    have hne : i ≠ conns.length := Nat.ne_of_lt hlt
    simp [hne]
  · rename_i hge
    have hnone : conns[i]? = none := List.getElem?_eq_none (Nat.le_of_not_lt hge)
    by_cases h : i = conns.length
    · simp [h, hk]
    · have hpos : i - conns.length ≠ 0 := by omega
      simp [hnone, h, hpos]

theorem outstanding_lt {c : Nat} (h : outstanding conns c = true) : c < conns.length := by
  rcases outstanding_iff.mp h with ⟨k, hk, _⟩
  exact (List.getElem?_eq_some_iff.mp hk).1

@[simp] theorem hungUp_close (c i : Nat) :
    hungUp (conns.modify c fun k => { k with closeCalled := true }) i =
      (hungUp conns i || decide (c = i ∧ i < conns.length)) :=
  any_modify_of_set (fun _ => rfl) c i

@[simp] theorem hungUp_connected (c i : Nat) :
    hungUp (conns.modify c fun k => { k with connected := true }) i = hungUp conns i := by
  refine any_modify_of_same ?_ c i
  intro k
  rfl

@[simp] theorem isConnected_connected (c i : Nat) :
    isConnected (conns.modify c fun k => { k with connected := true }) i =
      (isConnected conns i || decide (c = i ∧ i < conns.length)) :=
  any_modify_of_set (fun _ => rfl) c i

@[simp] theorem isConnected_close (c i : Nat) :
    isConnected (conns.modify c fun k => { k with closeCalled := true }) i =
      isConnected conns i := by
  refine any_modify_of_same ?_ c i
  intro k
  rfl

end

end AudioFork
