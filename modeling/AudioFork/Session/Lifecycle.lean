import AudioFork.Lib.Holdings
import AudioFork.Lib.Runs
import AudioFork.Ports
import AudioFork.Session.State

/-!
# Lifecycle — sockets, timers and teardown

What a session is for, with the audio taken out: a machine that owns at most one socket at a time,
keeps a retry timer while it has none, and once told to stop drains, closes and dies.  A `Label`
carries what the rest of the system decided: the answer of `Connect`, how the handshake went, and
whether a drain is over.
-/

namespace AudioFork
namespace Session

open Lib

structure Lifecycle where
  started : Bool
  state : SessionState
  connection : Option Nat
  conns : List Conn
  timers : Nat
  drainDeadline : Option Nat
  /-- How often the stop event was emitted. -/
  stops : Nat
  finishedRuns : Nat
  onFinished : Bool
  deriving DecidableEq, Repr

/-- How the handshake on a new socket goes: the parameters have no encoding, so the session drains;
the hello is not accepted; or it is. -/
inductive Handshake
  | invalid (deadline : Nat) (drained : Bool)
  | lost
  | done
  deriving DecidableEq, Repr

namespace Lifecycle

inductive Label
  | quiet
  | start (answer : ConnectAnswer) (endpoint : Endpoint) (maxQueuedBytes : Nat)
  | retryTimer (answer : ConnectAnswer) (endpoint : Endpoint) (maxQueuedBytes : Nat)
  | connected (c : Nat) (handshake : Handshake)
  | closed (c : Nat)
  | teardown (deadline : Nat) (drained : Bool)
  | modify
  | tick (drained : Bool)
  deriving DecidableEq, Repr

def close (c : Nat) (l : Lifecycle) : Lifecycle :=
  { l with conns := l.conns.modify c fun k => { k with closeCalled := true } }

def retire (l : Lifecycle) : Lifecycle :=
  { l with
    state := .dead
    connection := none
    stops := l.stops + 1
    finishedRuns := if l.onFinished then l.finishedRuns + 1 else l.finishedRuns
    onFinished := false }

def retry (l : Lifecycle) : Lifecycle :=
  { l with state := .reconnecting, timers := l.timers + 1 }

def hangUp (l : Lifecycle) : Lifecycle :=
  match l.connection with
  | none => l.retire
  | some c => { l.close c with state := .closing }

def abandonSocket (l : Lifecycle) : Lifecycle :=
  match l.connection with
  | none => l
  | some c => { l.close c with connection := none }

def lose (l : Lifecycle) : Lifecycle :=
  match l.state with
  | .connecting | .active => l.retry
  | .draining => l.hangUp
  | .closing => l.retire
  | .reconnecting | .dead => l

def tick (drained : Bool) (l : Lifecycle) : Lifecycle :=
  match l.state with
  | .draining => if drained then l.hangUp else l
  | _ => l

def drain (deadline : Nat) (drained : Bool) (l : Lifecycle) : Lifecycle :=
  let l := { l with state := .draining, drainDeadline := some deadline }
  match l.connection with
  | none => l.retire
  | some _ => l.tick drained

def teardown (deadline : Nat) (drained : Bool) (l : Lifecycle) : Lifecycle :=
  match l.state with
  | .connecting => l.hangUp
  | .active => l.drain deadline drained
  | .reconnecting => l.retire
  | .draining | .closing | .dead => l

def connect (answer : ConnectAnswer) (endpoint : Endpoint) (maxQueuedBytes : Nat)
    (l : Lifecycle) : Lifecycle :=
  match answer with
  | .returned =>
      { l with
        conns := l.conns ++
          [{ endpoint := endpoint
             maxQueuedBytes := maxQueuedBytes
             connected := false
             closeCalled := false
             closed := false }]
        connection := some l.conns.length }
  | .null => lose { l with connection := none }
  | .closedThenNull _ => lose { lose { l with connection := none } with connection := none }

/-- What follows a handshake, from `active`. -/
def shaken (handshake : Handshake) (l : Lifecycle) : Lifecycle :=
  match handshake with
  | .invalid deadline drained => l.drain deadline drained
  | .lost => l.retry
  | .done => l

def connected (c : Nat) (handshake : Handshake) (l : Lifecycle) : Lifecycle :=
  let l := { l with conns := l.conns.modify c fun k => { k with connected := true } }
  match l.state with
  | .connecting => { l with state := .active }.shaken handshake
  | _ => l.abandonSocket

def closed (c : Nat) (l : Lifecycle) : Lifecycle :=
  lose
    { l with
      conns := l.conns.modify c fun k => { k with closed := true }
      connection := none }

def step (l : Lifecycle) : Label → Lifecycle
  | .quiet => l
  | .start answer endpoint maxQueuedBytes =>
      { l with started := true }.connect answer endpoint maxQueuedBytes
  | .retryTimer answer endpoint maxQueuedBytes =>
      let l := { l with timers := l.timers - 1 }
      match l.state with
      | .reconnecting =>
          { l with state := .connecting }.connect answer endpoint maxQueuedBytes
      | _ => l
  | .connected c handshake => l.connected c handshake
  | .closed c => l.closed c
  | .teardown deadline drained => l.teardown deadline drained
  | .modify => if l.state.live then l.abandonSocket else l
  | .tick drained => l.tick drained

/-- The part of the contract a lifecycle can see. -/
def allows (l : Lifecycle) : Label → Bool
  | .quiet => true
  | .start _ _ _ => !l.started
  | .retryTimer _ _ _ => l.started && decide (0 < l.timers)
  | .connected c _ => l.started && l.conns[c]?.any fun k => !k.connected && !k.closed
  | .closed c => l.started && outstanding l.conns c
  | .teardown _ _ => l.started
  | .modify => l.started
  | .tick _ => l.started

/-- A fresh lifecycle, with or without a callback installed. -/
def initial (onFinished : Bool) : Lifecycle :=
  { started := false
    state := .connecting
    connection := none
    conns := []
    timers := 0
    drainDeadline := none
    stops := 0
    finishedRuns := 0
    onFinished := onFinished }

/-! ## Cases -/

variable {l : Lifecycle}

theorem hangUp_some {c : Nat} (h : l.connection = some c) :
    l.hangUp = { l.close c with state := .closing } := by
  unfold hangUp
  rw [h]

theorem abandonSocket_some {c : Nat} (h : l.connection = some c) :
    l.abandonSocket = { l.close c with connection := none } := by
  unfold abandonSocket
  rw [h]

@[simp] theorem state_abandonSocket : l.abandonSocket.state = l.state := by
  unfold abandonSocket
  split <;> rfl

theorem lose_active (h : l.state = .active) : l.lose = l.retry := by
  unfold lose
  rw [h]

theorem tick_of_not_draining (h : l.state ≠ .draining) (drained : Bool) : l.tick drained = l := by
  unfold tick
  split
  · rename_i hdraining
    exact absurd hdraining h
  · rfl

theorem drain_none (h : l.connection = none) (deadline : Nat) (drained : Bool) :
    l.drain deadline drained =
      retire { l with state := .draining, drainDeadline := some deadline } := by
  simp only [drain, h]

theorem drain_some {c : Nat} (h : l.connection = some c) (deadline : Nat) (drained : Bool) :
    l.drain deadline drained =
      tick drained { l with state := .draining, drainDeadline := some deadline } := by
  simp only [drain, h]

theorem teardown_active (h : l.state = .active) (deadline : Nat) (drained : Bool) :
    l.teardown deadline drained = l.drain deadline drained := by
  unfold teardown
  rw [h]

theorem connected_connecting (h : l.state = .connecting) (c : Nat) (handshake : Handshake) :
    l.connected c handshake =
      shaken handshake
        { l with
          conns := l.conns.modify c fun k => { k with connected := true }
          state := .active } := by
  unfold connected
  simp only
  rw [h]

theorem connected_late (h : l.state ≠ .connecting) (c : Nat) (handshake : Handshake) :
    l.connected c handshake =
      abandonSocket
        { l with conns := l.conns.modify c fun k => { k with connected := true } } := by
  unfold connected
  cases hstate : l.state with
  | connecting => exact absurd hstate h
  | active => rfl
  | reconnecting => rfl
  | draining => rfl
  | closing => rfl
  | dead => rfl

/-- What holds before a tick and of a drain hung up holds after the tick. -/
theorem tick_keeps {P : Lifecycle → Prop} (h : P l) (hclose : l.state = .draining → P l.hangUp)
    (drained : Bool) : P (l.tick drained) := by
  unfold tick
  split
  · rename_i hstate
    split
    · exact hclose hstate
    · exact h
  · exact h

theorem modify_keeps {P : Lifecycle → Prop} (h : P l)
    (habandon : l.state.live = true → P l.abandonSocket) : P (l.step .modify) := by
  simp only [step]
  split
  · rename_i hlive
    exact habandon hlive
  · exact h

/-! ## What is read off the connections -/

/-- The connection `Connect` returns. -/
def dialed (endpoint : Endpoint) (maxQueuedBytes : Nat) : Conn :=
  { endpoint := endpoint
    maxQueuedBytes := maxQueuedBytes
    connected := false
    closeCalled := false
    closed := false }

/-- The label is a call of `BeginConnect`. -/
def Label.Dials (endpoint : Endpoint) (maxQueuedBytes : Nat) (a : Label) : Prop :=
  ∃ answer, a = .start answer endpoint maxQueuedBytes ∨ a = .retryTimer answer endpoint maxQueuedBytes

section

variable {γ : Type} {f : Conn → γ} (hcall : ∀ k : Conn, f { k with closeCalled := true } = f k)

-- hanging up calls `Close`, and does nothing else to a connection
include hcall

theorem map_conns_close (c : Nat) : (l.close c).conns.map f = l.conns.map f :=
  map_modify_same hcall l.conns c

theorem map_conns_hangUp : l.hangUp.conns.map f = l.conns.map f := by
  unfold hangUp
  split
  · rfl
  · exact map_conns_close hcall _

theorem map_conns_abandonSocket : l.abandonSocket.conns.map f = l.conns.map f := by
  unfold abandonSocket
  split
  · rfl
  · exact map_conns_close hcall _

theorem map_conns_lose : l.lose.conns.map f = l.conns.map f := by
  unfold lose
  split
  · rfl
  · rfl
  · exact map_conns_hangUp hcall
  · rfl
  · rfl
  · rfl

theorem map_conns_tick (drained : Bool) : (l.tick drained).conns.map f = l.conns.map f := by
  unfold tick
  split
  · split
    · exact map_conns_hangUp hcall
    · rfl
  · rfl

theorem map_conns_drain (deadline : Nat) (drained : Bool) :
    (l.drain deadline drained).conns.map f = l.conns.map f := by
  unfold drain
  simp only
  split
  · rfl
  · exact map_conns_tick hcall _

theorem map_conns_teardown (deadline : Nat) (drained : Bool) :
    (l.teardown deadline drained).conns.map f = l.conns.map f := by
  unfold teardown
  split
  · exact map_conns_hangUp hcall
  · exact map_conns_drain hcall _ _
  · rfl
  · rfl
  · rfl
  · rfl

/-- `Connect` returns a connection or it does not. -/
theorem map_conns_connect (answer : ConnectAnswer) (endpoint : Endpoint) (maxQueuedBytes : Nat) :
    (l.connect answer endpoint maxQueuedBytes).conns.map f = l.conns.map f ∨
      (l.connect answer endpoint maxQueuedBytes).conns.map f =
        l.conns.map f ++ [f (dialed endpoint maxQueuedBytes)] := by
  cases answer with
  | returned => exact Or.inr List.map_append
  | null => exact Or.inl (map_conns_lose hcall)
  | closedThenNull connectFailed =>
      exact Or.inl ((map_conns_lose hcall).trans (map_conns_lose hcall))

theorem map_conns_connected (hup : ∀ k : Conn, f { k with connected := true } = f k) (c : Nat)
    (handshake : Handshake) : (l.connected c handshake).conns.map f = l.conns.map f := by
  have hmarked : (l.conns.modify c fun k => { k with connected := true }).map f = l.conns.map f :=
    map_modify_same hup l.conns c
  unfold connected
  simp only
  split
  · unfold shaken
    split
    · exact (map_conns_drain hcall _ _).trans hmarked
    · exact hmarked
    · exact hmarked
  · exact (map_conns_abandonSocket hcall).trans hmarked

/-- A reading that tells neither a call of `Close` nor a connection that is up changes with a step
only where `BeginConnect` opens a connection or where one closes. -/
theorem map_conns_step (hup : ∀ k : Conn, f { k with connected := true } = f k) (a : Label) :
    (l.step a).conns.map f = l.conns.map f ∨
      (∃ endpoint maxQueuedBytes, a.Dials endpoint maxQueuedBytes ∧
        (l.step a).conns.map f = l.conns.map f ++ [f (dialed endpoint maxQueuedBytes)]) ∨
      ∃ c, a = .closed c ∧
        (l.step a).conns.map f = (l.conns.modify c fun k => { k with closed := true }).map f := by
  cases a with
  | quiet => exact Or.inl rfl
  | start answer endpoint maxQueuedBytes =>
      refine (map_conns_connect hcall answer endpoint maxQueuedBytes).imp_right fun hdialed => ?_
      exact Or.inl ⟨endpoint, maxQueuedBytes, ⟨answer, Or.inl rfl⟩, hdialed⟩
  | retryTimer answer endpoint maxQueuedBytes =>
      simp only [step]
      split
      · refine (map_conns_connect hcall answer endpoint maxQueuedBytes).imp_right fun hdialed => ?_
        exact Or.inl ⟨endpoint, maxQueuedBytes, ⟨answer, Or.inr rfl⟩, hdialed⟩
      · exact Or.inl rfl
  | connected c handshake => exact Or.inl (map_conns_connected hcall hup c handshake)
  | closed c => exact Or.inr (Or.inr ⟨c, rfl, map_conns_lose hcall⟩)
  | teardown deadline drained => exact Or.inl (map_conns_teardown hcall deadline drained)
  | modify =>
      simp only [step]
      split
      · exact Or.inl (map_conns_abandonSocket hcall)
      · exact Or.inl rfl
  | tick drained => exact Or.inl (map_conns_tick hcall drained)

end

end Lifecycle

end Session
end AudioFork
