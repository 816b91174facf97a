import AudioFork.Session.Answers

/-!
# Handles — no frame goes to a connection that was given up

A session keeps a connection as a bare pointer, and every callback may be the last one of it.
`Held` is what a held connection can be relied on for: it is the newest one, it has not delivered
`OnClosed`, and once `Close` was called on it the session is `closing`, a state that sends nothing.

So nobody can tell from a session how a connection that was hung up, or that is gone, would answer.
-/

namespace AudioFork
namespace Session

open Lib Buffers Protocol

variable {β : Type} {S : ℕ+}

theorem hungUp_append (conns : List Conn) {k : Conn} (hk : k.closeCalled = false) {i : Nat}
    (hi : conns.length ≤ i) : hungUp (conns ++ [k]) i = false := by
  unfold hungUp
  rw [List.getElem?_append_right hi]
  cases i - conns.length with
  | zero => exact hk
  | succ n => rfl

namespace Lifecycle

variable {l : Lifecycle}

/-- The connection held is the newest one, and it was told to close only if the session is
`closing`.  A dead session holds none. -/
def Held (l : Lifecycle) : Prop :=
  ∀ c, l.connection = some c →
    c + 1 = l.conns.length ∧ l.state ≠ .dead ∧ (hungUp l.conns c = true → l.state = .closing)

theorem held_of_none (h : l.connection = none) : l.Held := by
  intro c hc
  rw [h] at hc
  cases hc

/-- In a state other than `closing` the connection held was not told to close. -/
theorem Held.kept (h : l.Held) (hstate : l.state ≠ .closing) {c : Nat} (hc : l.connection = some c) :
    hungUp l.conns c = false := by
  rw [← Bool.not_eq_true]
  exact fun hhung => hstate ((h c hc).2.2 hhung)

theorem Held.none_of_dead (h : l.Held) (hdead : l.state = .dead) : l.connection = none := by
  cases hc : l.connection with
  | none => rfl
  | some c => exact absurd hdead (h c hc).2.1

/-- A change of state alone. -/
theorem Held.moved (h : l.Held) (hstate : l.state ≠ .closing) {l' : Lifecycle}
    (hconn : l'.connection = l.connection) (hconns : l'.conns = l.conns) (hdead : l'.state ≠ .dead) :
    l'.Held := by
  intro c hc
  rw [hconn] at hc
  rw [hconns]
  refine ⟨(h c hc).1, hdead, ?_⟩
  rw [h.kept hstate hc]
  nofun

theorem held_retire : l.retire.Held := held_of_none rfl

theorem held_abandonSocket : l.abandonSocket.Held := by
  unfold abandonSocket
  split
  · rename_i hnone
    exact held_of_none hnone
  · exact held_of_none rfl

theorem Held.hangUp (h : l.Held) : l.hangUp.Held := by
  unfold Lifecycle.hangUp
  split
  · exact held_retire
  · intro a ha
    refine ⟨?_, nofun, fun _ => rfl⟩
    show a + 1 = (l.conns.modify _ _).length
    rw [List.length_modify]
    exact (h a ha).1

theorem held_lose (h : l.connection = none) : l.lose.Held := by
  unfold lose
  split
  · exact held_of_none h
  · exact held_of_none h
  · exact (held_of_none h).hangUp
  · exact held_retire
  · exact held_of_none h
  · exact held_of_none h

theorem Held.tick (h : l.Held) (drained : Bool) : (l.tick drained).Held := by
  exact tick_keeps h (fun _ => h.hangUp) drained

theorem Held.drain (h : l.Held) (hstate : l.state ≠ .closing) (deadline : Nat) (drained : Bool) :
    (l.drain deadline drained).Held := by
  have hdraining : Held { l with state := .draining, drainDeadline := some deadline } :=
    h.moved hstate rfl rfl nofun
  unfold Lifecycle.drain
  simp only
  split
  · exact held_retire
  · exact hdraining.tick drained

theorem held_connect (hstate : l.state = .connecting) (answer : ConnectAnswer) (endpoint : Endpoint)
    (maxQueuedBytes : Nat) : (l.connect answer endpoint maxQueuedBytes).Held := by
  unfold connect
  cases answer with
  | null => exact held_lose rfl
  | closedThenNull connectFailed => exact held_lose rfl
  | returned =>
      intro c hc
      cases hc
      refine ⟨by simp, by simp [hstate], ?_⟩
      simp only
      rw [hungUp_append l.conns rfl (Nat.le_refl _)]
      nofun

theorem Held.connected (h : l.Held) (c : Nat) (handshake : Handshake) :
    (l.connected c handshake).Held := by
  by_cases hstate : l.state = .connecting
  · have hactive : Held
        { l with
          conns := l.conns.modify c fun k => { k with connected := true }
          state := .active } := by
      intro a ha
      refine ⟨by rw [List.length_modify]; exact (h a ha).1, nofun, ?_⟩
      rw [hungUp_connected, h.kept (by rw [hstate]; nofun) ha]
      nofun
    rw [connected_connecting hstate]
    cases handshake with
    | invalid deadline drained => exact hactive.drain nofun deadline drained
    | lost => exact hactive.moved nofun rfl rfl nofun
    | done => exact hactive
  · rw [connected_late hstate]
    exact held_abandonSocket

theorem Held.step (h : l.Held) {a : Label}
    (hstart : ∀ answer endpoint maxQueuedBytes, a = .start answer endpoint maxQueuedBytes →
      l.state = .connecting) : (l.step a).Held := by
  cases a with
  | quiet => exact h
  | start answer endpoint maxQueuedBytes =>
      exact held_connect (l := { l with started := true }) (hstart _ _ _ rfl) answer endpoint
        maxQueuedBytes
  | retryTimer answer endpoint maxQueuedBytes =>
      simp only [Lifecycle.step]
      split
      · exact held_connect rfl answer endpoint maxQueuedBytes
      · exact h
  | connected c handshake => exact h.connected c handshake
  | closed c => exact held_lose rfl
  | teardown deadline drained =>
      simp only [Lifecycle.step, Lifecycle.teardown]
      split <;> rename_i hstate
      · exact h.hangUp
      · exact h.drain (by simp [hstate]) deadline drained
      · exact held_retire
      all_goals exact h
  | modify => exact modify_keeps h fun _ => held_abandonSocket
  | tick drained => exact h.tick drained

end Lifecycle

/-! ## What becomes of the connections

A step notes what a connection reports, then it may call `Close`, or dial a new connection. -/

/-- From `conns` to `conns'`, `Close` was called and connections were dialed. -/
structure Later (conns conns' : List Conn) : Prop where
  kept : ∀ (c : Nat) (k : Conn), conns[c]? = some k →
    ∃ called, (k.closeCalled = true → called = true) ∧
      conns'[c]? = some { k with closeCalled := called }
  fresh : ∀ (c : Nat) (k : Conn), conns.length ≤ c → conns'[c]? = some k →
    k.connected = false ∧ k.closed = false

namespace Later

variable {conns conns' conns'' : List Conn}

theorem refl (conns : List Conn) : Later conns conns where
  kept := fun _ k hk => ⟨k.closeCalled, id, hk⟩
  fresh := by
    intro c k hc hk
    rw [List.getElem?_eq_none hc] at hk
    cases hk

theorem trans (h : Later conns conns') (h' : Later conns' conns'') : Later conns conns'' where
  kept := by
    intro c k hk
    rcases h.kept c k hk with ⟨called, hcalled, hk'⟩
    rcases h'.kept c _ hk' with ⟨called', hcalled', hk''⟩
    exact ⟨called', hcalled' ∘ hcalled, hk''⟩
  fresh := by
    intro c k hc hk
    cases hbefore : conns'[c]? with
    | none => exact h'.fresh c k (List.getElem?_eq_none_iff.mp hbefore) hk
    | some k' =>
        rcases h'.kept c k' hbefore with ⟨called, -, hk'⟩
        rw [hk] at hk'
        cases hk'
        exact h.fresh c k' hc hbefore

theorem length_le (h : Later conns conns') : conns.length ≤ conns'.length := by
  by_contra hlt
  have hlast := Nat.lt_of_not_le hlt
  rcases h.kept conns'.length conns[conns'.length] (List.getElem?_eq_getElem hlast) with ⟨_, -, hk⟩
  rw [List.getElem?_eq_none (Nat.le_refl _)] at hk
  cases hk

end Later

namespace Lifecycle

variable {l : Lifecycle}

theorem later_close (c : Nat) : Later l.conns (l.close c).conns where
  kept := by
    intro a k hk
    refine ⟨k.closeCalled || decide (c = a), fun h => by rw [h]; rfl, ?_⟩
    show (l.conns.modify c _)[a]? = _
    rw [List.getElem?_modify, hk]
    by_cases ha : c = a
    · simp [ha]
    · simp [ha]
  fresh := by
    intro a k ha hk
    have hnone : (l.close c).conns[a]? = none := by
      rw [List.getElem?_eq_none_iff]
      show (l.conns.modify c _).length ≤ a
      rwa [List.length_modify]
    rw [hnone] at hk
    cases hk

theorem later_dialed (endpoint : Endpoint) (maxQueuedBytes : Nat) :
    Later l.conns (l.conns ++ [dialed endpoint maxQueuedBytes]) where
  kept := by
    intro c k hk
    refine ⟨k.closeCalled, id, ?_⟩
    rw [List.getElem?_append_left (List.getElem?_eq_some_iff.mp hk).1]
    exact hk
  fresh := by
    intro c k hc hk
    rw [List.getElem?_append_right hc] at hk
    rw [List.mem_singleton.mp (List.mem_of_getElem? hk)]
    exact ⟨rfl, rfl⟩

theorem later_hangUp : Later l.conns l.hangUp.conns := by
  unfold hangUp
  split
  · exact .refl _
  · exact later_close _

theorem later_abandonSocket : Later l.conns l.abandonSocket.conns := by
  unfold abandonSocket
  split
  · exact .refl _
  · exact later_close _

theorem later_lose : Later l.conns l.lose.conns := by
  unfold lose
  split
  · exact .refl _
  · exact .refl _
  · exact later_hangUp
  · exact .refl _
  · exact .refl _
  · exact .refl _

theorem later_tick (drained : Bool) : Later l.conns (l.tick drained).conns := by
  unfold tick
  split
  · split
    · exact later_hangUp
    · exact .refl _
  · exact .refl _

theorem later_drain (deadline : Nat) (drained : Bool) :
    Later l.conns (l.drain deadline drained).conns := by
  unfold drain
  simp only
  split
  · exact .refl _
  · exact later_tick (l := { l with state := .draining, drainDeadline := some deadline }) drained

theorem later_connect (answer : ConnectAnswer) (endpoint : Endpoint) (maxQueuedBytes : Nat) :
    Later l.conns (l.connect answer endpoint maxQueuedBytes).conns := by
  cases answer with
  | returned => exact later_dialed endpoint maxQueuedBytes
  | null => exact later_lose (l := { l with connection := none })
  | closedThenNull connectFailed =>
      exact (later_lose (l := { l with connection := none })).trans
        (later_lose (l := { lose { l with connection := none } with connection := none }))

/-- The connections as the port notes them before the session acts. -/
def noted (l : Lifecycle) : Label → List Conn
  | .connected c _ => l.conns.modify c fun k => { k with connected := true }
  | .closed c => l.conns.modify c fun k => { k with closed := true }
  | _ => l.conns

theorem later_step (a : Label) : Later (l.noted a) (l.step a).conns := by
  cases a with
  | quiet => exact .refl _
  | start answer endpoint maxQueuedBytes =>
      exact later_connect (l := { l with started := true }) answer endpoint maxQueuedBytes
  | retryTimer answer endpoint maxQueuedBytes =>
      simp only [step]
      split
      · exact later_connect (l := { l with timers := l.timers - 1, state := .connecting }) answer
          endpoint maxQueuedBytes
      · exact .refl _
  | connected c handshake =>
      let up : Lifecycle := { l with conns := l.conns.modify c fun k => { k with connected := true } }
      show Later up.conns (l.connected c handshake).conns
      by_cases hstate : l.state = .connecting
      · rw [connected_connecting hstate]
        cases handshake with
        | invalid deadline drained =>
            exact later_drain (l := { up with state := .active }) deadline drained
        | lost => exact .refl _
        | done => exact .refl _
      · rw [connected_late hstate]
        exact later_abandonSocket (l := up)
  | closed c =>
      exact later_lose
        (l := { l with
          conns := l.conns.modify c fun k => { k with closed := true }
          connection := none })
  | teardown deadline drained =>
      simp only [step, teardown]
      split
      · exact later_hangUp
      · exact later_drain deadline drained
      all_goals exact .refl _
  | modify =>
      simp only [step]
      split
      · exact later_abandonSocket
      · exact .refl _
  | tick drained => exact later_tick drained

end Lifecycle

theorem conns_preamble (env : Env β) (w : World β S) (s : Step β) :
    (preamble w s).port.conns = w.lifecycle.noted (label env w s) := by
  cases s with
  | retryTimer =>
      simp only [preamble]
      split <;> rfl
  | runPosted i =>
      simp only [preamble, label]
      cases w.port.posted[i]? with
      | none => rfl
      | some task => cases task <;> rfl
  | onText c text =>
      simp only [preamble, label]
      cases parseServerMessage env.json text <;> rfl
  | _ => rfl

/-- After the port's note, a step calls `Close` or dials. -/
theorem later_conns_step (env : Env β) (w : World β S) (s : Step β) :
    Later (preamble w s).port.conns (step env w s).port.conns := by
  have hlater := Lifecycle.later_step (l := w.lifecycle) (label env w s)
  rw [← lifecycle_step, ← conns_preamble] at hlater
  exact hlater

/-! ## Runs -/

theorem held_create {params : ForkParams} {tuning : Tuning} {onFinished : Bool} {supply : SlabSupply}
    {w : World β S} (hcreate : World.create params tuning onFinished supply = some w) :
    w.lifecycle.Held := by
  rw [lifecycle_create hcreate]
  exact Lifecycle.held_of_none rfl

theorem held_of_run {env : Env β} {params : ForkParams} {tuning : Tuning} {onFinished : Bool}
    {supply : SlabSupply} {w₀ w : World β S}
    (hcreate : World.create params tuning onFinished supply = some w₀)
    (hrun : Run (step env) (fun v s => contract v s = true) w₀ w) : w.lifecycle.Held := by
  refine hrun.invariant_with (I := fun v => v.lifecycle.Held)
    (fun _ hv => reachable_of_run hcreate hv) (held_create hcreate) ?_
  intro v s hreachable hheld hcontract
  rw [lifecycle_step]
  refine hheld.step ?_
  intro answer endpoint maxQueuedBytes hlabel
  have hallows : v.lifecycle.allows (label env v s) = true := allows_of_contract hcontract
  rw [hlabel] at hallows
  rcases hreachable with hinit | hsound
  · rw [hinit]
    rfl
  · simp [Lifecycle.allows, hsound.started] at hallows

/-- A connection that can be relied on: it has not delivered `OnClosed` and was not told to close. -/
def Usable (conns : List Conn) (c : Nat) : Prop :=
  outstanding conns c = true ∧ hungUp conns c = false

/-- Before a step asks, the port notes an `OnConnected` at most, or the connection that closes. -/
theorem usable_preamble {w : World β S} {s : Step β} {c : Nat} (h : Usable w.port.conns c)
    (hclosed : ∀ a connectFailed, s ≠ .onClosed a connectFailed) :
    Usable (preamble w s).port.conns c := by
  cases s with
  | onConnected a =>
      exact ⟨(outstanding_connected a c).trans h.1, (hungUp_connected a c).trans h.2⟩
  | onClosed a connectFailed => exact absurd rfl (hclosed a connectFailed)
  | retryTimer =>
      simp only [preamble]
      split <;> exact h
  | runPosted i =>
      simp only [preamble]
      split <;> exact h
  | _ => exact h

theorem connection_preamble (w : World β S) (s : Step β) :
    (preamble w s).session.connection = w.session.connection := by
  cases s with
  | retryTimer =>
      simp only [preamble]
      split <;> rfl
  | runPosted i =>
      simp only [preamble]
      split <;> rfl
  | _ => rfl

theorem wire_preamble (w : World β S) (s : Step β) : (preamble w s).port.wire = w.port.wire := by
  cases s with
  | retryTimer =>
      simp only [preamble]
      split <;> rfl
  | runPosted i =>
      simp only [preamble]
      split <;> rfl
  | _ => rfl

/-- The preamble notes nothing about `Close`, and dials nothing. -/
theorem preamble_conns (w : World β S) (s : Step β) :
    (preamble w s).port.conns.length = w.port.conns.length ∧
      ∀ c, hungUp (preamble w s).port.conns c = hungUp w.port.conns c := by
  cases s with
  | onConnected a => exact ⟨List.length_modify _ _ _, hungUp_connected a⟩
  | onClosed a connectFailed =>
      refine ⟨List.length_modify _ _ _, ?_⟩
      exact any_modify_of_same (f := fun k : Conn => { k with closed := true }) (fun _ => rfl) a
  | retryTimer =>
      simp only [preamble]
      split <;> exact ⟨rfl, fun _ => rfl⟩
  | runPosted i =>
      simp only [preamble]
      split <;> exact ⟨rfl, fun _ => rfl⟩
  | _ => exact ⟨rfl, fun _ => rfl⟩

/-- What a step offers goes to the newest connection. -/
theorem offers_newest {env : Env β} {w : World β S} {s : Step β} (hheld : w.lifecycle.Held)
    {offers : List (Offer β)}
    (h : World.Consults env (preamble w s) (fun e => step e w s) offers) :
    ∀ o ∈ offers, o.conn + 1 = w.port.conns.length := by
  intro o ho
  exact (hheld o.conn ((connection_preamble w s).symm.trans (h.held o ho))).1

/-- What a step asks, it asks of a connection that can be relied on. -/
theorem asks_usable {env : Env β} {params : ForkParams} {tuning : Tuning} {onFinished : Bool}
    {supply : SlabSupply} {w₀ w : World β S}
    (hcreate : World.create params tuning onFinished supply = some w₀)
    (hrun : Run (step env) (fun v s => contract v s = true) w₀ w) (s : Step β) :
    ∃ offers, World.Consults env (preamble w s) (fun e => step e w s) offers ∧
      ∀ o ∈ offers, Usable (preamble w s).port.conns o.conn := by
  rcases consults_step env w s with ⟨offers, hconsults, hstate⟩
  refine ⟨offers, hconsults, ?_⟩
  intro o ho
  rcases hstate (List.ne_nil_of_mem ho) with ⟨hclosing, hclosed⟩
  have hconn : w.session.connection = some o.conn :=
    (connection_preamble w s).symm.trans (hconsults.held o ho)
  refine usable_preamble ⟨?_, ?_⟩ hclosed
  · rcases reachable_of_run hcreate hrun with hinit | hsound
    · have hnone : w.session.connection = none := congrArg Lifecycle.connection hinit
      rw [hnone] at hconn
      cases hconn
    · exact hsound.current _ hconn
  · exact (held_of_run hcreate hrun).kept hclosing hconn

theorem accepts_of_usable {env : Env β} {answers : Nat → Conn → Frame β → Bool}
    (hsame : ∀ n k f, k.closeCalled = false → k.closed = false → answers n k f = env.accept n k f)
    {conns : List Conn} {c : Nat} (h : Usable conns c) (n : Nat) (f : Frame β) :
    (env.answering answers).accepts conns c n f = env.accepts conns c n f := by
  rcases outstanding_iff.mp h.1 with ⟨k, hk, hopen⟩
  have hkept : k.closeCalled = false := by
    have hhung := h.2
    unfold hungUp at hhung
    rwa [hk] at hhung
  unfold Env.accepts
  rw [hk]
  exact hsame n k f hkept hopen

/-- Whatever a connection would answer after `Close` or `OnClosed`, it makes no difference: every run
of a session is also a run with any other such answers.  And each frame a further step offers goes to
a connection that is neither hung up nor gone. -/
theorem given_up_never_asked {env : Env β} {answers : Nat → Conn → Frame β → Bool}
    {params : ForkParams} {tuning : Tuning} {onFinished : Bool} {supply : SlabSupply}
    {w₀ w : World β S}
    (hsame : ∀ n k f, k.closeCalled = false → k.closed = false → answers n k f = env.accept n k f)
    (hcreate : World.create params tuning onFinished supply = some w₀)
    (hrun : Run (step env) (fun v s => contract v s = true) w₀ w) :
    Run (step (env.answering answers)) (fun v s => contract v s = true) w₀ w ∧
      ∀ s, ∃ offers, (step env w s).port.wire = w.port.wire ++ offers ∧
        ∀ o ∈ offers, outstanding (preamble w s).port.conns o.conn = true ∧
          hungUp (preamble w s).port.conns o.conn = false := by
  constructor
  · induction hrun with
    | refl => exact .refl
    | tail s hprev hcontract ih =>
        rcases asks_usable hcreate hprev s with ⟨offers, hconsults, husable⟩
        rw [← hconsults.only answers ?_]
        · exact .tail s ih hcontract
        · intro i o ho
          rw [accepts_of_usable hsame (husable o (List.mem_of_getElem? ho))]
          exact hconsults.answered i o ho
  · intro s
    rcases asks_usable hcreate hrun s with ⟨offers, hconsults, husable⟩
    exact ⟨offers, by rw [hconsults.wire, wire_preamble], husable⟩

/-- A server that takes anything even after the session hung up on it. -/
theorem given_up_never_asked_sample :
    Run (step (Sample.env.answering fun _ k _ => k.closeCalled || k.connected))
      (fun v s => contract v s = true) Sample.fork
      (exec (step Sample.env) Sample.fork
        [.start, .onConnected 0, .pushAudio [1, 2], .modify Sample.otherEndpoint, .runPosted 0,
          .pushAudio [3, 4], .pump]) := by
  refine (given_up_never_asked ?_ Sample.create_fork (Run.of_exec (by decide))).1
  intro n k f hkept _
  simp [Sample.env, hkept]

end Session
end AudioFork
