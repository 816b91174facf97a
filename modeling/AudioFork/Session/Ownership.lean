import AudioFork.Session.Liveness

/-!
# Ownership — every socket has an owner until it is closed

A session may hold several sockets over its life but should own at most one at a time, and let none
go without closing it.  That is so in every run in which no hello is lost: a hello that encodes is
accepted by the connection the session holds.  A lost hello sends the session to `reconnecting` with
its socket still open, and the next `Connect` overwrites it.

* `Solo`: at most one socket is outstanding, and it is the current one or has been closed;
* `Owned`: moreover none is outstanding while the session waits to reconnect;
* `Attached`: moreover a drain keeps its socket and a dead session has none left.  This needs that
  no teardown meets a live session that has already let its socket go.
-/

namespace AudioFork
namespace Session

open Lib Buffers Protocol

variable {β : Type} {S : ℕ+}

namespace Lifecycle

variable {callback : Bool} {l : Lifecycle}

/-- No connection is outstanding. -/
def Vacant (conns : List Conn) : Prop := ∀ c, outstanding conns c = false

structure Solo (l : Lifecycle) : Prop where
  current : ∀ c, l.connection = some c → outstanding l.conns c = true
  single : ∀ a b, outstanding l.conns a = true → outstanding l.conns b = true → a = b
  kept : ∀ c, outstanding l.conns c = true → l.connection = some c ∨ hungUp l.conns c = true

structure Owned (l : Lifecycle) : Prop extends Solo l where
  quiet : l.state = .reconnecting → Vacant l.conns

theorem Solo.owned (h : Solo l) (hstate : l.state ≠ .reconnecting) : Owned l :=
  { h with quiet := fun hquiet => absurd hquiet hstate }

theorem Owned.of_vacant (h : Vacant l.conns) (hconn : l.connection = none) : Owned l where
  current := by simp [hconn]
  single := by
    intro a b ha
    simp [h a] at ha
  kept := by
    intro c hc
    simp [h c] at hc
  quiet := fun _ => h

/-- While the session waits to reconnect it holds no connection. -/
theorem Owned.connection_none (h : Owned l) (hstate : l.state = .reconnecting) :
    l.connection = none := by
  rw [Option.eq_none_iff_forall_not_mem]
  intro c hc
  have hout := h.current c hc
  rw [h.quiet hstate c] at hout
  cases hout

/-! ## Outcomes -/

theorem Solo.retire (h : Solo l) (hconn : l.connection = none) : Owned l.retire where
  current := by
    intro c hc
    cases hc
  single := h.single
  kept := by
    intro c hc
    have hkept := h.kept c hc
    rw [hconn] at hkept
    have hhung : hungUp l.conns c = true := by simpa using hkept
    exact Or.inr hhung
  quiet := by
    intro hstate
    cases hstate

theorem Solo.close (h : Solo l) (c : Nat) : Solo (l.close c) where
  current := by
    intro a ha
    simpa [Lifecycle.close] using h.current a ha
  single := by
    intro a b ha hb
    refine h.single a b ?_ ?_
    · simpa [Lifecycle.close] using ha
    · simpa [Lifecycle.close] using hb
  kept := by
    intro a ha
    rcases h.kept a (by simpa [Lifecycle.close] using ha) with hcurrent | hhung
    · exact Or.inl hcurrent
    · exact Or.inr (by simp [Lifecycle.close, hhung])

theorem Solo.hangUp (h : Solo l) : Owned l.hangUp := by
  unfold Lifecycle.hangUp
  cases hconn : l.connection with
  | none => exact h.retire hconn
  | some c =>
      have hclosed := h.close c
      exact
        { current := hclosed.current
          single := hclosed.single
          kept := hclosed.kept
          quiet := by
            intro hstate
            cases hstate }

theorem Owned.abandonSocket (h : Owned l) : Owned l.abandonSocket := by
  unfold Lifecycle.abandonSocket
  cases hconn : l.connection with
  | none => exact h
  | some c =>
      have hclosed := h.close c
      exact
        { current := by
            intro a ha
            cases ha
          single := hclosed.single
          kept := by
            intro a ha
            -- the only outstanding socket is the one just closed
            have hout : outstanding l.conns a = true := by simpa [Lifecycle.close] using ha
            have hsame : c = a := h.single c a (h.current c hconn) hout
            refine Or.inr ?_
            simp [Lifecycle.close, hsame, outstanding_lt hout]
          quiet := by
            intro hstate a
            simpa [Lifecycle.close] using h.quiet hstate a }

theorem Owned.tick (h : Owned l) (drained : Bool) : Owned (l.tick drained) := by
  exact tick_keeps h (fun _ => h.hangUp) drained

theorem Solo.drain (h : Solo l) (deadline : Nat) (drained : Bool) :
    Owned (l.drain deadline drained) := by
  have hdraining : Solo { l with state := .draining, drainDeadline := some deadline } :=
    { h with }
  cases hconn : l.connection with
  | none =>
      rw [drain_none hconn]
      exact hdraining.retire hconn
  | some c =>
      rw [drain_some hconn]
      exact (hdraining.owned (by simp)).tick drained

/-- Losing a connection when none is left. -/
theorem Vacant.lose (h : Vacant l.conns) (hconn : l.connection = none) :
    Vacant l.lose.conns ∧ l.lose.connection = none := by
  unfold Lifecycle.lose
  split
  · exact ⟨h, hconn⟩
  · exact ⟨h, hconn⟩
  · unfold Lifecycle.hangUp
    rw [hconn]
    exact ⟨h, rfl⟩
  · exact ⟨h, rfl⟩
  · exact ⟨h, hconn⟩
  · exact ⟨h, hconn⟩

theorem Vacant.connect (h : Vacant l.conns) (hstate : l.state ≠ .reconnecting)
    (answer : ConnectAnswer) (endpoint : Endpoint) (maxQueuedBytes : Nat) :
    Owned (l.connect answer endpoint maxQueuedBytes) := by
  have hlost := Vacant.lose (l := { l with connection := none }) h rfl
  unfold Lifecycle.connect
  cases answer with
  | null => exact .of_vacant hlost.1 hlost.2
  | closedThenNull connectFailed =>
      have hagain := Vacant.lose
        (l := { Lifecycle.lose { l with connection := none } with connection := none })
        hlost.1 rfl
      exact .of_vacant hagain.1 hagain.2
  | returned =>
      -- nothing was outstanding, so the new socket is the only one
      refine Solo.owned ?_ hstate
      exact
        { current := by
            intro c hc
            cases hc
            simp
          single := by
            intro a b ha hb
            simp [h a] at ha
            simp [h b] at hb
            exact ha.trans hb.symm
          kept := by
            intro c hc
            simp [h c] at hc
            exact Or.inl (congrArg some hc.symm) }

/-! ## Steps -/

/-- The handshake fails on a hello that encodes. -/
def helloLost (l : Lifecycle) : Label → Bool
  | .connected _ .lost => l.state = .connecting
  | _ => false

/-- The last outstanding connection reports its close. -/
theorem Solo.vacant_closed (h : Solo l) {c : Nat} (hc : outstanding l.conns c = true) :
    Vacant (l.conns.modify c fun k => { k with closed := true }) := by
  intro a
  rw [outstanding_closed, Bool.and_eq_false_iff]
  by_cases ha : outstanding l.conns a = true
  · right
    simp [h.single c a hc ha]
  · left
    simpa using ha

/-- So nothing is left of it, whatever the session does about the loss. -/
theorem Solo.closed (h : Solo l) {c : Nat} (hc : outstanding l.conns c = true) :
    Vacant (l.closed c).conns ∧ (l.closed c).connection = none :=
  Vacant.lose
    (l := { l with
      conns := l.conns.modify c fun k => { k with closed := true }
      connection := none })
    (h.vacant_closed hc) rfl

/-- A socket coming up changes neither which sockets are outstanding nor which are hung up. -/
theorem Owned.marked (h : Owned l) (c : Nat) :
    Owned { l with conns := l.conns.modify c fun k => { k with connected := true } } where
  current := by
    intro a ha
    simpa using h.current a ha
  single := by
    intro a b ha hb
    exact h.single a b (by simpa using ha) (by simpa using hb)
  kept := by
    intro a ha
    simpa using h.kept a (by simpa using ha)
  quiet := by
    intro hstate a
    simpa using h.quiet hstate a

theorem Owned.connected (h : Owned l) {c : Nat} {handshake : Handshake}
    (hlost : l.helloLost (.connected c handshake) = false) : Owned (l.connected c handshake) := by
  by_cases hstate : l.state = .connecting
  · rw [connected_connecting hstate]
    have hactive : Solo
        { l with
          conns := l.conns.modify c fun k => { k with connected := true }
          state := .active } :=
      { (h.marked c).toSolo with }
    cases handshake with
    | invalid deadline drained => exact hactive.drain deadline drained
    | lost => simp [helloLost, hstate] at hlost
    | done => exact hactive.owned (by simp)
  · rw [connected_late hstate]
    exact (h.marked c).abandonSocket

theorem Owned.step (h : Owned l) {a : Label} (hallows : l.allows a = true)
    (hlost : l.helloLost a = false) (hreach : Reachable callback l) : Owned (l.step a) := by
  cases a with
  | quiet => exact h
  | start answer endpoint maxQueuedBytes =>
      rcases hreach with rfl | hsound
      · exact Vacant.connect (fun _ => rfl) (by simp [initial]) answer endpoint maxQueuedBytes
      · simp [allows, hsound.started] at hallows
  | retryTimer answer endpoint maxQueuedBytes =>
      simp only [Lifecycle.step]
      split
      · rename_i hstate
        refine Vacant.connect ?_ ?_ answer endpoint maxQueuedBytes
        · exact h.quiet hstate
        · simp
      · exact { h with }
  | connected c handshake => exact h.connected hlost
  | closed c =>
      have hvacant := h.toSolo.closed (Bool.and_eq_true_iff.mp hallows).2
      exact .of_vacant hvacant.1 hvacant.2
  | teardown deadline drained =>
      simp only [Lifecycle.step, Lifecycle.teardown]
      split <;> rename_i hstate
      · exact h.hangUp
      · exact h.drain deadline drained
      · -- nothing to close: a session that waits to reconnect has let its socket go
        exact h.retire (h.connection_none hstate)
      all_goals exact h
  | modify => exact modify_keeps h fun _ => h.abandonSocket
  | tick drained => exact h.tick drained

/-! ## Attachment -/

structure Attached (l : Lifecycle) : Prop extends Owned l where
  up : l.state = .active ∨ l.state = .draining →
    ∀ c, outstanding l.conns c = true → isConnected l.conns c = true
  drains : l.state = .draining → l.connection ≠ none
  buried : l.state = .dead → Vacant l.conns

/-- A teardown, or a hello without an encoding, meets a live session without a socket. -/
def unowned (l : Lifecycle) : Label → Bool
  | .teardown _ _ => l.connection = none && (l.state = .connecting || l.state = .active)
  | .connected _ (.invalid _ _) => l.connection = none && l.state = .connecting
  | _ => false

/-- The states in which attachment asks nothing more. -/
theorem Owned.attached (h : Owned l)
    (hstate : l.state = .connecting ∨ l.state = .reconnecting ∨ l.state = .closing) :
    Attached l where
  toOwned := h
  up := by
    rcases hstate with hstate | hstate | hstate <;> simp [hstate]
  drains := by
    rcases hstate with hstate | hstate | hstate <;> simp [hstate]
  buried := by
    rcases hstate with hstate | hstate | hstate <;> simp [hstate]

theorem Attached.of_vacant (h : Vacant l.conns) (hconn : l.connection = none)
    (hstate : l.state ≠ .draining) : Attached l where
  toOwned := .of_vacant h hconn
  up := by
    intro _ c hc
    simp [h c] at hc
  drains := fun hdraining => absurd hdraining hstate
  buried := fun _ => h

theorem lose_state_ne_draining (hconn : l.connection = none) : l.lose.state ≠ .draining := by
  unfold lose
  split <;> rename_i hstate
  · simp [retry]
  · simp [retry]
  · unfold hangUp
    simp [hconn, retire]
  · simp [retire]
  · simp [hstate]
  · simp [hstate]

theorem Attached.hangUp (h : Owned l) {c : Nat} (hconn : l.connection = some c) :
    Attached l.hangUp := by
  refine h.hangUp.attached ?_
  rw [hangUp_some hconn]
  exact Or.inr (Or.inr rfl)

theorem Attached.tick (h : Attached l) (drained : Bool) : Attached (l.tick drained) := by
  refine tick_keeps h (fun hstate => ?_) drained
  rcases Option.ne_none_iff_exists'.mp (h.drains hstate) with ⟨c, hc⟩
  exact Attached.hangUp h.toOwned hc

theorem Attached.drain (h : Solo l) {c : Nat} (hconn : l.connection = some c)
    (hup : ∀ c, outstanding l.conns c = true → isConnected l.conns c = true) (deadline : Nat)
    (drained : Bool) : Attached (l.drain deadline drained) := by
  rw [drain_some hconn]
  refine Attached.tick ?_ drained
  have hsolo : Solo { l with state := .draining, drainDeadline := some deadline } := { h with }
  exact
    { hsolo.owned (by simp) with
      up := fun _ => hup
      drains := by simp [hconn]
      buried := by
        intro hdead
        cases hdead }

theorem Attached.closed (h : Attached l) {c : Nat} (hc : outstanding l.conns c = true) :
    Attached (l.closed c) := by
  have hvacant := h.toSolo.closed hc
  exact .of_vacant hvacant.1 hvacant.2 (lose_state_ne_draining rfl)

/-- A connect from `connecting` ends there or in `reconnecting`. -/
theorem connect_state (hstate : l.state = .connecting) (answer : ConnectAnswer)
    (endpoint : Endpoint) (maxQueuedBytes : Nat) :
    (l.connect answer endpoint maxQueuedBytes).state = .connecting ∨
      (l.connect answer endpoint maxQueuedBytes).state = .reconnecting := by
  cases answer with
  | returned => exact Or.inl hstate
  | null =>
      right
      simp [connect, lose, hstate, retry]
  | closedThenNull connectFailed =>
      right
      simp [connect, lose, hstate, retry]

theorem Owned.connect_attached {answer : ConnectAnswer} {endpoint : Endpoint} {maxQueuedBytes : Nat}
    (h : Owned (l.connect answer endpoint maxQueuedBytes)) (hstate : l.state = .connecting) :
    Attached (l.connect answer endpoint maxQueuedBytes) := by
  refine h.attached ?_
  rcases connect_state hstate answer endpoint maxQueuedBytes with hconnecting | hreconnecting
  · exact Or.inl hconnecting
  · exact Or.inr (Or.inl hreconnecting)

theorem Attached.connected (h : Attached l) {c : Nat} {handshake : Handshake}
    (hallows : l.allows (.connected c handshake) = true)
    (hlost : l.helloLost (.connected c handshake) = false)
    (hunowned : l.unowned (.connected c handshake) = false) :
    Attached (l.connected c handshake) := by
  have howned := h.toOwned.connected hlost
  have hc : ∃ k, l.conns[c]? = some k ∧ k.connected = false ∧ k.closed = false := by
    have hany := (Bool.and_eq_true_iff.mp hallows).2
    cases hk : l.conns[c]? with
    | none => simp [hk] at hany
    | some k => exact ⟨k, rfl, by simpa [hk] using hany⟩
  rcases hc with ⟨k, hk, hfresh, hopen⟩
  have hout : outstanding l.conns c = true := outstanding_iff.mpr ⟨k, hk, hopen⟩
  by_cases hstate : l.state = .connecting
  · rw [connected_connecting hstate] at howned ⊢
    -- the socket that came up is the only one outstanding
    have hup : ∀ a, outstanding (l.conns.modify c fun k => { k with connected := true }) a = true →
        isConnected (l.conns.modify c fun k => { k with connected := true }) a = true := by
      intro a ha
      have hsame : c = a := h.single c a hout (by simpa using ha)
      subst hsame
      simp [outstanding_lt hout]
    cases handshake with
    | lost => simp [helloLost, hstate] at hlost
    | done =>
        exact
          { howned with
            up := fun _ => hup
            drains := by
              intro hdraining
              cases hdraining
            buried := by
              intro hdead
              cases hdead }
    | invalid deadline drained =>
        have hconn : l.connection ≠ none := by
          intro hnone
          simp [unowned, hnone, hstate] at hunowned
        rcases Option.ne_none_iff_exists'.mp hconn with ⟨a, ha⟩
        have hsolo : Solo
            { l with
              conns := l.conns.modify c fun k => { k with connected := true }
              state := .active } :=
          { (h.marked c).toSolo with }
        exact Attached.drain hsolo ha hup deadline drained
  · -- a second handshake: the only outstanding socket is up already, unless it was hung up early
    have hclosing : l.state = .closing := by
      cases hs : l.state with
      | connecting => exact absurd hs hstate
      | active =>
          have hupc := h.up (Or.inl hs) c hout
          simp [isConnected, hk, hfresh] at hupc
      | reconnecting => simp [h.quiet hs c] at hout
      | draining =>
          have hupc := h.up (Or.inr hs) c hout
          simp [isConnected, hk, hfresh] at hupc
      | closing => rfl
      | dead => simp [h.buried hs c] at hout
    refine howned.attached (Or.inr (Or.inr ?_))
    rw [connected_late hstate, state_abandonSocket]
    exact hclosing

theorem Attached.teardown (h : Attached l) {deadline : Nat} {drained : Bool}
    (hunowned : l.unowned (.teardown deadline drained) = false) :
    Attached (l.teardown deadline drained) := by
  have hconn : l.state = .connecting ∨ l.state = .active → ∃ c, l.connection = some c := by
    intro hstate
    refine Option.ne_none_iff_exists'.mp ?_
    intro hnone
    rcases hstate with hstate | hstate <;> simp [unowned, hnone, hstate] at hunowned
  unfold Lifecycle.teardown
  split <;> rename_i hstate
  · rcases hconn (Or.inl hstate) with ⟨c, hc⟩
    exact Attached.hangUp h.toOwned hc
  · rcases hconn (Or.inr hstate) with ⟨c, hc⟩
    exact Attached.drain h.toSolo hc (h.up (Or.inl hstate)) deadline drained
  · exact .of_vacant (h.quiet hstate) rfl (by simp [Lifecycle.retire])
  all_goals exact h

theorem Attached.modify (h : Attached l) (hlive : l.state.live = true) :
    Attached l.abandonSocket := by
  have howned := h.toOwned.abandonSocket
  -- a close call changes neither what is outstanding nor what is up
  have hsame : ∀ c, outstanding l.abandonSocket.conns c = outstanding l.conns c ∧
      isConnected l.abandonSocket.conns c = isConnected l.conns c := by
    intro c
    unfold Lifecycle.abandonSocket
    split <;> simp [Lifecycle.close]
  exact
    { howned with
      up := by
        intro hup c hc
        rw [state_abandonSocket] at hup
        rw [(hsame c).2]
        exact h.up hup c (by rw [← (hsame c).1]; exact hc)
      drains := by
        intro hdraining
        rw [← state_abandonSocket, hdraining] at hlive
        cases hlive
      buried := by
        intro hdead
        rw [← state_abandonSocket, hdead] at hlive
        cases hlive }

theorem Attached.step (h : Attached l) {a : Label} (hallows : l.allows a = true)
    (hlost : l.helloLost a = false) (hunowned : l.unowned a = false)
    (hreach : Reachable callback l) : Attached (l.step a) := by
  have howned := h.toOwned.step hallows hlost hreach
  cases a with
  | quiet => exact h
  | start answer endpoint maxQueuedBytes =>
      rcases hreach with rfl | hsound
      · exact howned.connect_attached rfl
      · simp [allows, hsound.started] at hallows
  | retryTimer answer endpoint maxQueuedBytes =>
      simp only [Lifecycle.step] at howned ⊢
      split at howned
      · exact howned.connect_attached rfl
      · exact { h with }
  | connected c handshake => exact h.connected hallows hlost hunowned
  | closed c => exact h.closed (Bool.and_eq_true_iff.mp hallows).2
  | teardown deadline drained => exact h.teardown hunowned
  | modify => exact modify_keeps h h.modify
  | tick drained => exact h.tick drained

theorem attached_initial (callback : Bool) : Attached (initial callback) :=
  .of_vacant (fun _ => rfl) rfl (by simp [initial])

end Lifecycle

/-! ## Sessions -/

/-- The step is an `OnConnected` in `connecting` whose hello encodes, but there is no connection to
send it on or the connection refuses it. -/
def helloLost (env : Env β) (w : World β S) : Step β → Bool
  | .onConnected c =>
      w.session.state = .connecting &&
        match w.hello env, w.session.connection with
        | none, _ => false
        | some _, none => true
        | some hello, some a =>
            !env.accepts (w.markConnected c).port.conns a w.port.wire.length (.hello hello)
  | _ => false

/-- The step tears down a session in `connecting` or `active` that holds no connection: by a posted
`Stop`, by a disconnect from the server, or because the hello has no encoding. -/
def teardownUnowned (env : Env β) (w : World β S) : Step β → Bool
  | .runPosted i =>
      w.session.connection = none &&
        (w.session.state = .connecting || w.session.state = .active) &&
        w.port.posted[i]? = some .teardown
  | .onText _ text =>
      w.session.connection = none &&
        (w.session.state = .connecting || w.session.state = .active) &&
        parseServerMessage env.json text = .serverDisconnect
  | .onConnected _ =>
      w.session.connection = none && w.session.state = .connecting && (w.hello env).isNone
  | _ => false

theorem helloLost_label (env : Env β) (w : World β S) (s : Step β) :
    w.lifecycle.helloLost (label env w s) = helloLost env w s := by
  cases s with
  | onConnected c =>
      simp only [label, helloLost]
      let v := { w.markConnected c with session.state := .active }
      show Lifecycle.helloLost _ (.connected c (v.handshake env)) = _
      cases hhello : w.hello env with
      | none =>
          rcases World.handshake_invalid (w := v) hhello with ⟨deadline, drained, hshake⟩
          simp [hshake, Lifecycle.helloLost]
      | some hello =>
          cases hconnection : w.session.connection with
          | none =>
              rw [World.handshake_unowned (w := v) hhello hconnection]
              simp only [Lifecycle.helloLost, Bool.and_true]
              rfl
          | some a =>
              rw [World.handshake_owned (w := v) hhello hconnection]
              show Lifecycle.helloLost _ (.connected c
                (if env.accepts (w.markConnected c).port.conns a w.port.wire.length (.hello hello)
                  then .done else .lost)) =
                (decide (w.session.state = .connecting) &&
                  !env.accepts (w.markConnected c).port.conns a w.port.wire.length (.hello hello))
              generalize env.accepts (w.markConnected c).port.conns a w.port.wire.length
                (.hello hello) = accepted
              cases accepted with
              | true => exact (Bool.and_false _).symm
              | false => exact (Bool.and_true _).symm
  | runPosted i =>
      simp only [label, helloLost]
      split <;> rfl
  | onText c text =>
      simp only [label, helloLost]
      split <;> rfl
  | _ => rfl

theorem unowned_label (env : Env β) (w : World β S) (s : Step β) :
    w.lifecycle.unowned (label env w s) = teardownUnowned env w s := by
  cases s with
  | onConnected c =>
      simp only [label, teardownUnowned]
      let v := { w.markConnected c with session.state := .active }
      show Lifecycle.unowned _ (.connected c (v.handshake env)) = _
      cases hhello : w.hello env with
      | none =>
          rcases World.handshake_invalid (w := v) hhello with ⟨deadline, drained, hshake⟩
          rw [hshake]
          simp only [Lifecycle.unowned, Option.isNone_none, Bool.and_true]
          rfl
      | some hello =>
          cases hconnection : w.session.connection with
          | none =>
              rw [World.handshake_unowned (w := v) hhello hconnection]
              simp [Lifecycle.unowned]
          | some a =>
              rw [World.handshake_owned (w := v) hhello hconnection]
              split <;> simp [Lifecycle.unowned]
  | runPosted i =>
      simp only [label, teardownUnowned]
      cases w.port.posted[i]? with
      | none => simp [Lifecycle.unowned]
      | some task =>
          cases task with
          | teardown =>
              simp only [World.teardownLabel, Lifecycle.unowned, decide_true, Bool.and_true]
              rfl
          | deliverText text => simp [Lifecycle.unowned]
          | applyModify endpoint => simp [Lifecycle.unowned]
  | onText c text =>
      simp only [label, teardownUnowned]
      cases parseServerMessage env.json text with
      | serverDisconnect =>
          simp only [World.teardownLabel, Lifecycle.unowned, decide_true, Bool.and_true]
          rfl
      | _ => simp [Lifecycle.unowned]
  | _ => rfl

section

variable {env : Env β} {params : ForkParams} {tuning : Tuning} {onFinished : Bool}
  {supply : SlabSupply} {w₀ w : World β S}

/-- In a run without lost hellos every socket is owned. -/
theorem owned_of_run (hcreate : World.create params tuning onFinished supply = some w₀)
    (hrun : Run (step env) (fun v s => contract v s = true ∧ helloLost env v s = false) w₀ w) :
    w.lifecycle.Owned := by
  have habstract : Run Lifecycle.step (fun l a => l.allows a = true ∧ l.helloLost a = false)
      w₀.lifecycle w.lifecycle :=
    lifecycle_run
      (fun v s h => ⟨allows_of_contract h.1, (helloLost_label env v s).trans h.2⟩) hrun
  rw [lifecycle_create hcreate] at habstract
  have hboth : w.lifecycle.Reachable onFinished ∧ w.lifecycle.Owned := by
    refine habstract.invariant
      (I := fun l => l.Reachable onFinished ∧ l.Owned)
      ⟨Or.inl rfl, (Lifecycle.attached_initial onFinished).toOwned⟩ ?_
    intro l a hl ha
    exact ⟨hl.1.step ha.1, hl.2.step ha.1 ha.2 hl.1⟩
  exact hboth.2

/-- In a run in which, besides, no teardown meets a live session without a socket, the sockets stay
attached to the session's state. -/
theorem attached_of_run (hcreate : World.create params tuning onFinished supply = some w₀)
    (hrun : Run (step env)
      (fun v s => contract v s = true ∧ helloLost env v s = false ∧ teardownUnowned env v s = false)
      w₀ w) : w.lifecycle.Attached := by
  have habstract : Run Lifecycle.step
      (fun l a => l.allows a = true ∧ l.helloLost a = false ∧ l.unowned a = false)
      w₀.lifecycle w.lifecycle :=
    lifecycle_run
      (fun v s h => ⟨allows_of_contract h.1, (helloLost_label env v s).trans h.2.1,
        (unowned_label env v s).trans h.2.2⟩) hrun
  rw [lifecycle_create hcreate] at habstract
  have hboth : w.lifecycle.Reachable onFinished ∧ w.lifecycle.Attached := by
    refine habstract.invariant
      (I := fun l => l.Reachable onFinished ∧ l.Attached)
      ⟨Or.inl rfl, Lifecycle.attached_initial onFinished⟩ ?_
    intro l a hl ha
    exact ⟨hl.1.step ha.1, hl.2.step ha.1 ha.2.1 ha.2.2 hl.1⟩
  exact hboth.2

/-! ### No orphans -/

/-- Every connection that has not delivered `OnClosed` is the current one or was closed. -/
def NoOrphan (w : World β S) : Prop :=
  ∀ c, outstanding w.port.conns c = true →
    w.session.connection = some c ∨ hungUp w.port.conns c = true

theorem no_socket_orphaned (hcreate : World.create params tuning onFinished supply = some w₀)
    (hrun : Run (step env) (fun v s => contract v s = true ∧ helloLost env v s = false) w₀ w) :
    NoOrphan w :=
  (owned_of_run hcreate hrun).kept

theorem no_socket_orphaned_sample :
    NoOrphan
      (exec (step Sample.env) Sample.fork
        [.start, .onConnected 0, .modify Sample.otherEndpoint, .runPosted 0, .onClosed 0 false,
          .retryTimer, .onConnected 1]) :=
  no_socket_orphaned Sample.create_fork (Run.of_exec (by decide))

/-- A refused hello: the retry overwrites a connection that nobody closed. -/
theorem refused_hello_orphans_socket :
    let w := exec (step Sample.deafEnv) Sample.fork [.start, .onConnected 0, .retryTimer]
    Run (step Sample.deafEnv) (fun v s => contract v s = true) Sample.fork w ∧ ¬ NoOrphan w := by
  refine ⟨Run.of_exec (by decide), ?_⟩
  intro h
  exact absurd (h 0 (by decide)) (by decide)

/-! ### Sockets go before the session -/

/-- A dead session has heard the `OnClosed` of every connection it was ever given. -/
def ClosedAtDeath (w : World β S) : Prop :=
  w.session.state = .dead → ∀ k ∈ w.port.conns, k.closed = true

theorem sockets_close_before_death
    (hcreate : World.create params tuning onFinished supply = some w₀)
    (hrun : Run (step env)
      (fun v s => contract v s = true ∧ helloLost env v s = false ∧ teardownUnowned env v s = false)
      w₀ w) : ClosedAtDeath w := by
  intro hdead k hk
  rcases List.getElem?_of_mem hk with ⟨c, hc⟩
  have hvacant := (attached_of_run hcreate hrun).buried hdead c
  rw [Bool.eq_false_iff] at hvacant
  by_contra hopen
  exact hvacant (outstanding_iff.mpr ⟨k, hc, by simpa using hopen⟩)

theorem sockets_close_before_death_sample :
    ClosedAtDeath
      (exec (step Sample.env) Sample.fork
        [.start, .onConnected 0, .pushAudio [1, 2, 3], .stop, .runPosted 0, .onClosed 0 false]) :=
  sockets_close_before_death Sample.create_fork (Run.of_exec (by decide))

/-- A stop that follows a modify: the session dies while the socket it left is still closing. -/
theorem stop_after_modify_outlived_by_socket :
    let w := exec (step Sample.env) Sample.fork
      [.start, .onConnected 0, .modify Sample.otherEndpoint, .runPosted 0, .stop, .runPosted 0]
    Run (step Sample.env) (fun v s => contract v s = true) Sample.fork w ∧ ¬ ClosedAtDeath w := by
  refine ⟨Run.of_exec (by decide), ?_⟩
  intro h
  exact absurd (h (by decide)) (by decide)

/-! ### Stale closes -/

/-- A connection `a` that is not the current one can deliver `OnClosed` without the session losing
its connection `b` or leaving its state. -/
def StaleCloseHarmless (env : Env β) (w : World β S) : Prop :=
  ∀ a b connectFailed, outstanding w.port.conns a = true → w.session.connection = some b →
    outstanding w.port.conns b = true → a ≠ b →
      (step env w (.onClosed a connectFailed)).session.connection = some b ∧
        (step env w (.onClosed a connectFailed)).session.state = w.session.state

/-- Without lost hellos no two connections overlap: what closes is what the session holds. -/
theorem stale_close_harmless (hcreate : World.create params tuning onFinished supply = some w₀)
    (hrun : Run (step env) (fun v s => contract v s = true ∧ helloLost env v s = false) w₀ w) :
    StaleCloseHarmless env w ∧
      ∀ a, outstanding w.port.conns a = true →
        w.session.connection = none ∨ w.session.connection = some a := by
  have howned := owned_of_run hcreate hrun
  refine ⟨?_, ?_⟩
  · intro a b connectFailed ha _ hb hne
    exact absurd (howned.single a b ha hb) hne
  · intro a ha
    cases hconn : w.session.connection with
    | none => exact Or.inl rfl
    | some b => exact Or.inr (congrArg some (howned.single b a (howned.current b hconn) ha))

theorem stale_close_harmless_sample :
    let w := exec (step Sample.env) Sample.fork
      [.start, .onConnected 0, .modify Sample.otherEndpoint, .runPosted 0]
    StaleCloseHarmless Sample.env w ∧
      ∀ a, outstanding w.port.conns a = true →
        w.session.connection = none ∨ w.session.connection = some a :=
  stale_close_harmless Sample.create_fork (Run.of_exec (by decide))

/-- The connection whose hello was refused closes late and takes its successor with it. -/
theorem late_close_hits_successor :
    let w := exec (step Sample.deafEnv) Sample.fork [.start, .onConnected 0, .retryTimer]
    Run (step Sample.deafEnv) (fun v s => contract v s = true) Sample.fork w ∧
      ¬ StaleCloseHarmless Sample.deafEnv w := by
  refine ⟨Run.of_exec (by decide), ?_⟩
  intro h
  exact absurd (h 0 1 false (by decide) (by decide) (by decide) (by decide)) (by decide)

end

end Session
end AudioFork
