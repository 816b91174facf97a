import AudioFork.Session.Handles

/-!
# Parting — what a session on its way out waits for

Once it is told to stop, a session drains, hangs up and waits for the close.  `Parting` says that
it never waits in vain: as long as it drains one of its connections is open, and while it is
`closing` an open one was told to close.  The first connection that closes then ends the session.
-/

namespace AudioFork
namespace Session

open Lib Buffers

variable {β : Type} {S : ℕ+}

theorem hungUp_iff {conns : List Conn} {c : Nat} :
    hungUp conns c = true ↔ ∃ k, conns[c]? = some k ∧ k.closeCalled = true := by
  cases h : conns[c]? <;> simp [hungUp, h]

namespace Later

variable {conns conns' : List Conn} {c : Nat}

theorem outstanding (h : Later conns conns') (hc : outstanding conns c = true) :
    AudioFork.outstanding conns' c = true := by
  rcases outstanding_iff.mp hc with ⟨k, hk, hopen⟩
  rcases h.kept c k hk with ⟨called, -, hk'⟩
  exact outstanding_iff.mpr ⟨_, hk', hopen⟩

theorem hungUp (h : Later conns conns') (hc : hungUp conns c = true) :
    AudioFork.hungUp conns' c = true := by
  rcases hungUp_iff.mp hc with ⟨k, hk, hcalled⟩
  rcases h.kept c k hk with ⟨called, hmono, hk'⟩
  exact hungUp_iff.mpr ⟨_, hk', hmono hcalled⟩

end Later

namespace Lifecycle

variable {callback : Bool} {l : Lifecycle}

structure Parting (l : Lifecycle) : Prop where
  draining : l.state = .draining → ∃ c, outstanding l.conns c = true
  closing : l.state = .closing → ∃ c, outstanding l.conns c = true ∧ hungUp l.conns c = true

/-- In any other state there is nothing to wait for. -/
theorem parting_of_state (hdraining : l.state ≠ .draining) (hclosing : l.state ≠ .closing) :
    l.Parting where
  draining := fun h => absurd h hdraining
  closing := fun h => absurd h hclosing

/-- The state stays, and so do the connections that were open. -/
theorem Parting.later (h : l.Parting) {l' : Lifecycle} (hstate : l'.state = l.state)
    (hlater : Later l.conns l'.conns) : l'.Parting where
  draining := by
    intro hdraining
    rcases h.draining (hstate ▸ hdraining) with ⟨c, hopen⟩
    exact ⟨c, hlater.outstanding hopen⟩
  closing := by
    intro hclosing
    rcases h.closing (hstate ▸ hclosing) with ⟨c, hopen, hhung⟩
    exact ⟨c, hlater.outstanding hopen, hlater.hungUp hhung⟩

theorem parting_retire : l.retire.Parting := parting_of_state nofun nofun

section

variable (hcurrent : ∀ c, l.connection = some c → outstanding l.conns c = true)

include hcurrent

theorem parting_hangUp : l.hangUp.Parting := by
  unfold hangUp
  split
  · exact parting_retire
  · rename_i c hc
    have hopen := hcurrent c hc
    refine ⟨nofun, fun _ => ⟨c, ?_, ?_⟩⟩
    · exact (outstanding_close c c).trans hopen
    · refine (hungUp_close c c).trans ?_
      simp [outstanding_lt hopen]

theorem Parting.tick (h : l.Parting) (drained : Bool) : (l.tick drained).Parting := by
  exact tick_keeps h (fun _ => parting_hangUp hcurrent) drained

theorem parting_drain (deadline : Nat) (drained : Bool) : (l.drain deadline drained).Parting := by
  unfold drain
  simp only
  split
  · exact parting_retire
  · rename_i c hc
    have hdraining : Parting { l with state := .draining, drainDeadline := some deadline } :=
      ⟨fun _ => ⟨c, hcurrent c hc⟩, nofun⟩
    exact Parting.tick (l := { l with state := .draining, drainDeadline := some deadline }) hcurrent
      hdraining drained

end

/-- A connection that is lost is one to retry, or the last one. -/
theorem parting_lose (h : l.connection = none) : l.lose.Parting := by
  unfold lose
  split
  · exact parting_of_state nofun nofun
  · exact parting_of_state nofun nofun
  · unfold hangUp
    rw [h]
    exact parting_retire
  · exact parting_retire
  · rename_i hstate
    exact parting_of_state (by rw [hstate]; nofun) (by rw [hstate]; nofun)
  · rename_i hstate
    exact parting_of_state (by rw [hstate]; nofun) (by rw [hstate]; nofun)

theorem parting_connect (hstate : l.state = .connecting) (answer : ConnectAnswer)
    (endpoint : Endpoint) (maxQueuedBytes : Nat) :
    (l.connect answer endpoint maxQueuedBytes).Parting := by
  cases answer with
  | returned =>
      refine parting_of_state ?_ ?_
      · show l.state ≠ .draining
        rw [hstate]
        nofun
      · show l.state ≠ .closing
        rw [hstate]
        nofun
  | null => exact parting_lose rfl
  | closedThenNull connectFailed => exact parting_lose rfl

theorem Parting.connected (h : l.Parting)
    (hcurrent : ∀ c, l.connection = some c → outstanding l.conns c = true) (c : Nat)
    (handshake : Handshake) : (l.connected c handshake).Parting := by
  have hcurrent' : ∀ a, l.connection = some a →
      outstanding (l.conns.modify c fun k => { k with connected := true }) a = true :=
    fun a ha => (outstanding_connected c a).trans (hcurrent a ha)
  by_cases hstate : l.state = .connecting
  · rw [connected_connecting hstate]
    cases handshake with
    | invalid deadline drained => exact parting_drain hcurrent' deadline drained
    | lost => exact parting_of_state nofun nofun
    | done => exact parting_of_state nofun nofun
  · rw [connected_late hstate]
    have hnoted : Parting
        { l with conns := l.conns.modify c fun k => { k with connected := true } } := by
      refine ⟨fun hdraining => ?_, fun hclosing => ?_⟩
      · rcases h.draining hdraining with ⟨a, hopen⟩
        exact ⟨a, (outstanding_connected c a).trans hopen⟩
      · rcases h.closing hclosing with ⟨a, hopen, hhung⟩
        exact ⟨a, (outstanding_connected c a).trans hopen, (hungUp_connected c a).trans hhung⟩
    exact hnoted.later state_abandonSocket later_abandonSocket

theorem Parting.step (h : l.Parting) (hsound : l.Sound callback) {a : Label}
    (ha : l.allows a = true) : (l.step a).Parting := by
  have hcurrent := hsound.current
  cases a with
  | quiet => exact h
  | start answer endpoint maxQueuedBytes =>
      simp [Lifecycle.allows, hsound.started] at ha
  | retryTimer answer endpoint maxQueuedBytes =>
      simp only [Lifecycle.step]
      split
      · exact parting_connect rfl answer endpoint maxQueuedBytes
      · exact h.later rfl (.refl _)
  | connected c handshake => exact h.connected hcurrent c handshake
  | closed c => exact parting_lose rfl
  | teardown deadline drained =>
      simp only [Lifecycle.step, Lifecycle.teardown]
      split
      · exact parting_hangUp hcurrent
      · exact parting_drain hcurrent deadline drained
      · exact parting_retire
      all_goals exact h
  | modify => exact modify_keeps h fun _ => h.later state_abandonSocket later_abandonSocket
  | tick drained => exact h.tick hcurrent drained

/-! ## The way out -/

theorem not_live_hangUp : l.hangUp.state.live = false := by
  unfold hangUp
  split
  · rfl
  · rfl

theorem not_live_teardown (deadline : Nat) (drained : Bool) :
    (l.teardown deadline drained).state.live = false := by
  unfold teardown
  split
  · exact not_live_hangUp
  · unfold drain
    simp only
    split
    · rfl
    · unfold tick
      simp only
      split
      · exact not_live_hangUp
      · rfl
  · rfl
  all_goals
    rename_i hstate
    rw [hstate]
    rfl

/-- While a session is `closing`, only the close of a connection changes anything, and any close ends
it. -/
theorem closing_step (hstate : l.state = .closing) {c : Nat} (hopen : outstanding l.conns c = true)
    (a : Label) : (l.step a).state = .dead ∨ outstanding (l.step a).conns c = true := by
  cases a with
  | closed d =>
      refine Or.inl ?_
      show (lose _).state = .dead
      unfold lose
      rw [show l.state = .closing from hstate]
      rfl
  | connected d handshake =>
      refine Or.inr ((later_step (.connected d handshake)).outstanding ?_)
      exact (outstanding_connected d c).trans hopen
  | quiet => exact Or.inr hopen
  | start answer endpoint maxQueuedBytes =>
      exact Or.inr ((later_step (.start answer endpoint maxQueuedBytes)).outstanding hopen)
  | retryTimer answer endpoint maxQueuedBytes =>
      exact Or.inr ((later_step (.retryTimer answer endpoint maxQueuedBytes)).outstanding hopen)
  | teardown deadline drained =>
      exact Or.inr ((later_step (.teardown deadline drained)).outstanding hopen)
  | modify => exact Or.inr ((later_step .modify).outstanding hopen)
  | tick drained => exact Or.inr ((later_step (.tick drained)).outstanding hopen)

end Lifecycle

/-! ## Runs -/

theorem parting_of_run {env : Env β} {params : ForkParams} {tuning : Tuning} {onFinished : Bool}
    {supply : SlabSupply} {w₀ w : World β S}
    (hcreate : World.create params tuning onFinished supply = some w₀)
    (hrun : Run (step env) (fun v s => contract v s = true) w₀ w) : w.lifecycle.Parting := by
  refine hrun.invariant_with (I := fun v => v.lifecycle.Parting)
    (fun _ hv => reachable_of_run hcreate hv) ?_ ?_
  · rw [lifecycle_create hcreate]
    exact Lifecycle.parting_of_state nofun nofun
  · intro v s hreachable hparting hcontract
    have hallows : v.lifecycle.allows (label env v s) = true := allows_of_contract hcontract
    rw [lifecycle_step]
    rcases hreachable with hinit | hsound
    · rw [hinit] at hallows ⊢
      -- before `Start` only `Start` does anything
      cases hlabel : label env v s with
      | quiet => exact Lifecycle.parting_of_state nofun nofun
      | start answer endpoint maxQueuedBytes =>
          exact Lifecycle.parting_connect rfl answer endpoint maxQueuedBytes
      | _ =>
          rw [hlabel] at hallows
          cases hallows
    · exact hparting.step hsound hallows

/-- The task that `Stop` posts takes the session out of its live states, whichever it is in. -/
theorem not_live_runPosted (env : Env β) {w : World β S} {i : Nat}
    (hposted : w.port.posted[i]? = some .teardown) :
    (step env w (.runPosted i)).session.state.live = false := by
  have hview : (step env w (.runPosted i)).lifecycle =
      w.lifecycle.step ((w.takeTask i).teardownLabel env) := by
    rw [lifecycle_step]
    simp only [label, hposted]
  show (step env w (.runPosted i)).lifecycle.state.live = false
  rw [hview]
  exact Lifecycle.not_live_teardown _ _

/-- While the session is `closing` an open connection stays open, or the session is dead. -/
theorem closing_step {env : Env β} {w : World β S} (hstate : w.session.state = .closing) {c : Nat}
    (hopen : outstanding w.port.conns c = true) (s : Step β) :
    (step env w s).session.state = .dead ∨
      (step env w s).session.state = .closing ∧ outstanding (step env w s).port.conns c = true := by
  have hnext := Lifecycle.closing_step (l := w.lifecycle) hstate hopen (label env w s)
  rw [← lifecycle_step] at hnext
  have hrank := teardownRank_le_step env w s
  rw [hstate] at hrank
  cases hafter : (step env w s).session.state with
  | dead => exact Or.inl rfl
  | closing =>
      rcases hnext with hdead | hopen'
      · exact absurd (hafter.symm.trans hdead) nofun
      · exact Or.inr ⟨rfl, hopen'⟩
  | _ =>
      rw [hafter] at hrank
      exact absurd hrank (by decide)

end Session
end AudioFork
