import AudioFork.Module.StartFork
import AudioFork.Session.AfterDeath

/-!
# Retirement — a finished fork and the registry

A fork that is over is taken out of the registry by the callback that `StartFork` installs and
`Finalize` runs.  The shard may run the fork from the moment it is created, so `Finalize` can come
before the callback is there, and `ForgetFork` before the fork has been inserted.  Either way the fork
stays registered for good.

A run is in order when `Finalize` finds the callback and `ForgetFork` finds no `StartFork` still working
on the fork (`early` says which steps break this).  In such a run the registry holds no fork that has
been finalized.
-/

namespace AudioFork
namespace Module

open Lib Session

variable {β : Type} {S : ℕ+}

/-- The entry points that only the shard thread calls. -/
def onShard : Session.Step β → Bool
  | .start | .pump | .runPosted _ | .retryTimer | .onConnected _ | .onText _ _ | .onBinary _ _
  | .onClosed _ _ => true
  | _ => false

/-- The promises of the port and the shard to each fork, and the shard thread does nothing else while
a callback it runs waits for the registry. -/
def moduleContract (m : ModuleState β S) : ModuleStep β → Bool
  | .session fork s =>
      m.forks[fork]?.any fun k => contract k.world s && !(onShard s && k.forgetting)
  | _ => true

/-- `Finalize` before the callback is installed, and `ForgetFork` before `StartFork` has returned. -/
def early (env : Nat → Env β) (m : ModuleState β S) : ModuleStep β → Bool
  | .session fork s =>
      m.forks[fork]?.any fun k => fatal (env fork) k.world s && !k.world.session.onFinished
  | .forgetFork fork => m.calls.any fun c => decide (c.progress.fork? = some fork)
  | _ => false

/-- The fork is dead and its `Finalize` has returned. -/
def Fork.finished (k : Fork β S) : Bool := k.world.session.state == .dead && !k.forgetting

/-! ## The callback -/

theorem onFinished_of_reachable {l : Lifecycle} {callback : Bool} (h : l.Reachable callback)
    (halive : l.state ≠ .dead) : l.onFinished = callback ∧ l.finishedRuns = 0 := by
  rcases h with rfl | hsound
  · exact ⟨rfl, rfl⟩
  · exact ⟨(hsound.pending halive).2.2, (hsound.pending halive).2.1⟩

/-- Installing the callback in a fork that is not dead is as if it had been there from the start. -/
theorem reachable_setOnFinished {l : Lifecycle} {callback : Bool} (h : l.Reachable callback)
    (halive : l.state ≠ .dead) : Lifecycle.Reachable true { l with onFinished := true } := by
  rcases h with rfl | hsound
  · exact Or.inl rfl
  · right
    exact
      { started := hsound.started
        current := hsound.current
        pending := fun _ => ⟨(hsound.pending halive).1, (hsound.pending halive).2.1, rfl⟩
        retired := fun hdead => absurd hdead halive
        retrying := hsound.retrying
        idle := hsound.idle
        socket := hsound.socket
        deadline := hsound.deadline }

/-- A fork that is not dead has come to its state by the rules of its lifecycle. -/
def Fork.Lawful (k : Fork β S) : Prop :=
  k.world.session.state ≠ .dead → k.world.lifecycle.Reachable k.world.session.onFinished

theorem lawful_runSession {env : Env β} {k : Fork β S} {s : Session.Step β} (h : k.Lawful)
    (hcontract : contract k.world s = true) : (ModuleState.runSession env s k).Lawful := by
  intro halive
  have hbefore : k.world.session.state ≠ .dead := fun hdead => halive (dead_step hdead s)
  have hafter : (step env k.world s).lifecycle.Reachable k.world.session.onFinished := by
    rw [lifecycle_step]
    exact (h hbefore).step (allows_of_contract hcontract)
  have hsame : (step env k.world s).session.onFinished = k.world.session.onFinished :=
    (onFinished_of_reachable hafter halive).1
  show (step env k.world s).lifecycle.Reachable (step env k.world s).session.onFinished
  rw [hsame]
  exact hafter

/-- A fork with a callback does not finish unnoticed: `Finalize` leaves it forgetting. -/
theorem unfinished_runSession {env : Env β} {k : Fork β S} {s : Session.Step β} (h : k.Lawful)
    (hcontract : contract k.world s = true)
    (hcallback : fatal env k.world s = true → k.world.session.onFinished = true)
    (hunfinished : k.finished = false) : (ModuleState.runSession env s k).finished = false := by
  by_cases hdead : k.world.session.state = .dead
  · have hforgetting : k.forgetting = true := by
      simpa [Fork.finished, hdead] using hunfinished
    simp [Fork.finished, ModuleState.runSession, hforgetting]
  · by_cases hdies : (step env k.world s).session.state = .dead
    · -- `Finalize` finds the callback, so the fork now waits for the mutex
      have hinstalled := hcallback (dies (h hdead) hcontract hdead hdies).1
      have hreach : k.world.lifecycle.Reachable true := hinstalled ▸ h hdead
      have hnone : k.world.finishedRuns = 0 := (onFinished_of_reachable hreach hdead).2
      have hone : (step env k.world s).finishedRuns = 1 := by
        have hafter : (step env k.world s).lifecycle.Reachable true := by
          rw [lifecycle_step]
          exact hreach.step (allows_of_contract hcontract)
        rcases hafter with hinit | hsound
        · have hstate : (step env k.world s).session.state = .connecting :=
            congrArg Lifecycle.state hinit
          cases hstate.symm.trans hdies
        · exact (hsound.retired hdies).2
      simp [Fork.finished, ModuleState.runSession, hnone, hone]
    · simp [Fork.finished, ModuleState.runSession, hdies]

/-! ## Invariant -/

namespace ModuleState

/-- Fork `f` belongs to `uuid` and has not been finalized. -/
def Unfinished (m : ModuleState β S) (uuid : Text) (f : Nat) : Prop :=
  ∃ k, m.forks[f]? = some k ∧ k.uuid = uuid ∧ k.finished = false

/-- No fork that is registered, or that a `StartFork` still works on, has been finalized. -/
structure Tidy (m : ModuleState β S) : Prop where
  lawful : ∀ (f : Nat) (k : Fork β S), m.forks[f]? = some k → k.Lawful
  held : ∀ (i : Nat) (c : Call) (f : Nat), m.calls[i]? = some c → c.progress.fork? = some f → m.Unfinished c.uuid f
  registered : ∀ uuid f, f ∈ m.registry.forksFor uuid → m.Unfinished uuid f

variable {m : ModuleState β S}

theorem Tidy.same (h : m.Tidy) {m' : ModuleState β S} (hforks : m'.forks = m.forks)
    (hcalls : m'.calls = m.calls) (hregistry : m'.registry = m.registry) : m'.Tidy := by
  have hkeeps : ∀ uuid f, m.Unfinished uuid f → m'.Unfinished uuid f := by
    rintro uuid f ⟨k, hk, hrest⟩
    exact ⟨k, hforks ▸ hk, hrest⟩
  refine ⟨?_, ?_, ?_⟩
  · rw [hforks]
    exact h.lawful
  · rw [hcalls]
    exact fun i c f hc hf => hkeeps _ _ (h.held i c f hc hf)
  · rw [hregistry]
    exact fun uuid f hf => hkeeps _ _ (h.registered uuid f hf)

theorem unfinished_modify {uuid : Text} {f fork : Nat} {g : Fork β S → Fork β S}
    (h : m.Unfinished uuid f)
    (hg : ∀ k, m.forks[fork]? = some k → (g k).uuid = k.uuid ∧
      (k.finished = false → (g k).finished = false)) :
    (m.modifyFork fork g).Unfinished uuid f := by
  rcases h with ⟨k, hk, huuid, hfinished⟩
  by_cases heq : fork = f
  · subst heq
    refine ⟨g k, ?_, (hg k hk).1.trans huuid, (hg k hk).2 hfinished⟩
    simp [modifyFork, hk]
  · refine ⟨k, ?_, huuid, hfinished⟩
    simp [modifyFork, heq, hk]

theorem Tidy.modifyFork (h : m.Tidy) (fork : Nat) (g : Fork β S → Fork β S)
    (hg : ∀ k, m.forks[fork]? = some k → (g k).uuid = k.uuid ∧
      (k.finished = false → (g k).finished = false))
    (hlawful : ∀ k, m.forks[fork]? = some k → k.Lawful → (g k).Lawful) :
    (m.modifyFork fork g).Tidy where
  lawful := by
    intro f k hk
    simp only [ModuleState.modifyFork, List.getElem?_modify] at hk
    rcases Option.map_eq_some_iff.mp hk with ⟨k₀, hk₀, hnew⟩
    split at hnew
    · rename_i heq
      subst heq hnew
      exact hlawful k₀ hk₀ (h.lawful fork k₀ hk₀)
    · subst hnew
      exact h.lawful f k₀ hk₀
  held := fun i c f hc hf => unfinished_modify (h.held i c f hc hf) hg
  registered := fun uuid f hf => unfinished_modify (h.registered uuid f hf) hg

theorem Tidy.modifyChannel (h : m.Tidy) (uuid : Text) (f : Channel → Channel) :
    (m.modifyChannel uuid f).Tidy :=
  h.same rfl rfl rfl

theorem Tidy.setOnFinished (h : m.Tidy) (fork : Nat) : (m.setOnFinished fork).Tidy := by
  refine h.modifyFork fork _ (fun k _ => ⟨rfl, id⟩) ?_
  intro k _ hlawful halive
  exact reachable_setOnFinished (hlawful halive) halive

/-- A call goes on, with a fork that has not been finalized or with none. -/
theorem Tidy.setCall (h : m.Tidy) {i : Nat} {call : Call} (hcall : m.calls[i]? = some call)
    {c : Call} (hheld : ∀ f, c.progress.fork? = some f → m.Unfinished c.uuid f) :
    Tidy { m with calls := m.calls.set i c } where
  lawful := h.lawful
  held := by
    intro j x f hx hf
    refine forall_set (P := fun _ x => ∀ f, x.progress.fork? = some f → m.Unfinished x.uuid f)
      hcall hheld ?_ j x hx f hf
    intro j x _ hx f hf
    exact h.held j x f hx hf
  registered := h.registered

/-- A fork that `Create` returned. -/
theorem Tidy.created (h : m.Tidy) {params : ForkParams} {tuning : Tuning} {supply : Buffers.SlabSupply}
    {world : World β S} (hcreate : World.create params tuning false supply = some world)
    (uuid : Text) :
    let m' : ModuleState β S :=
      { m with forks := m.forks ++ [{ uuid := uuid, world := world, forgetting := false }] }
    m'.Tidy ∧ m'.Unfinished uuid m.forks.length := by
  intro m'
  have hfresh : world.lifecycle = .initial false := lifecycle_create hcreate
  have hstate : world.session.state = .connecting := congrArg Lifecycle.state hfresh
  have hcallback : world.session.onFinished = false := congrArg Lifecycle.onFinished hfresh
  have hkeeps : ∀ uuid f, m.Unfinished uuid f → m'.Unfinished uuid f := by
    rintro uuid f ⟨k, hk, hrest⟩
    exact ⟨k, List.getElem?_append_left (List.getElem?_eq_some_iff.mp hk).1 ▸ hk, hrest⟩
  refine ⟨⟨?_, ?_, ?_⟩, ?_⟩
  · intro f k hk
    by_cases hlt : f < m.forks.length
    · rw [List.getElem?_append_left hlt] at hk
      exact h.lawful f k hk
    · rw [List.getElem?_append_right (Nat.le_of_not_lt hlt)] at hk
      cases List.mem_singleton.mp (List.mem_of_getElem? hk)
      intro _
      rw [hcallback]
      exact Or.inl hfresh
  · exact fun i c f hc hf => hkeeps _ _ (h.held i c f hc hf)
  · exact fun uuid f hf => hkeeps _ _ (h.registered uuid f hf)
  · refine ⟨_, List.getElem?_concat_length, rfl, ?_⟩
    simp [Fork.finished, hstate]

/-- The stages of `StartFork`. -/
theorem Tidy.advance (h : m.Tidy) (i : Nat) (answers : Answers) : (m.advance i answers).Tidy := by
  rcases advance_cases i answers m with
    hsame | ⟨request, stage, m', progress, hcall, hproceeds, hstep⟩
  · rw [hsame]
    exact h
  · have hheld : ∀ f, stage.fork? = some f → m.Unfinished request.params.callUuid f :=
      fun f hf => h.held i _ f hcall hf
    rw [hstep, ← hproceeds.calls]
    rw [← hproceeds.calls] at hcall
    cases hproceeds with
    | refused reason =>
        have htidy : (m.emitStartFailed request.params.callUuid reason).Tidy := h.same rfl rfl rfl
        refine htidy.setCall hcall ?_
        intro f hf
        cases hf
    | created world hcreate =>
        rcases h.created hcreate request.params.callUuid with ⟨htidy, hnew⟩
        refine htidy.setCall hcall ?_
        intro f hf
        cases hf
        exact hnew
    | hooked fork =>
        refine (h.setOnFinished fork).setCall hcall ?_
        exact fun f hf => unfinished_modify (hheld f hf) fun k _ => ⟨rfl, id⟩
    | abandoned fork error =>
        have htidy : (m.stopFork fork).Tidy :=
          h.modifyFork fork _ (fun k _ => ⟨rfl, id⟩) fun k _ => id
        refine htidy.setCall hcall ?_
        intro f hf
        cases hf
    | attached fork _ => exact (h.modifyChannel _ _).setCall hcall hheld
    | recorded fork => exact (h.modifyChannel _ _).setCall hcall hheld
    | ready fork => exact (h.modifyChannel _ _).setCall hcall hheld
    | inserted fork =>
        -- the fork was held until now, so it has not been finalized
        have htidy : Tidy { m with registry := m.registry.add request.params.callUuid fork } := by
          refine ⟨h.lawful, h.held, ?_⟩
          intro uuid f hf
          rcases m.registry.mem_forksFor_add hf with hold | ⟨rfl, rfl⟩
          · exact h.registered uuid f hold
          · exact hheld f rfl
        refine htidy.setCall hcall ?_
        intro f hf
        cases hf

/-- `ForgetFork` of a fork that no `StartFork` works on. -/
theorem Tidy.forgetFork (h : m.Tidy) {fork : Nat}
    (hreturned : ∀ c ∈ m.calls, c.progress.fork? ≠ some fork) : (m.forgetFork fork).Tidy := by
  unfold ModuleState.forgetFork
  split
  · rename_i k hk
    split
    · -- every other fork is where it was
      have hothers : ∀ uuid f, f ≠ fork → m.Unfinished uuid f →
          ModuleState.Unfinished
            { m with
              registry := m.registry.forget k.uuid fork
              forks := m.forks.set fork { k with forgetting := false } } uuid f := by
        rintro uuid f hne ⟨k', hk', hrest⟩
        exact ⟨k', by rw [List.getElem?_set_ne (Ne.symm hne), hk'], hrest⟩
      refine ⟨?_, ?_, ?_⟩
      · refine forall_set (P := fun _ k => Fork.Lawful k) hk (h.lawful fork k hk) ?_
        exact fun j x _ hx => h.lawful j x hx
      · intro i c f hc hf
        refine hothers _ _ ?_ (h.held i c f hc hf)
        rintro rfl
        exact hreturned c (List.mem_of_getElem? hc) hf
      · intro uuid f hf
        have hbefore : f ∈ m.registry.forksFor uuid :=
          (m.registry.forksFor_forget_sublist k.uuid uuid fork).subset hf
        refine hothers _ _ ?_ (h.registered uuid f hbefore)
        rintro rfl
        -- it was registered under its own uuid only
        rcases h.registered uuid f hbefore with ⟨k', hk', rfl, -⟩
        cases hk.symm.trans hk'
        exact m.registry.not_mem_forget_self k.uuid f hf
    · exact h
  · exact h

end ModuleState

theorem tidy_step {env : Nat → Env β} {m : ModuleState β S} {s : ModuleStep β} (h : m.Tidy)
    (hcontract : moduleContract m s = true) (hearly : early env m s = false) :
    (moduleStep env m s).Tidy := by
  cases s with
  | startFork request =>
      refine ⟨h.lawful, ?_, h.registered⟩
      intro i c f hc hf
      rcases List.mem_append.mp (List.mem_of_getElem? hc) with hold | hnew
      · rcases List.mem_iff_getElem?.mp hold with ⟨j, hj⟩
        exact h.held j c f hj hf
      · -- a call that has just passed its check works on no fork
        cases List.mem_singleton.mp hnew
        simp only at hf
        split at hf <;> cases hf
  | advance call answers => exact h.advance call answers
  | session fork s =>
      have hlawful : ∀ k, m.forks[fork]? = some k → contract k.world s = true := by
        intro k hk
        have hboth : contract k.world s = true ∧ (onShard s = false ∨ k.forgetting = false) := by
          simpa [moduleContract, hk] using hcontract
        exact hboth.1
      refine h.modifyFork fork _ ?_ ?_
      · intro k hk
        refine ⟨rfl, ?_⟩
        refine unfinished_runSession (h.lawful fork k hk) (hlawful k hk) ?_
        simpa [early, hk] using hearly
      · exact fun k hk hk' => lawful_runSession hk' (hlawful k hk)
  | forgetFork fork =>
      refine h.forgetFork ?_
      intro c hc hf
      have hheld : early env m (.forgetFork fork) = true :=
        List.any_eq_true.mpr ⟨c, hc, decide_eq_true hf⟩
      rw [hearly] at hheld
      cases hheld

/-- In a run in order, a fork that has been finalized is not registered. -/
theorem finished_forks_forgotten {env : Nat → Env β} {maxForksPerCall : Nat} {m : ModuleState β S}
    (hrun : Run (moduleStep env) (fun m s => moduleContract m s = true ∧ early env m s = false)
      (.initial maxForksPerCall) m)
    {f : Nat} {k : Fork β S} (hk : m.forks[f]? = some k) (hfinished : k.finished = true)
    (uuid : Text) : f ∉ m.registry.forksFor uuid := by
  have htidy : m.Tidy := by
    refine hrun.invariant (I := ModuleState.Tidy) ⟨?_, ?_, ?_⟩ ?_
    · intro f k hk
      cases hk
    · intro i c f hc
      cases hc
    · intro uuid f hf
      cases hf
    · exact fun a s ha hguard => tidy_step ha hguard.1 hguard.2
  intro hregistered
  rcases htidy.registered uuid f hregistered with ⟨k', hk', -, hunfinished⟩
  cases hk.symm.trans hk'
  rw [hfinished] at hunfinished
  cases hunfinished

/-- A fork that was started, hung up on by its server, finalized and forgotten. -/
theorem finished_forks_forgotten_sample :
    let m := exec (moduleStep Sample.env) (Sample.loaded 1)
      (.startFork Sample.request :: (Sample.through 0 ++
        [.session 0 .start, .session 0 (.onConnected 0),
          .session 0 (.onText 0 Session.Sample.disconnectText), .session 0 (.onClosed 0 false),
          .forgetFork 0]))
    ∃ k, m.forks[0]? = some k ∧ k.finished = true ∧ 0 ∉ m.registry.forksFor Sample.uuid := by
  intro m
  have hany : m.forks[0]?.any Fork.finished = true := by decide +kernel
  rcases (Option.any_eq_true _ _).mp hany with ⟨k, hk, hfinished⟩
  exact ⟨k, hk, hfinished,
    finished_forks_forgotten (Run.of_exec (by decide +kernel)) hk hfinished Sample.uuid⟩

/-- The server hangs up before `StartFork` has come back from `ShardPool::StartFork`: no callback is
there when the fork is finalized, and the fork is inserted after its end. -/
theorem finished_fork_registered :
    let m := exec (moduleStep Sample.env) (Sample.loaded 1)
      ([.startFork Sample.request, .advance 0 Sample.answers, .session 0 .start,
        .session 0 (.onConnected 0), .session 0 (.onText 0 Session.Sample.disconnectText),
        .session 0 (.onClosed 0 false)] ++ List.replicate 5 (.advance 0 Sample.answers))
    Run (moduleStep Sample.env) (fun m s => moduleContract m s = true) (Sample.loaded 1) m ∧
      m.calls.map Call.progress = [.succeeded 0] ∧ m.forks.map Fork.finished = [true] ∧
      m.registry.forksFor Sample.uuid = [0] :=
  ⟨Run.of_exec (by decide +kernel), by decide +kernel, by decide +kernel, by decide +kernel⟩

end Module
end AudioFork
