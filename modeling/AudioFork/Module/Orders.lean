import AudioFork.Module.Retirement

/-!
# Orders — what a command says to the forks of its call

`pause`, `modify`, `send_text` and a DTMF digit go to every fork of a call.  The thread copies the
registry's entry under the mutex and then calls into the forks one by one, without it: shards, other
commands and `StartFork` run in between, and a fork of the copy may be over when its turn comes.

In every interleaving the registry holds a fork once, under the uuid it was created for (`Filed`).
-/

namespace AudioFork
namespace Module

open Lib Session Protocol

variable {β : Type} {S : ℕ+}

/-! ## The registry -/

/-- The fork that a call for `uuid` is about to register. -/
def Call.promised (uuid : Text) (c : Call) : List Nat :=
  if c.uuid = uuid then c.progress.fork?.toList else []

namespace ModuleState

variable {m m' : ModuleState β S}

/-- Whose forks there are. -/
def uuids (m : ModuleState β S) : List Text := m.forks.map Fork.uuid

/-- The forks registered for `uuid` and those on their way. -/
def places (m : ModuleState β S) (uuid : Text) : Multiset Nat :=
  (m.registry.forksFor uuid : Multiset Nat) + holdings (Call.promised uuid) m.calls

/-- Each fork has one place, under its own uuid. -/
def Filed (m : ModuleState β S) : Prop :=
  ∀ uuid, (m.places uuid).Nodup ∧ ∀ f ∈ m.places uuid, m.uuids[f]? = some uuid

/-- Forks stay whose they are, and filed. -/
structure Follows (m m' : ModuleState β S) : Prop where
  uuids : m.uuids <+: m'.uuids
  filed : m.Filed → m'.Filed

theorem belongs_later {l l' : List Text} (h : l <+: l') {uuid : Text} {f : Nat}
    (hf : l[f]? = some uuid) : l'[f]? = some uuid := by
  rcases h with ⟨more, rfl⟩
  rw [List.getElem?_append_left (List.getElem?_eq_some_iff.mp hf).1, hf]

theorem uuids_modifyFork (fork : Nat) {g : Fork β S → Fork β S} (hg : ∀ k, (g k).uuid = k.uuid) :
    m.uuids = (m.modifyFork fork g).uuids :=
  (map_modify_same hg m.forks fork).symm

/-- Only places are given up. -/
theorem Follows.of_le (huuids : m.uuids = m'.uuids)
    (hplaces : ∀ uuid, m'.places uuid ≤ m.places uuid) : Follows m m' := by
  refine ⟨huuids ▸ List.prefix_refl _, fun h uuid => ⟨?_, fun f hf => ?_⟩⟩
  · exact Multiset.nodup_of_le (hplaces uuid) (h uuid).1
  · rw [← huuids]
    exact (h uuid).2 f (Multiset.mem_of_le (hplaces uuid) hf)

/-- A call goes on with the fork it has, or without one. -/
theorem Follows.goOn {i : Nat} {request : Request} {progress progress' : Progress}
    (hcall : m.calls[i]? = some { request := request, progress := progress })
    (hfork : progress'.fork? = progress.fork? ∨ progress'.fork? = none)
    (hregistry : m'.registry = m.registry) (huuids : m.uuids = m'.uuids) :
    Follows m { m' with calls := m.calls.set i { request := request, progress := progress' } } := by
  refine .of_le huuids fun uuid => ?_
  rcases holdings_split (Call.promised uuid) hcall with ⟨rest, hbefore, hafter⟩
  unfold places
  simp only
  rw [hregistry, hbefore, hafter]
  refine add_le_add (le_refl _) (add_le_add (le_refl _) ?_)
  unfold Call.promised
  rcases hfork with hsame | hnone
  · rw [hsame]
    exact le_refl _
  · rw [hnone, Option.toList_none, ite_self]
    exact Multiset.zero_le _

/-- A new fork gets a number that no other has. -/
theorem Follows.created {i : Nat} {request : Request} {k : Fork β S}
    (hcall : m.calls[i]? = some { request := request, progress := .running .checked })
    (hk : k.uuid = request.params.callUuid) :
    Follows m { m with
      forks := m.forks ++ [k]
      calls := m.calls.set i
        { request := request, progress := .running (.created m.forks.length) } } := by
  have huuids : (m.forks ++ [k]).map Fork.uuid = m.uuids ++ [k.uuid] := List.map_append
  have hlength : m.uuids.length = m.forks.length := List.length_map ..
  refine ⟨⟨_, huuids.symm⟩, fun h uuid => ?_⟩
  rcases h uuid with ⟨hnodup, hbelongs⟩
  have hkept : ∀ f ∈ m.places uuid, (m.uuids ++ [k.uuid])[f]? = some uuid := fun f hf =>
    belongs_later (List.prefix_append _ _) (hbelongs f hf)
  unfold places ModuleState.uuids
  simp only
  rw [holdings_fill (Call.promised uuid) hcall (ite_self _), ← add_assoc, huuids]
  show (m.places uuid + _).Nodup ∧ ∀ f ∈ m.places uuid + _, _
  simp only [Call.promised, Progress.fork?, Stage.fork?, Option.toList_some]
  split
  · rename_i huuid
    rw [Multiset.coe_singleton, add_comm, Multiset.singleton_add, Multiset.nodup_cons,
      Multiset.forall_mem_cons]
    refine ⟨⟨fun hf => ?_, hnodup⟩, ?_, hkept⟩
    · have hlt := (List.getElem?_eq_some_iff.mp (hbelongs _ hf)).1
      exact absurd hlt (by simp [hlength])
    · rw [← hlength, List.getElem?_concat_length, hk]
      exact congrArg some huuid
  · rw [Multiset.coe_nil, add_zero]
    exact ⟨hnodup, hkept⟩

/-- The promise of a call is kept: its fork moves into the registry. -/
theorem Follows.inserted {i : Nat} {request : Request} {fork : Nat}
    (hcall : m.calls[i]? = some { request := request, progress := .running (.ready fork) }) :
    Follows m { m with
      registry := m.registry.add request.params.callUuid fork
      calls := m.calls.set i { request := request, progress := .succeeded fork } } := by
  refine .of_le rfl fun uuid => ?_
  rcases holdings_split (Call.promised uuid) hcall with ⟨rest, hbefore, hafter⟩
  have hgiven : Call.promised uuid { request := request, progress := .succeeded fork } = [] :=
    ite_self _
  unfold places
  simp only
  rw [hbefore, hafter, hgiven, Multiset.coe_nil, add_zero]
  by_cases huuid : request.params.callUuid = uuid
  · have hheld : Call.promised uuid
        { request := request, progress := .running (.ready fork) } = [fork] := if_pos huuid
    rw [← huuid, Registry.forksFor_add_self, huuid, hheld, ← Multiset.coe_add, add_assoc,
      add_comm rest]
  · rw [Registry.forksFor_add_other _ (Ne.symm huuid), ← add_assoc]
    exact Multiset.le_add_right _ _

theorem follows_advance (i : Nat) (answers : Answers) : Follows m (m.advance i answers) := by
  rcases advance_cases i answers m with
    hsame | ⟨request, stage, m', progress, hcall, hproceeds, hstep⟩
  · rw [hsame]
    exact .of_le rfl fun _ => le_refl _
  · rw [hstep]
    cases hproceeds with
    | refused reason => exact .goOn hcall (Or.inr rfl) rfl rfl
    | created world hcreate => exact .created hcall rfl
    | hooked fork => exact .goOn hcall (Or.inl rfl) rfl (uuids_modifyFork fork fun _ => rfl)
    | abandoned fork error =>
        exact .goOn hcall (Or.inr rfl) rfl (uuids_modifyFork fork fun _ => rfl)
    | inserted fork => exact .inserted hcall
    | _ => exact .goOn hcall (Or.inl rfl) rfl rfl

theorem follows_step (env : Nat → Env β) (s : ModuleStep β) : Follows m (moduleStep env m s) := by
  cases s with
  | startFork request =>
      refine .of_le rfl fun uuid => ?_
      show _ + holdings (Call.promised uuid) (m.calls ++ [_]) ≤ _
      rw [holdings_concat]
      refine add_le_add (le_refl _) ?_
      -- a call that has just begun has no fork to promise
      unfold Call.promised
      split <;> split <;> simp [Progress.fork?, Stage.fork?]
  | advance call answers => exact follows_advance call answers
  | session fork s => exact .of_le (uuids_modifyFork fork fun _ => rfl) fun _ => le_refl _
  | forgetFork fork =>
      show Follows m (m.forgetFork fork)
      unfold forgetFork
      split
      · rename_i k hk
        split
        · refine .of_le ?_ fun uuid => add_le_add ?_ (le_refl _)
          · unfold uuids
            rw [List.map_set, set_of_getElem? (by rw [List.getElem?_map, hk]; rfl)]
          · exact Multiset.coe_le.mpr (m.registry.forksFor_forget_sublist k.uuid uuid fork).subperm
        · exact .of_le rfl fun _ => le_refl _
      · exact .of_le rfl fun _ => le_refl _

end ModuleState

/-! ## The forks of a call -/

/-- What a command whose argument is accepted passes on. -/
inductive Order where
  | setPaused (paused : Bool)
  | modify (endpoint : Endpoint)
  | sendText (payload : Text)
  | dtmf (digit : UInt8) (duration : Nat)

def Order.entry : Order → Session.Step β
  | .setPaused paused => .setPaused paused
  | .modify endpoint => .modify endpoint
  | .sendText payload => .sendText payload
  | .dtmf digit duration => .sendDtmf digit (duration / 8)

/-- A thread in `SetForksPaused`, `ModifyForks`, `SendTextToForks` or `OnRecvDtmf`: what is left of
the copy, and the forks called so far as they were. -/
structure Errand (β : Type) (S : ℕ+) where
  uuid : Text
  order : Order
  ahead : List Nat
  told : List (Nat × World β S)

/-- What `ForksFor` returned. -/
def Errand.forks (e : Errand β S) : List Nat := e.told.map Prod.fst ++ e.ahead

/-- What the command returns in `error`.  `Modify` and `SendText` return whether the fork is live. -/
def Errand.error (e : Errand β S) : Option Text :=
  match e.order with
  | .dtmf _ _ => none
  | .setPaused _ => if e.forks = [] then some (ascii "no fork running on this channel") else none
  | .modify _ | .sendText _ =>
      if e.forks = [] then some (ascii "no fork running on this channel")
      else if e.told.any (·.2.session.state.live) then none
      else some (ascii "fork is stopping")

theorem Errand.unchanged (env : Nat → Env β) {e : Errand β S} (herror : e.error ≠ none) :
    ∀ t ∈ e.told, step (env t.1) t.2 e.order.entry = t.2 := by
  intro t ht
  have hforks : e.forks ≠ [] := List.ne_nil_of_mem (List.mem_append_left _ (List.mem_map_of_mem ht))
  rcases e with ⟨uuid, order, ahead, told⟩
  cases order <;> simp_all [error, Order.entry, step, World.modify, World.sendText]
  all_goals simp [herror t.1 t.2 ht]

structure Office (β : Type) (S : ℕ+) where
  state : ModuleState β S
  errands : List (Errand β S)

inductive OfficeStep (β : Type) where
  | elsewhere (s : ModuleStep β)
  | order (uuid : Text) (order : Order)
  | tell (errand : Nat)

namespace Office

variable {env : Nat → Env β} {o : Office β S}

/-- The next fork of the copy is called. -/
def tell (env : Nat → Env β) (o : Office β S) (i : Nat) : Option (Office β S) := do
  let e ← o.errands[i]?
  let fork ← e.ahead.head?
  let k ← o.state.forks[fork]?
  return {
    state := moduleStep env o.state (.session fork e.order.entry)
    errands := o.errands.set i
      { e with ahead := e.ahead.tail, told := e.told ++ [(fork, k.world)] } }

/-- A thread copies the forks of `uuid`. -/
def dispatch (uuid : Text) (order : Order) (o : Office β S) : Office β S :=
  { o with errands := o.errands ++ [⟨uuid, order, o.state.registry.forksFor uuid, []⟩] }

def setForksPaused (uuid : Text) (paused : Bool) : Office β S → Office β S :=
  dispatch uuid (.setPaused paused)

def modifyForks (uuid : Text) (endpoint : Endpoint) : Office β S → Office β S :=
  dispatch uuid (.modify endpoint)

def sendTextToForks (uuid payload : Text) : Office β S → Office β S :=
  dispatch uuid (.sendText payload)

def onRecvDtmf (uuid : Text) (digit : UInt8) (duration : Nat) : Office β S → Office β S :=
  dispatch uuid (.dtmf digit duration)

def step (env : Nat → Env β) (o : Office β S) : OfficeStep β → Office β S
  | .elsewhere s => { o with state := moduleStep env o.state s }
  | .order uuid (.setPaused paused) => o.setForksPaused uuid paused
  | .order uuid (.modify endpoint) => o.modifyForks uuid endpoint
  | .order uuid (.sendText payload) => o.sendTextToForks uuid payload
  | .order uuid (.dtmf digit duration) => o.onRecvDtmf uuid digit duration
  | .tell i => (o.tell env i).getD o

/-- Each errand goes to different forks of its call. -/
def Sound (o : Office β S) : Prop :=
  o.state.Filed ∧ ∀ e ∈ o.errands, e.forks.Nodup ∧ ∀ f ∈ e.forks, o.state.uuids[f]? = some e.uuid

theorem Sound.elsewhere (h : o.Sound) (env : Nat → Env β) (s : ModuleStep β) :
    Sound { o with state := moduleStep env o.state s } := by
  have hfollows := o.state.follows_step env s
  refine ⟨hfollows.filed h.1, fun e he => ⟨(h.2 e he).1, fun f hf => ?_⟩⟩
  exact ModuleState.belongs_later hfollows.uuids ((h.2 e he).2 f hf)

theorem Sound.dispatch (h : o.Sound) (uuid : Text) (order : Order) :
    (o.dispatch uuid order).Sound := by
  refine ⟨h.1, List.forall_mem_append.mpr ⟨h.2, List.forall_mem_singleton.mpr ?_⟩⟩
  have hle : (o.state.registry.forksFor uuid : Multiset Nat) ≤ o.state.places uuid :=
    Multiset.le_add_right _ _
  exact ⟨Multiset.coe_nodup.mp (Multiset.nodup_of_le hle (h.1 uuid).1),
    fun f hf => (h.1 uuid).2 f (Multiset.mem_of_le hle hf)⟩

theorem Sound.step (h : o.Sound) (s : OfficeStep β) : (o.step env s).Sound := by
  cases s with
  | elsewhere s => exact h.elsewhere env s
  | order uuid order => cases order <;> exact h.dispatch uuid _
  | tell i =>
      show ((o.tell env i).getD o).Sound
      cases htell : o.tell env i with
      | none => exact h
      | some o' =>
          simp only [tell, bind, Option.bind_eq_some_iff, pure, Option.some.injEq] at htell
          rcases htell with ⟨⟨uuid, order, ahead, told⟩, he, fork, hfork, k, -, rfl⟩
          rcases List.head?_eq_some_iff.mp hfork with ⟨rest, rfl⟩
          have hsession := h.elsewhere env (.session fork order.entry)
          refine ⟨hsession.1, fun e' he' => ?_⟩
          rcases List.mem_or_eq_of_mem_set he' with he' | rfl
          · exact hsession.2 e' he'
          · simpa [Errand.forks] using hsession.2 _ (List.mem_of_getElem? he)

end Office

/-- In every interleaving a command calls into different forks of its own call, and one that returns
an error has changed none of them. -/
theorem orders_reach_their_call {env : Nat → Env β} {n : Nat} {o : Office β S}
    (hrun : Run (Office.step env) (fun _ _ => True) ⟨.initial n, []⟩ o) :
    ∀ e ∈ o.errands,
      e.forks.Nodup ∧ (∀ f ∈ e.forks, o.state.forks[f]?.map Fork.uuid = some e.uuid) ∧
        (e.error ≠ none → ∀ t ∈ e.told, step (env t.1) t.2 e.order.entry = t.2) := by
  have hsound : o.Sound := by
    refine hrun.invariant (I := Office.Sound) ⟨fun uuid => ?_, List.forall_mem_nil _⟩
      fun _ s h _ => h.step s
    exact ⟨Multiset.nodup_zero, fun f hf => absurd hf (Multiset.notMem_zero f)⟩
  intro e he
  refine ⟨(hsound.2 e he).1, fun f hf => ?_, Errand.unchanged env⟩
  rw [← List.getElem?_map]
  exact (hsound.2 e he).2 f hf

/-- A text for a fork that was torn down in the meantime. -/
theorem orders_reach_their_call_sample :
    let o := exec (Office.step Sample.env) ⟨Sample.loaded 1, []⟩
      ((.startFork Sample.request :: Sample.through 0).map .elsewhere ++
        [.order Sample.uuid (.sendText []), .elsewhere (.session 0 .stop),
          .elsewhere (.session 0 (.runPosted 0)), .tell 0])
    o.errands.map Errand.error = [some (ascii "fork is stopping")] ∧
      ∀ e ∈ o.errands, e.error ≠ none →
        ∀ t ∈ e.told, step (Sample.env t.1) t.2 e.order.entry = t.2 :=
  ⟨by decide +kernel, fun e he =>
    (orders_reach_their_call (Run.of_exec (by decide +kernel)) e he).2.2⟩

end Module
end AudioFork
