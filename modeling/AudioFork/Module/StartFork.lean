import AudioFork.Lib.Holdings
import AudioFork.Module.Registry
import AudioFork.Session.Step

/-!
# StartFork — the module while forks are being started and finish

`StartFork` runs on the thread of the API command that asked for the fork, `ForkSession` on the thread
of its shard, and any number of commands run at once.  `StartFork` is cut at the points where another
thread can see the difference: the limit check and the insertion are blocks under `registry_mutex`;
between them the fork is created and posted to its shard, its callback is installed, and the media bug
is added and recorded in the channel.  A `Call` remembers how far it has come.

The shard runs entry points of the fork as soon as it is created.  `Finalize` runs the callback if one
is installed; the callback's `ForgetFork` has to wait for the mutex, so it is a step of its own.

The result is about the limit of forks per call: the registry stays within it as long as no `StartFork`
passes its check while the forks already on their way would fill it.
-/

namespace AudioFork
namespace Module

open Buffers Lib Session

variable {β : Type} {S : ℕ+}

/-! ## State -/

structure Fork (β : Type) (S : ℕ+) where
  /-- The uuid captured by the callback. -/
  uuid : Text
  world : World β S
  /-- `Finalize` has called the callback, and `ForgetFork` does not have the mutex yet. -/
  forgetting : Bool

/-- What the module keeps at a channel.  A media bug is named by the fork it feeds. -/
structure Channel where
  bugs : List Nat
  /-- The bug stored under `kPrivateKey`. -/
  recorded : Option Nat
  /-- The sentinel stored under `kDtmfHookKey`. -/
  dtmfHook : Bool
  deriving DecidableEq, Repr

/-- The arguments of `StartFork`, parsed. -/
structure Request where
  params : ForkParams
  tuning : Tuning
  sessionRate : Nat

/-- Where a `StartFork` stands: past its limit check; with a fork; the callback installed; the media
bug added; the bug recorded in the channel; ready to insert. -/
inductive Stage
  | checked
  | created (fork : Nat)
  | hooked (fork : Nat)
  | attached (fork : Nat)
  | recorded (fork : Nat)
  | ready (fork : Nat)
  deriving DecidableEq, Repr

def Stage.fork? : Stage → Option Nat
  | .checked => none
  | .created fork | .hooked fork | .attached fork | .recorded fork | .ready fork => some fork

inductive Progress
  | running (stage : Stage)
  | failed (error : Text)
  | succeeded (fork : Nat)
  deriving DecidableEq, Repr

/-- The fork that a call in progress works on. -/
def Progress.fork? : Progress → Option Nat
  | .running stage => stage.fork?
  | _ => none

def Progress.isRunning : Progress → Bool
  | .running _ => true
  | _ => false

structure Call where
  request : Request
  progress : Progress

def Call.uuid (c : Call) : Text := c.request.params.callUuid

/-- A call for `uuid` past its limit check that has neither failed nor inserted its fork. -/
def Call.bookedFor (uuid : Text) (c : Call) : Bool := decide (c.uuid = uuid) && c.progress.isRunning

structure ModuleState (β : Type) (S : ℕ+) where
  maxForksPerCall : Nat
  registry : Registry
  /-- Every fork ever created. -/
  forks : List (Fork β S)
  /-- Every call of `StartFork` so far. -/
  calls : List Call
  channels : Text → Channel
  startFailed : Nat
  events : List ForkEvent

namespace ModuleState

def initial (maxForksPerCall : Nat) : ModuleState β S :=
  { maxForksPerCall := maxForksPerCall
    registry := .empty
    forks := []
    calls := []
    channels := fun _ => { bugs := [], recorded := none, dtmfHook := false }
    startFailed := 0
    events := [] }

/-! ## StartFork -/

def emitStartFailed (uuid reason : Text) (m : ModuleState β S) : ModuleState β S :=
  { m with
    startFailed := m.startFailed + 1
    events := m.events ++
      [{ type := .startFailed
         callUuid := uuid
         forkId := []
         detail := reason
         gapMs := 0
         droppedMs := 0 }] }

def modifyChannel (uuid : Text) (f : Channel → Channel) (m : ModuleState β S) : ModuleState β S :=
  { m with channels := Function.update m.channels uuid (f (m.channels uuid)) }

def modifyFork (fork : Nat) (f : Fork β S → Fork β S) (m : ModuleState β S) : ModuleState β S :=
  { m with forks := m.forks.modify fork f }

/-- `fork->Stop()`. -/
def stopFork (fork : Nat) (m : ModuleState β S) : ModuleState β S :=
  m.modifyFork fork fun k => { k with world := k.world.stop }

/-- `fork->set_on_finished(…)`. -/
def setOnFinished (fork : Nat) (m : ModuleState β S) : ModuleState β S :=
  m.modifyFork fork fun k => { k with world := { k.world with session.onFinished := true } }

/-- The first locked block. -/
def startFork (request : Request) (m : ModuleState β S) : ModuleState β S :=
  let progress :=
    if m.registry.full m.maxForksPerCall request.params.callUuid then
      Progress.failed (ascii "max forks per call reached")
    else
      .running .checked
  { m with calls := m.calls ++ [{ request := request, progress := progress }] }

/-- What the pool, the shards and FreeSWITCH answer to a `StartFork`. -/
structure Answers where
  canLease : Bool
  /-- The pool as the new fork finds it. -/
  supply : SlabSupply
  resamplerCreated : Bool
  bugAdded : Bool
  hookAdded : Bool

/-- What `StartFork` does from one stage to the next. -/
def proceed (answers : Answers) (request : Request) :
    Stage → ModuleState β S → ModuleState β S × Progress
  | .checked, m =>
      if answers.canLease = false then
        (m.emitStartFailed request.params.callUuid (ascii "global memory cap reached"),
          .failed (ascii "global memory cap reached"))
      else
        match World.create request.params request.tuning false answers.supply with
        | none =>
            (m.emitStartFailed request.params.callUuid (ascii "fork could not be created"),
              .failed (ascii "fork could not be created"))
        | some world =>
            -- `Adopt` posts `Start`: from here on the shard may run the fork
            ({ m with
               forks := m.forks ++
                 [{ uuid := request.params.callUuid, world := world, forgetting := false }] },
              .running (.created m.forks.length))
  | .created fork, m => (m.setOnFinished fork, .running (.hooked fork))
  | .hooked fork, m =>
      if request.params.format.sampleRate ≠ request.sessionRate ∧ answers.resamplerCreated = false then
        (m.stopFork fork, .failed (ascii "resampler could not be created"))
      else if answers.bugAdded = false then
        (m.stopFork fork, .failed (ascii "media bug could not be added"))
      else
        (m.modifyChannel request.params.callUuid fun ch => { ch with bugs := ch.bugs ++ [fork] },
          .running (.attached fork))
  | .attached fork, m =>
      (m.modifyChannel request.params.callUuid fun ch => { ch with recorded := some fork },
        .running (.recorded fork))
  | .recorded fork, m =>
      -- one hook per channel, however many forks the call carries
      (m.modifyChannel request.params.callUuid fun ch =>
          { ch with dtmfHook := ch.dtmfHook || answers.hookAdded },
        .running (.ready fork))
  | .ready fork, m =>
      ({ m with registry := m.registry.add request.params.callUuid fork }, .succeeded fork)

/-- The thread of call `i` runs on to its next stage. -/
def advance (i : Nat) (answers : Answers) (m : ModuleState β S) : ModuleState β S :=
  match m.calls[i]? with
  | some { request, progress := .running stage } =>
      match proceed answers request stage m with
      | (m, progress) =>
          { m with calls := m.calls.set i { request := request, progress := progress } }
  | _ => m

/-! ## The fork on its shard -/

/-- An entry point of the fork; a callback it runs is then waiting for the mutex. -/
def runSession (env : Env β) (s : Session.Step β) (k : Fork β S) : Fork β S :=
  { k with
    world := step env k.world s
    forgetting := k.forgetting ||
      decide (k.world.finishedRuns < (step env k.world s).finishedRuns) }

/-- The locked block of `ForgetFork`, called by `Finalize` of the fork. -/
def forgetFork (fork : Nat) (m : ModuleState β S) : ModuleState β S :=
  match m.forks[fork]? with
  | some k =>
      if k.forgetting then
        { m with
          registry := m.registry.forget k.uuid fork
          forks := m.forks.set fork { k with forgetting := false } }
      else
        m
  | none => m

end ModuleState

/-! ## Steps -/

inductive ModuleStep (β : Type)
  | startFork (request : Request)
  | advance (call : Nat) (answers : ModuleState.Answers)
  /-- The shard, the media thread or a command calls into the fork. -/
  | session (fork : Nat) (s : Session.Step β)
  | forgetFork (fork : Nat)

/-- `env` gives each fork its own surroundings. -/
def moduleStep (env : Nat → Env β) (m : ModuleState β S) : ModuleStep β → ModuleState β S
  | .startFork request => m.startFork request
  | .advance call answers => m.advance call answers
  | .session fork s => m.modifyFork fork (ModuleState.runSession (env fork) s)
  | .forgetFork fork => m.forgetFork fork

namespace ModuleState

/-- What a stage can do. -/
inductive Proceeds (answers : Answers) (request : Request) (m : ModuleState β S) :
    Stage → ModuleState β S → Progress → Prop
  | refused (reason : Text) :
      Proceeds answers request m .checked (m.emitStartFailed request.params.callUuid reason) (.failed reason)
  | created (world : World β S)
      (h : World.create request.params request.tuning false answers.supply = some world) :
      Proceeds answers request m .checked
        { m with
          forks := m.forks ++
            [{ uuid := request.params.callUuid, world := world, forgetting := false }] }
        (.running (.created m.forks.length))
  | hooked (fork : Nat) :
      Proceeds answers request m (.created fork) (m.setOnFinished fork) (.running (.hooked fork))
  | abandoned (fork : Nat) (error : Text) :
      Proceeds answers request m (.hooked fork) (m.stopFork fork) (.failed error)
  | attached (fork : Nat) (h : answers.bugAdded = true) :
      Proceeds answers request m (.hooked fork)
        (m.modifyChannel request.params.callUuid fun ch => { ch with bugs := ch.bugs ++ [fork] })
        (.running (.attached fork))
  | recorded (fork : Nat) :
      Proceeds answers request m (.attached fork)
        (m.modifyChannel request.params.callUuid fun ch => { ch with recorded := some fork })
        (.running (.recorded fork))
  | ready (fork : Nat) :
      Proceeds answers request m (.recorded fork)
        (m.modifyChannel request.params.callUuid fun ch =>
          { ch with dtmfHook := ch.dtmfHook || answers.hookAdded })
        (.running (.ready fork))
  | inserted (fork : Nat) :
      Proceeds answers request m (.ready fork)
        { m with registry := m.registry.add request.params.callUuid fork } (.succeeded fork)

theorem proceeds (answers : Answers) (request : Request) (stage : Stage) (m : ModuleState β S) :
    Proceeds answers request m stage (proceed answers request stage m).1
      (proceed answers request stage m).2 := by
  cases stage with
  | checked =>
      simp only [proceed]
      split
      · exact .refused _
      · split
        · exact .refused _
        · rename_i world hcreate
          exact .created world hcreate
  | created fork => exact .hooked fork
  | hooked fork =>
      simp only [proceed]
      split
      · exact .abandoned fork _
      · split
        · exact .abandoned fork _
        · rename_i hadded
          exact .attached fork (by simpa using hadded)
  | attached fork => exact .recorded fork
  | recorded fork => exact .ready fork
  | ready fork => exact .inserted fork

theorem Proceeds.calls {answers : Answers} {request : Request} {m m' : ModuleState β S} {stage : Stage}
    {progress : Progress} (h : Proceeds answers request m stage m' progress) : m'.calls = m.calls := by
  cases h <;> rfl

/-- A call that is running takes its next stage. -/
theorem advance_running {i : Nat} (answers : Answers) {m : ModuleState β S} {request : Request}
    {stage : Stage} (h : m.calls[i]? = some { request := request, progress := .running stage }) :
    ∃ m' progress, Proceeds answers request m stage m' progress ∧
      m.advance i answers =
        { m' with calls := m.calls.set i { request := request, progress := progress } } := by
  have hproceeds := proceeds answers request stage m
  refine ⟨_, _, hproceeds, ?_⟩
  unfold advance
  rw [h]
  simp only [hproceeds.calls]

/-- Any other has no more to do. -/
theorem advance_cases (i : Nat) (answers : Answers) (m : ModuleState β S) :
    m.advance i answers = m ∨
      ∃ request stage m' progress,
        m.calls[i]? = some { request := request, progress := .running stage } ∧
        Proceeds answers request m stage m' progress ∧
        m.advance i answers =
          { m' with calls := m.calls.set i { request := request, progress := progress } } := by
  by_cases hrunning : ∃ request stage,
      m.calls[i]? = some { request := request, progress := .running stage }
  · rcases hrunning with ⟨request, stage, hcall⟩
    rcases advance_running answers hcall with ⟨m', progress, hproceeds, hstep⟩
    exact Or.inr ⟨request, stage, m', progress, hcall, hproceeds, hstep⟩
  · left
    unfold advance
    split
    · rename_i request stage hcall
      exact absurd ⟨request, stage, hcall⟩ hrunning
    · rfl

/-! ## The limit -/

def inFlight (m : ModuleState β S) (uuid : Text) : Nat := m.calls.countP (Call.bookedFor uuid)

/-- The forks of `uuid`, with those still on their way. -/
def booked (m : ModuleState β S) (uuid : Text) : Nat :=
  (m.registry.forksFor uuid).length + m.inFlight uuid

theorem booked_startFork (request : Request) (m : ModuleState β S) (uuid : Text) :
    (m.startFork request).booked uuid =
      m.booked uuid +
        if request.params.callUuid = uuid ∧
            m.registry.full m.maxForksPerCall request.params.callUuid = false then
          1
        else
          0 := by
  have hcount : (m.startFork request).inFlight uuid = m.inFlight uuid + _ :=
    List.countP_append
  unfold booked
  rw [hcount, ← Nat.add_assoc]
  congr 1
  by_cases huuid : request.params.callUuid = uuid
  · cases hfull : m.registry.full m.maxForksPerCall request.params.callUuid with
    | true => simp [Call.bookedFor, Progress.isRunning]
    | false => simp [Call.bookedFor, Call.uuid, Progress.isRunning, huuid]
  · simp [Call.bookedFor, Call.uuid, huuid]

/-- A call that was booked changes the count by what it gives up. -/
theorem countP_bookedFor_set {calls : List Call} {i : Nat} {request : Request} {stage : Stage}
    (hcall : calls[i]? = some { request := request, progress := .running stage }) (uuid : Text)
    (progress : Progress) :
    (calls.set i { request := request, progress := progress }).countP (Call.bookedFor uuid) +
        (if request.params.callUuid = uuid ∧ progress.isRunning = false then 1 else 0) =
      calls.countP (Call.bookedFor uuid) := by
  rcases List.getElem?_eq_some_iff.mp hcall with ⟨hlt, hget⟩
  rw [List.countP_set hlt, hget]
  by_cases huuid : request.params.callUuid = uuid
  · -- of the calls for `uuid`, the count sees only whether they run
    have hshare : ∀ p, Call.bookedFor uuid { request := request, progress := p } = p.isRunning := by
      intro p
      simp [Call.bookedFor, Call.uuid, huuid]
    have hpos : 0 < calls.countP (Call.bookedFor uuid) :=
      List.countP_pos_iff.mpr ⟨_, List.mem_of_getElem? hcall, hshare _⟩
    have hshares : (if progress.isRunning = true then 1 else 0) +
        (if request.params.callUuid = uuid ∧ progress.isRunning = false then 1 else 0) = 1 := by
      cases progress.isRunning <;> simp [huuid]
    have hrunning : (Progress.running stage).isRunning = true := rfl
    rw [hshare, hshare, if_pos hrunning]
    omega
  · simp [Call.bookedFor, Call.uuid, huuid]

/-- Going on never books another fork: what is inserted was in flight before. -/
theorem booked_advance (i : Nat) (answers : Answers) (m : ModuleState β S) (uuid : Text) :
    (m.advance i answers).booked uuid ≤ m.booked uuid := by
  rcases advance_cases i answers m with
    hsame | ⟨request, stage, m', progress, hcall, hproceeds, hstep⟩
  · rw [hsame]
  · have hcount := countP_bookedFor_set hcall uuid progress
    rw [hstep]
    unfold booked inFlight
    simp only
    cases hproceeds with
    | inserted fork =>
        by_cases huuid : request.params.callUuid = uuid
        · -- one more is registered, and one less in flight
          subst huuid
          rw [if_pos ⟨rfl, rfl⟩] at hcount
          rw [Registry.forksFor_add_self, List.length_append]
          simp only [List.length_singleton]
          omega
        · rw [Registry.forksFor_add_other m.registry (Ne.symm huuid)]
          omega
    | _ => exact Nat.add_le_add_left (Nat.le.intro hcount) _

theorem booked_forgetFork (fork : Nat) (m : ModuleState β S) (uuid : Text) :
    (m.forgetFork fork).booked uuid ≤ m.booked uuid := by
  unfold forgetFork
  split
  · split
    · exact Nat.add_le_add_right
        (m.registry.forksFor_forget_sublist _ uuid fork).length_le _
    · exact Nat.le_refl _
  · exact Nat.le_refl _

end ModuleState

/-- A `StartFork` passes its limit check although the forks of the call, with those on their way,
already reach the limit. -/
def overbooks (m : ModuleState β S) : ModuleStep β → Bool
  | .startFork request =>
      !m.registry.full m.maxForksPerCall request.params.callUuid &&
        decide (m.maxForksPerCall ≤ m.booked request.params.callUuid)
  | _ => false

theorem maxForksPerCall_step (env : Nat → Env β) (m : ModuleState β S) (s : ModuleStep β) :
    (moduleStep env m s).maxForksPerCall = m.maxForksPerCall := by
  cases s with
  | startFork request => rfl
  | advance call answers =>
      rcases ModuleState.advance_cases call answers m with
        hsame | ⟨request, stage, m', progress, -, hproceeds, hstep⟩
      · exact congrArg ModuleState.maxForksPerCall hsame
      · show (m.advance call answers).maxForksPerCall = _
        rw [hstep]
        cases hproceeds <;> rfl
  | session fork s => rfl
  | forgetFork fork =>
      show (m.forgetFork fork).maxForksPerCall = _
      unfold ModuleState.forgetFork
      split
      · split <;> rfl
      · rfl

theorem booked_step {env : Nat → Env β} {m : ModuleState β S} {s : ModuleStep β} (uuid : Text)
    (h : m.booked uuid ≤ m.maxForksPerCall) (hroom : overbooks m s = false) :
    (moduleStep env m s).booked uuid ≤ m.maxForksPerCall := by
  cases s with
  | startFork request =>
      show (m.startFork request).booked uuid ≤ _
      rw [ModuleState.booked_startFork]
      split
      · rename_i hpasses
        rcases hpasses with ⟨rfl, hfull⟩
        have hfree : m.booked request.params.callUuid < m.maxForksPerCall := by
          simpa [overbooks, hfull] using hroom
        exact hfree
      · exact h
  | advance call answers => exact (ModuleState.booked_advance call answers m uuid).trans h
  | session fork s => exact h
  | forgetFork fork => exact (ModuleState.booked_forgetFork fork m uuid).trans h

/-- In a run in which no `StartFork` overbooks its call, no call has more forks than it may have. -/
theorem forks_within_limit {env : Nat → Env β} {maxForksPerCall : Nat} {m : ModuleState β S}
    (hrun : Run (moduleStep env) (fun m s => overbooks m s = false) (.initial maxForksPerCall) m)
    (uuid : Text) : (m.registry.forksFor uuid).length ≤ maxForksPerCall := by
  have hbooked : m.maxForksPerCall = maxForksPerCall ∧ m.booked uuid ≤ m.maxForksPerCall := by
    refine hrun.invariant (I := fun m => m.maxForksPerCall = maxForksPerCall ∧
      m.booked uuid ≤ m.maxForksPerCall) ⟨rfl, Nat.zero_le _⟩ ?_
    rintro a s ⟨hmax, hle⟩ hroom
    rw [maxForksPerCall_step]
    exact ⟨hmax, booked_step uuid hle hroom⟩
  rw [← hbooked.1]
  exact (Nat.le_add_right _ _).trans hbooked.2

namespace Sample

def request : Request :=
  { params := Session.Sample.params
    tuning := Session.Sample.tuning
    sessionRate := 8000 }

/-- Nothing is refused. -/
def answers : ModuleState.Answers :=
  { canLease := true
    supply := Session.Sample.supply
    resamplerCreated := true
    bugAdded := true
    hookAdded := true }

def uuid : Text := Session.Sample.params.callUuid

def env : Nat → Env UInt8 := fun _ => Session.Sample.env

/-- The module with forks of slabs of four bytes. -/
def loaded (maxForksPerCall : Nat) : ModuleState UInt8 Session.Sample.slabBytes :=
  .initial maxForksPerCall

/-- The call `i` runs through from its limit check to its return. -/
def through (i : Nat) : List (ModuleStep UInt8) := List.replicate 6 (.advance i answers)

end Sample

/-- Two starts at once within a limit of two, and a third that is refused. -/
theorem forks_within_limit_sample :
    let m := exec (moduleStep Sample.env) (Sample.loaded 2)
      (.startFork Sample.request :: .startFork Sample.request ::
        (Sample.through 0 ++ Sample.through 1 ++ [.startFork Sample.request] ++ Sample.through 2))
    m.registry.forksFor Sample.uuid = [0, 1] ∧ (m.registry.forksFor Sample.uuid).length ≤ 2 :=
  ⟨by decide +kernel, forks_within_limit (Run.of_exec (by decide +kernel)) Sample.uuid⟩

/-- Two starts at once under a limit of one: both find the registry empty, both insert. -/
theorem two_starts_exceed_limit :
    let m := exec (moduleStep Sample.env) (Sample.loaded 1)
      (.startFork Sample.request :: .startFork Sample.request ::
        (Sample.through 0 ++ Sample.through 1))
    m.maxForksPerCall = 1 ∧ m.registry.forksFor Sample.uuid = [0, 1] :=
  ⟨rfl, by decide +kernel⟩

end Module
end AudioFork
