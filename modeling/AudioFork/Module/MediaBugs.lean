import AudioFork.Module.StartFork

/-!
# MediaBugs — what a stop detaches

Every `StartFork` adds a media bug to the channel and stores it in the channel's private table, where
`StopForks` looks for it.  The table has one place for it: a second start overwrites the first bug's
entry, and a fork that ends on its own leaves its bug where it was.

Commands on a channel come one after another here, while the forks they started live on between them.
Hanging up closes every bug and takes the channel with it.
-/

namespace AudioFork
namespace Module

open Lib Session

variable {β : Type} {S : ℕ+}

namespace ModuleState

/-- `switch_core_media_bug_remove`: the bug is detached, and its `CLOSE` callback stops the fork. -/
def removeBug (uuid : Text) (bug : Nat) (m : ModuleState β S) : ModuleState β S :=
  (m.modifyChannel uuid fun ch => { ch with bugs := ch.bugs.erase bug }).stopFork bug

/-- `StopForks`; returns whether there was a fork to stop. -/
def stopForks (uuid : Text) (m : ModuleState β S) : Bool × ModuleState β S :=
  let forks := m.registry.forksFor uuid
  let m := forks.foldl (fun m fork => m.stopFork fork) m
  let m :=
    match (m.channels uuid).recorded with
    | none => m
    | some bug => (m.modifyChannel uuid fun ch => { ch with recorded := none }).removeBug uuid bug
  (!forks.isEmpty, m.modifyChannel uuid fun ch => { ch with dtmfHook := false })

/-- The channel goes: its bugs are closed, its private table with it. -/
def hangup (uuid : Text) (m : ModuleState β S) : ModuleState β S :=
  ((m.channels uuid).bugs.foldl (fun m bug => m.removeBug uuid bug) m).modifyChannel uuid
    fun _ => { bugs := [], recorded := none, dtmfHook := false }

end ModuleState

/-! ## Commands -/

inductive Command (β : Type)
  | start (request : Request) (answers : ModuleState.Answers)
  | stop (uuid : Text)
  | session (fork : Nat) (s : Session.Step β)
  | forgetFork (fork : Nat)
  | hangup (uuid : Text)

/-- A `StartFork` that nothing else runs into: the check and the six stages. -/
def startAlone (request : Request) (answers : ModuleState.Answers) (m : ModuleState β S) :
    List (ModuleStep β) :=
  .startFork request :: List.replicate 6 (.advance m.calls.length answers)

def runCommand (env : Nat → Env β) (m : ModuleState β S) : Command β → ModuleState β S
  | .start request answers => exec (moduleStep env) m (startAlone request answers m)
  | .stop uuid => (m.stopForks uuid).2
  | .session fork s => moduleStep env m (.session fork s)
  | .forgetFork fork => moduleStep env m (.forgetFork fork)
  | .hangup uuid => m.hangup uuid

/-! ## One bug at a time -/

/-- The bug in the private table is the one that is attached. -/
def Channel.Synced (ch : Channel) : Prop := ch.bugs = ch.recorded.toList

/-- The channel of a `StartFork` that adds its bug to a channel without one (or adds none): between
adding the bug and recording it, the table lags behind. -/
def Stowed (adds : Bool) : Progress → Channel → Prop
  | .running .checked, ch | .running (.created _), ch | .running (.hooked _), ch =>
      ch.Synced ∧ (adds = true → ch.bugs = [])
  | .running (.attached fork), ch => ch.bugs = [fork]
  | .running (.recorded _), ch | .running (.ready _), ch | .failed _, ch | .succeeded _, ch =>
      ch.Synced

/-- The stages a call has left. -/
def Progress.left : Progress → Nat
  | .running .checked => 6
  | .running (.created _) => 5
  | .running (.hooked _) => 4
  | .running (.attached _) => 3
  | .running (.recorded _) => 2
  | .running (.ready _) => 1
  | .failed _ => 0
  | .succeeded _ => 0

namespace ModuleState

variable {m m' : ModuleState β S}

theorem channels_modifyChannel_self (uuid : Text) (f : Channel → Channel) :
    (m.modifyChannel uuid f).channels uuid = f (m.channels uuid) :=
  Function.update_self ..

theorem channels_modifyChannel_other {uuid other : Text} (h : other ≠ uuid)
    (f : Channel → Channel) : (m.modifyChannel uuid f).channels other = m.channels other :=
  Function.update_of_ne h ..

/-- A stage keeps the channel of its call in step. -/
theorem Proceeds.stowed {answers : Answers} {request : Request} {stage : Stage} {progress : Progress}
    (h : Proceeds answers request m stage m' progress)
    (hstowed : Stowed answers.bugAdded (.running stage) (m.channels request.params.callUuid)) :
    Stowed answers.bugAdded progress (m'.channels request.params.callUuid) := by
  cases h with
  | refused reason => exact hstowed.1
  | created world hcreate => exact hstowed
  | hooked fork => exact hstowed
  | abandoned fork error => exact hstowed.1
  | attached fork hadded =>
      rw [channels_modifyChannel_self]
      show (m.channels request.params.callUuid).bugs ++ [fork] = [fork]
      rw [hstowed.2 hadded]
      rfl
  | recorded fork =>
      rw [channels_modifyChannel_self]
      exact hstowed
  | ready fork =>
      rw [channels_modifyChannel_self]
      exact hstowed
  | inserted fork => exact hstowed

theorem Proceeds.left_lt {answers : Answers} {request : Request} {stage : Stage}
    {progress : Progress} (h : Proceeds answers request m stage m' progress) :
    progress.left < (Progress.running stage).left := by
  cases h <;> simp [Progress.left]

theorem Proceeds.channels_other {answers : Answers} {request : Request} {stage : Stage}
    {progress : Progress} (h : Proceeds answers request m stage m' progress) {other : Text}
    (hne : other ≠ request.params.callUuid) : m'.channels other = m.channels other := by
  cases h with
  | attached fork _ => exact channels_modifyChannel_other hne _
  | recorded fork => exact channels_modifyChannel_other hne _
  | ready fork => exact channels_modifyChannel_other hne _
  | _ => rfl

theorem advance_returned {i : Nat} (answers : Answers) {c : Call} (hcall : m.calls[i]? = some c)
    (hreturned : c.progress.isRunning = false) : m.advance i answers = m := by
  unfold advance
  split
  · rename_i request stage hrunning
    cases hcall.symm.trans hrunning
    cases hreturned
  · rfl

end ModuleState

/-- Every channel has its recorded bug attached and no other. -/
def AllSynced (m : ModuleState β S) : Prop := ∀ uuid, (m.channels uuid).Synced

/-- A call that runs on to its end keeps the channels in step. -/
theorem synced_through (env : Nat → Env β) {i : Nat} {request : Request}
    (answers : ModuleState.Answers) (n : Nat) {m : ModuleState β S} {progress : Progress}
    (hcall : m.calls[i]? = some { request := request, progress := progress })
    (hleft : progress.left ≤ n)
    (hstowed : Stowed answers.bugAdded progress (m.channels request.params.callUuid))
    (hothers : ∀ other, other ≠ request.params.callUuid → (m.channels other).Synced) :
    AllSynced (exec (moduleStep env) m (List.replicate n (.advance i answers))) := by
  -- on the number of turns; a call that has returned lets the rest of them pass
  induction n generalizing m progress with
  | zero =>
      intro uuid
      by_cases huuid : uuid = request.params.callUuid
      · subst huuid
        -- no stage is left, so the call has failed or succeeded
        cases progress with
        | running stage => cases stage <;> simp [Progress.left] at hleft
        | failed error => exact hstowed
        | succeeded fork => exact hstowed
      · exact hothers uuid huuid
  | succ n ih =>
      rw [List.replicate_succ]
      show AllSynced (exec (moduleStep env) (m.advance i answers) _)
      cases progress with
      | running stage =>
          rcases ModuleState.advance_running answers hcall with ⟨m', progress', hproceeds, hstep⟩
          have hlt := hproceeds.left_lt
          have hbound : i < m.calls.length := (List.getElem?_eq_some_iff.mp hcall).1
          rw [hstep]
          refine ih (List.getElem?_set_self hbound) ?_ ?_ ?_
          · omega
          · exact hproceeds.stowed hstowed
          · intro other hne
            show (m'.channels other).Synced
            rw [hproceeds.channels_other hne]
            exact hothers other hne
      | failed error =>
          rw [ModuleState.advance_returned answers hcall rfl]
          exact ih hcall (Nat.zero_le _) hstowed hothers
      | succeeded fork =>
          rw [ModuleState.advance_returned answers hcall rfl]
          exact ih hcall (Nat.zero_le _) hstowed hothers

/-! ## Stop and hangup -/

namespace ModuleState

variable {m : ModuleState β S}

theorem channels_stopFork (fork : Nat) : (m.stopFork fork).channels = m.channels := rfl

theorem channels_foldl_stopFork (forks : List Nat) (m : ModuleState β S) :
    (forks.foldl (fun m fork => m.stopFork fork) m).channels = m.channels := by
  induction forks generalizing m with
  | nil => rfl
  | cons fork forks ih =>
      rw [List.foldl_cons, ih, channels_stopFork]

theorem channels_removeBug_self (uuid : Text) (bug : Nat) :
    (m.removeBug uuid bug).channels uuid =
      { m.channels uuid with bugs := (m.channels uuid).bugs.erase bug } := by
  unfold removeBug
  rw [channels_stopFork, channels_modifyChannel_self]

theorem channels_removeBug_other {uuid other : Text} (h : other ≠ uuid) (bug : Nat) :
    (m.removeBug uuid bug).channels other = m.channels other := by
  unfold removeBug
  rw [channels_stopFork, channels_modifyChannel_other h]

/-- `StopForks` takes the recorded bug off the channel, and nothing else. -/
theorem channels_stopForks (uuid : Text) (m : ModuleState β S) :
    (m.stopForks uuid).2.channels uuid =
      { bugs := (m.channels uuid).recorded.elim (m.channels uuid).bugs (m.channels uuid).bugs.erase
        recorded := none
        dtmfHook := false } := by
  unfold stopForks
  simp only
  rw [channels_modifyChannel_self, channels_foldl_stopFork]
  split
  · rename_i hnone
    rw [channels_foldl_stopFork, hnone]
    rfl
  · rename_i bug hbug
    rw [channels_removeBug_self, channels_modifyChannel_self, channels_foldl_stopFork, hbug]
    rfl

theorem channels_stopForks_other {uuid other : Text} (h : other ≠ uuid) (m : ModuleState β S) :
    (m.stopForks uuid).2.channels other = m.channels other := by
  unfold stopForks
  simp only
  rw [channels_modifyChannel_other h]
  split
  · rw [channels_foldl_stopFork]
  · rw [channels_removeBug_other h, channels_modifyChannel_other h, channels_foldl_stopFork]

/-- A channel in step loses its only bug. -/
theorem bugs_stopForks {uuid : Text} (h : (m.channels uuid).Synced) :
    ((m.stopForks uuid).2.channels uuid).bugs = [] := by
  have hbugs : (m.channels uuid).bugs = (m.channels uuid).recorded.toList := h
  rw [channels_stopForks]
  show (m.channels uuid).recorded.elim (m.channels uuid).bugs (m.channels uuid).bugs.erase = []
  rw [hbugs]
  cases (m.channels uuid).recorded with
  | none => rfl
  | some bug => simp

theorem channels_hangup_other {uuid other : Text} (h : other ≠ uuid) (m : ModuleState β S) :
    (m.hangup uuid).channels other = m.channels other := by
  have hfold : ∀ (bugs : List Nat) (m : ModuleState β S),
      (bugs.foldl (fun m bug => m.removeBug uuid bug) m).channels other = m.channels other := by
    intro bugs
    induction bugs with
    | nil => exact fun m => rfl
    | cons bug bugs ih =>
        intro m
        rw [List.foldl_cons, ih, channels_removeBug_other h]
  unfold hangup
  rw [channels_modifyChannel_other h, hfold]

end ModuleState

/-! ## Sequences of commands -/

/-- A start passes its limit check and adds its bug to a channel that still has one. -/
def doubles (m : ModuleState β S) : Command β → Bool
  | .start request answers =>
      !m.registry.full m.maxForksPerCall request.params.callUuid && answers.bugAdded &&
        !(m.channels request.params.callUuid).bugs.isEmpty
  | _ => false

theorem synced_start {env : Nat → Env β} {m : ModuleState β S} {request : Request}
    {answers : ModuleState.Answers} (h : AllSynced m)
    (hsingle : doubles m (.start request answers) = false) :
    AllSynced (runCommand env m (.start request answers)) := by
  show AllSynced (exec (moduleStep env) (m.startFork request) _)
  have hcall : (m.startFork request).calls[m.calls.length]? = some _ := List.getElem?_concat_length
  refine synced_through env answers 6 hcall ?_ ?_ fun other _ => h other
  · split <;> simp [Progress.left]
  · split
    · exact h _
    · rename_i hroom
      -- past the check, the guard leaves a bug to be added only where none is attached
      refine ⟨h _, ?_⟩
      intro hadded
      show (m.channels request.params.callUuid).bugs = []
      simpa [doubles, hroom, hadded] using hsingle

theorem synced_command {env : Nat → Env β} {m : ModuleState β S} {c : Command β} (h : AllSynced m)
    (hsingle : doubles m c = false) : AllSynced (runCommand env m c) := by
  cases c with
  | start request answers => exact synced_start h hsingle
  | stop uuid =>
      intro other
      by_cases heq : other = uuid
      · subst heq
        have hbugs := ModuleState.bugs_stopForks (h other)
        show ((m.stopForks other).2.channels other).Synced
        unfold Channel.Synced
        rw [hbugs, ModuleState.channels_stopForks]
        rfl
      · show ((m.stopForks uuid).2.channels other).Synced
        rw [ModuleState.channels_stopForks_other heq]
        exact h other
  | session fork s => exact h
  | forgetFork fork =>
      show AllSynced (m.forgetFork fork)
      unfold ModuleState.forgetFork
      split
      · split <;> exact h
      · exact h
  | hangup uuid =>
      intro other
      by_cases heq : other = uuid
      · subst heq
        show ((m.hangup other).channels other).Synced
        unfold ModuleState.hangup
        rw [ModuleState.channels_modifyChannel_self]
        rfl
      · show ((m.hangup uuid).channels other).Synced
        rw [ModuleState.channels_hangup_other heq]
        exact h other

/-- In a sequence of commands that never adds a second bug to a channel, a stop leaves none. -/
theorem stop_detaches_all {env : Nat → Env β} {maxForksPerCall : Nat} {m : ModuleState β S}
    (hrun : Run (runCommand env) (fun m c => doubles m c = false) (.initial maxForksPerCall) m)
    (uuid : Text) : ((runCommand env m (.stop uuid)).channels uuid).bugs = [] := by
  have hsynced : AllSynced m :=
    hrun.invariant (I := AllSynced) (fun _ => rfl) fun _ _ h hsingle => synced_command h hsingle
  exact ModuleState.bugs_stopForks (hsynced uuid)

/-- Start, stop, start again, and stop. -/
theorem stop_detaches_all_sample :
    let m := exec (runCommand Sample.env) (Sample.loaded 2)
      [.start Sample.request Sample.answers, .session 0 .start, .stop Sample.uuid,
        .start Sample.request Sample.answers]
    (m.channels Sample.uuid).bugs = [1] ∧
      ((runCommand Sample.env m (.stop Sample.uuid)).channels Sample.uuid).bugs = [] :=
  ⟨by decide +kernel, stop_detaches_all (Run.of_exec (by decide +kernel)) Sample.uuid⟩

/-- Two forks on one channel, within the limit: the stop finds the second bug only. -/
theorem stop_leaves_first_bug :
    let m := exec (runCommand Sample.env) (Sample.loaded 2)
      [.start Sample.request Sample.answers, .start Sample.request Sample.answers,
        .stop Sample.uuid]
    m.registry.forksFor Sample.uuid = [0, 1] ∧ (m.channels Sample.uuid).bugs = [0] ∧
      (m.channels Sample.uuid).recorded = none :=
  ⟨by decide +kernel, by decide +kernel, by decide +kernel⟩

end Module
end AudioFork
