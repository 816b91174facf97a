import AudioFork.Lib.Runs
import Mathlib.Algebra.Order.Group.Int
import Mathlib.Data.List.Perm.Basic

/-!
# EventLoop — what is posted and what is scheduled runs once

`Post` may be called by any thread and appends to `posted_` under its lock.  `DrainPosted` takes all of
`posted_` at once and runs the tasks outside the lock; it is called after `lws_service` and from within
it, when a `Post` has woken the loop.  `DrainDueTimers` parts the timers that are due from the others,
takes them out of `timers_` and runs them; it is called after `DrainPosted` and by the tick.

A drain is not entered again while one is under way, but its tasks may post and schedule.  Here every
access to the lists is a step of its own, so that threads and tasks come in between any two of them.  The
tasks are of any type: what they do is seen as further steps.
-/

namespace AudioFork
namespace Net

open Lib

universe u

variable {α : Type u}

/-! ## State -/

structure PendingTimer (α : Type u) where
  deadline : Int
  task : α
  deriving DecidableEq, Repr

/-- A timer that has run. -/
structure RanTimer (α : Type u) where
  timer : PendingTimer α
  /-- The reading of the clock by which it was found due. -/
  reading : Int
  /-- When it ran. -/
  time : Int
  deriving DecidableEq, Repr

/-- What the loop thread is about. -/
inductive LoopDrain (α : Type u)
  | idle
  /-- In `DrainPosted`, with the tasks still to run. -/
  | posted (tasks : List α)
  /-- In `DrainDueTimers` since it read the clock, with the timers still to run. -/
  | due (reading : Int) (timers : List (PendingTimer α))
  deriving DecidableEq, Repr

structure WsEventLoop (α : Type u) where
  /-- `posted_`. -/
  posted : List α
  /-- `timers_`. -/
  timers : List (PendingTimer α)
  clock : Int
  drain : LoopDrain α
  /-- All tasks ever posted, in the order of the lock. -/
  everPosted : List α
  ranPosted : List α
  /-- All timers ever scheduled. -/
  everScheduled : List (PendingTimer α)
  ranTimers : List (RanTimer α)

inductive LoopStep (α : Type u)
  /-- By any thread, the loop's own included. -/
  | post (task : α)
  /-- By the loop thread, from a task or a callback. -/
  | scheduleTimer (delay : Int) (task : α)
  | drainPosted
  | drainDueTimers
  /-- The drain under way runs its next task, or comes to its end. -/
  | runNext
  /-- Time passes. -/
  | elapse (duration : Nat)

namespace WsEventLoop

def initial (clock : Int) : WsEventLoop α :=
  { posted := []
    timers := []
    clock := clock
    drain := .idle
    everPosted := []
    ranPosted := []
    everScheduled := []
    ranTimers := [] }

def post (task : α) (loop : WsEventLoop α) : WsEventLoop α :=
  { loop with
    posted := loop.posted ++ [task]
    everPosted := loop.everPosted ++ [task] }

def scheduleTimer (delay : Int) (task : α) (loop : WsEventLoop α) : WsEventLoop α :=
  { loop with
    timers := loop.timers ++ [{ deadline := loop.clock + delay, task := task }]
    everScheduled := loop.everScheduled ++ [{ deadline := loop.clock + delay, task := task }] }

/-- `tasks.swap(posted_)`. -/
def drainPosted (loop : WsEventLoop α) : WsEventLoop α :=
  { loop with posted := [], drain := .posted loop.posted }

def drainDueTimers (loop : WsEventLoop α) : WsEventLoop α :=
  if loop.timers.isEmpty then
    loop
  else
    -- `stable_partition` keeps the order on both sides
    { loop with
      timers := loop.timers.filter fun timer => timer.deadline > loop.clock
      drain := .due loop.clock (loop.timers.filter fun timer => !(timer.deadline > loop.clock)) }

def runNext (loop : WsEventLoop α) : WsEventLoop α :=
  match loop.drain with
  | .idle => loop
  | .posted [] => { loop with drain := .idle }
  | .posted (task :: tasks) =>
      { loop with
        drain := .posted tasks
        ranPosted := loop.ranPosted ++ [task] }
  | .due _ [] => { loop with drain := .idle }
  | .due reading (timer :: timers) =>
      { loop with
        drain := .due reading timers
        ranTimers := loop.ranTimers ++ [{ timer := timer, reading := reading, time := loop.clock }] }

/-- The tasks that `DrainPosted` has taken and not yet run. -/
def batch (loop : WsEventLoop α) : List α :=
  match loop.drain with
  | .posted tasks => tasks
  | _ => []

/-- The timers that `DrainDueTimers` has taken and not yet run. -/
def dueBatch (loop : WsEventLoop α) : List (PendingTimer α) :=
  match loop.drain with
  | .due _ timers => timers
  | _ => []

end WsEventLoop

def loopStep (loop : WsEventLoop α) : LoopStep α → WsEventLoop α
  | .post task => loop.post task
  | .scheduleTimer delay task => loop.scheduleTimer delay task
  | .drainPosted =>
      match loop.drain with
      | .idle => loop.drainPosted
      | _ => loop
  | .drainDueTimers =>
      match loop.drain with
      | .idle => loop.drainDueTimers
      | _ => loop
  | .runNext => loop.runNext
  -- the clock is steady
  | .elapse duration => { loop with clock := loop.clock + duration }

/-! ## Nothing is lost, repeated or early -/

namespace WsEventLoop

variable {loop : WsEventLoop α}

/-- The drain under way runs what was due when it read the clock. -/
def OnTime (clock : Int) : LoopDrain α → Prop
  | .due reading timers => reading ≤ clock ∧ ∀ timer ∈ timers, timer.deadline ≤ reading
  | _ => True

structure Sound (loop : WsEventLoop α) : Prop where
  posted : loop.ranPosted ++ loop.batch ++ loop.posted = loop.everPosted
  scheduled : (loop.ranTimers.map RanTimer.timer ++ loop.dueBatch ++ loop.timers).Perm
    loop.everScheduled
  due : OnTime loop.clock loop.drain
  ran : ∀ ran ∈ loop.ranTimers, ran.timer.deadline ≤ ran.reading ∧ ran.reading ≤ ran.time

theorem sound_initial (clock : Int) : (initial clock : WsEventLoop α).Sound where
  posted := rfl
  scheduled := .nil
  due := trivial
  ran := by
    intro ran hran
    cases hran

theorem Sound.post (h : loop.Sound) (task : α) : (loop.post task).Sound := by
  refine ⟨?_, h.scheduled, h.due, h.ran⟩
  calc loop.ranPosted ++ loop.batch ++ (loop.posted ++ [task])
      = loop.ranPosted ++ loop.batch ++ loop.posted ++ [task] := (List.append_assoc ..).symm
    _ = loop.everPosted ++ [task] := by rw [h.posted]

theorem Sound.scheduleTimer (h : loop.Sound) (delay : Int) (task : α) :
    (loop.scheduleTimer delay task).Sound := by
  refine ⟨h.posted, ?_, h.due, h.ran⟩
  have hmore := h.scheduled.append_right [{ deadline := loop.clock + delay, task := task }]
  rw [List.append_assoc] at hmore
  exact hmore

theorem Sound.drainPosted (h : loop.Sound) (hidle : loop.drain = .idle) :
    loop.drainPosted.Sound := by
  have hposted := h.posted
  have hscheduled := h.scheduled
  simp only [batch, dueBatch, hidle] at hposted hscheduled
  refine ⟨?_, hscheduled, trivial, h.ran⟩
  -- what was waiting is the batch now, and nothing waits
  calc loop.ranPosted ++ loop.posted ++ []
      = loop.ranPosted ++ [] ++ loop.posted := by rw [List.append_nil, List.append_nil]
    _ = loop.everPosted := hposted

theorem Sound.drainDueTimers (h : loop.Sound) (hidle : loop.drain = .idle) :
    loop.drainDueTimers.Sound := by
  unfold WsEventLoop.drainDueTimers
  split
  · exact h
  · have hposted := h.posted
    have hscheduled := h.scheduled
    simp only [batch, dueBatch, hidle, List.append_nil] at hposted hscheduled
    refine ⟨?_, ?_, ⟨Int.le_refl _, ?_⟩, h.ran⟩
    · simp only [batch, List.append_nil]
      exact hposted
    · have hparts := List.filter_append_perm
        (fun timer : PendingTimer α => decide (timer.deadline > loop.clock)) loop.timers
      simp only [dueBatch, List.append_assoc]
      refine List.Perm.trans ?_ hscheduled
      exact (List.perm_append_comm.trans hparts).append_left _
    · intro timer htimer
      have hdue := (List.mem_filter.mp htimer).2
      simpa using hdue

theorem Sound.runNext (h : loop.Sound) : loop.runNext.Sound := by
  have hposted := h.posted
  have hscheduled := h.scheduled
  have hdue := h.due
  unfold WsEventLoop.runNext
  split
  · exact h
  · rename_i hdrain
    simp only [batch, dueBatch, hdrain] at hposted hscheduled
    exact ⟨hposted, hscheduled, trivial, h.ran⟩
  · rename_i task tasks hdrain
    simp only [batch, dueBatch, hdrain] at hposted hscheduled
    refine ⟨?_, hscheduled, trivial, h.ran⟩
    simp only [batch, List.append_assoc, List.singleton_append] at hposted ⊢
    exact hposted
  · rename_i hdrain
    simp only [batch, dueBatch, hdrain] at hposted hscheduled
    exact ⟨hposted, hscheduled, trivial, h.ran⟩
  · rename_i reading timer timers hdrain
    simp only [batch, dueBatch, hdrain] at hposted hscheduled
    rw [hdrain] at hdue
    refine ⟨hposted, ?_, ⟨hdue.1, ?_⟩, ?_⟩
    · simp only [dueBatch, List.map_append, List.map_cons, List.map_nil, List.append_assoc,
        List.singleton_append] at hscheduled ⊢
      exact hscheduled
    · intro other hother
      exact hdue.2 other (List.mem_cons_of_mem timer hother)
    · intro ran hran
      rcases List.mem_append.mp hran with hold | hnew
      · exact h.ran ran hold
      · rw [List.mem_singleton.mp hnew]
        exact ⟨hdue.2 timer List.mem_cons_self, hdue.1⟩

theorem Sound.elapse (h : loop.Sound) (duration : Nat) :
    ({ loop with clock := loop.clock + duration } : WsEventLoop α).Sound := by
  refine ⟨h.posted, h.scheduled, ?_, h.ran⟩
  have hdue := h.due
  cases hdrain : loop.drain with
  | idle => trivial
  | posted tasks => trivial
  | due reading timers =>
      rw [hdrain] at hdue
      refine ⟨?_, hdue.2⟩
      calc reading ≤ loop.clock := hdue.1
        _ ≤ loop.clock + duration := Int.le_add_of_nonneg_right (Int.natCast_nonneg duration)

theorem sound_step (h : loop.Sound) (st : LoopStep α) : (loopStep loop st).Sound := by
  cases st with
  | post task => exact h.post task
  | scheduleTimer delay task => exact h.scheduleTimer delay task
  | drainPosted =>
      simp only [loopStep]
      split
      · rename_i hidle
        exact h.drainPosted hidle
      · exact h
  | drainDueTimers =>
      simp only [loopStep]
      split
      · rename_i hidle
        exact h.drainDueTimers hidle
      · exact h
  | runNext => exact h.runNext
  | elapse duration => exact h.elapse duration

end WsEventLoop

/-- However posts, drains and tasks interleave: the posted tasks that have run, those of the current
batch and those still in `posted_` are all that were posted, in the order of the lock; and the timers
that have run, those of the current batch and those in `timers_` are all that were scheduled, none of
them having run before its deadline. -/
theorem loop_runs_everything_once {clock : Int} {loop : WsEventLoop α}
    (hrun : Run loopStep (fun _ _ => True) (.initial clock) loop) :
    loop.ranPosted ++ loop.batch ++ loop.posted = loop.everPosted ∧
      (loop.ranTimers.map RanTimer.timer ++ loop.dueBatch ++ loop.timers).Perm loop.everScheduled ∧
      ∀ ran ∈ loop.ranTimers, ran.timer.deadline ≤ ran.reading ∧ ran.reading ≤ ran.time := by
  have hsound : loop.Sound :=
    hrun.invariant (WsEventLoop.sound_initial clock) fun _ st h _ => WsEventLoop.sound_step h st
  exact ⟨hsound.posted, hsound.scheduled, hsound.ran⟩

namespace Sample

/-- A task that posts another one and schedules two timers, of which one is due when the loop looks. -/
def loopSteps : List (LoopStep Nat) :=
  [.post 1, .drainPosted, .runNext, .post 2, .scheduleTimer 5 10, .scheduleTimer 50 11, .runNext,
    .elapse 7, .drainDueTimers, .runNext]

end Sample

theorem loop_runs_a_task_and_a_timer :
    let loop := exec loopStep (.initial 100) Sample.loopSteps
    loop.ranPosted = [1] ∧ loop.posted = [2] ∧
      loop.ranTimers = [{ timer := { deadline := 105, task := 10 }, reading := 107, time := 107 }] ∧
      loop.timers = [{ deadline := 150, task := 11 }] ∧
      (loop.ranTimers.map RanTimer.timer ++ loop.dueBatch ++ loop.timers).Perm loop.everScheduled := by
  intro loop
  have hrun : Run loopStep (fun _ _ => True) (.initial 100) loop := Run.of_exec (by decide)
  exact ⟨by decide, by decide, by decide, by decide, (loop_runs_everything_once hrun).2.1⟩

end Net
end AudioFork
