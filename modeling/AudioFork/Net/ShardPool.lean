import AudioFork.Lib.Balance
import AudioFork.Net.Shard
import AudioFork.Session.Liveness
import Mathlib.Data.List.MinMax
import Mathlib.Data.List.Perm.Basic

/-!
# ShardPool — the load of a shard and the choice among shards

`Adopt` counts a session on the thread of its caller and posts its start to the loop.  `Tick` pumps the
sessions on the loop thread, parts the dead ones from the rest, takes their number off the count and
erases them.  Here each of these actions is a step of its own, so that the threads meet between any two:

* the count is what is on its way into the list or in it, less what `Tick` has uncounted and not yet
  erased, and taking off the dead never brings it below zero;
* every session is in exactly one place, from its count by `Adopt` to its end in a `Tick` that found it
  dead (`Accounts`);
* the steps of `Shard` are sequences of these (`shardStep_threads`).

`StartFork` gives a session to the first shard with the least load, which keeps the loads level.
-/

namespace AudioFork
namespace Net

open Lib Session

variable {β : Type} {S : ℕ+}

/-! ## The threads of a shard -/

/-- Where the loop thread stands in `Tick`. -/
inductive TickAt
  | idle
  /-- In the loop over `sessions_`, with those still to pump. -/
  | pumping (rest : List Nat)
  /-- After `stable_partition`; from this place on the sessions have finished. -/
  | partitioned (finished : Nat)
  /-- After `fetch_sub`. -/
  | uncounted (finished : Nat)
  deriving DecidableEq, Repr

structure ShardThreads (β : Type) (S : ℕ+) where
  shard : Shard β S
  /-- The sessions that a caller of `Adopt` has counted and not yet posted. -/
  counted : List Nat
  tick : TickAt
  /-- The sessions erased from `sessions_`, in order. -/
  retired : List Nat

inductive ThreadStep (β : Type)
  /-- A `StartFork` for this shard, up to the count. -/
  | startFork (params : ForkParams) (tuning : Tuning) (supply : Buffers.SlabSupply)
  /-- One of those that have counted posts. -/
  | post (caller : Nat)
  | runAdoption
  | call (id : Nat) (s : Session.Step β)
  /-- The next action of `Tick`. -/
  | tick

namespace ShardThreads

def initial : ShardThreads β S :=
  { shard := .initial
    counted := []
    tick := .idle
    retired := [] }

/-- `load_.fetch_add` in `Adopt`. -/
def count (w : World β S) (t : ShardThreads β S) : ShardThreads β S :=
  { t with
    shard := { t.shard with load := t.shard.load + 1, worlds := t.shard.worlds ++ [w] }
    counted := t.counted ++ [t.shard.worlds.length] }

/-- `loop_->Post` in `Adopt`. -/
def post (caller : Nat) (t : ShardThreads β S) : ShardThreads β S :=
  match t.counted[caller]? with
  | none => t
  | some id =>
      { t with
        shard := { t.shard with posted := t.shard.posted ++ [id] }
        counted := t.counted.eraseIdx caller }

def partition (t : ShardThreads β S) : ShardThreads β S :=
  let going := t.shard.sessions.filter fun id => !t.shard.isDead id
  let finished := t.shard.sessions.filter t.shard.isDead
  { t with
    shard := { t.shard with sessions := going ++ finished }
    tick := if finished = [] then .idle else .partitioned going.length }

def tickStep (env : Nat → Env β) (t : ShardThreads β S) : ShardThreads β S :=
  match t.tick with
  | .idle => { t with tick := .pumping t.shard.sessions }
  | .pumping (id :: rest) => { t with shard := t.shard.call env id .pump, tick := .pumping rest }
  | .pumping [] => t.partition
  | .partitioned finished =>
      { t with
        shard := { t.shard with load := t.shard.load - (t.shard.sessions.length - finished) }
        tick := .uncounted finished }
  | .uncounted finished =>
      { t with
        shard := { t.shard with sessions := t.shard.sessions.take finished }
        tick := .idle
        retired := t.retired ++ t.shard.sessions.drop finished }

/-- The sessions that the `Tick` under way has found dead. -/
def finished (t : ShardThreads β S) : List Nat :=
  match t.tick with
  | .partitioned finished | .uncounted finished => t.shard.sessions.drop finished
  | _ => []

/-- How many of the sessions in the list are no longer counted. -/
def uncounted (t : ShardThreads β S) : Nat :=
  match t.tick with
  | .uncounted finished => t.shard.sessions.length - finished
  | _ => 0

end ShardThreads

def threadStep (env : Nat → Env β) (t : ShardThreads β S) : ThreadStep β → ShardThreads β S
  | .startFork params tuning supply =>
      match World.create params tuning false supply with
      | none => t
      | some w => t.count w
  | .post caller => t.post caller
  | .runAdoption =>
      match t.tick with
      -- a posted task runs on the loop thread, and so not within a `Tick`
      | .idle => { t with shard := t.shard.runAdoption env }
      | _ => t
  | .call id s => { t with shard := t.shard.call env id s }
  | .tick => t.tickStep env

/-! ## Where the sessions are -/

namespace Shard

/-- What an entry point of a session leaves of its shard. -/
structure Called (shard shard' : Shard β S) : Prop where
  load : shard'.load = shard.load
  posted : shard'.posted = shard.posted
  sessions : shard'.sessions = shard.sessions
  worlds : shard'.worlds.length = shard.worlds.length
  dead : ∀ id, shard.isDead id = true → shard'.isDead id = true

theorem isDead_iff {shard : Shard β S} {id : Nat} :
    shard.isDead id = true ↔ ∃ w, shard.worlds[id]? = some w ∧ w.session.state = .dead := by
  unfold isDead
  rw [Option.any_eq_true]
  simp only [beq_iff_eq]

theorem called_call (env : Nat → Env β) (id : Nat) (s : Session.Step β) (shard : Shard β S) :
    Called shard (shard.call env id s) := by
  unfold Shard.call
  split
  · exact ⟨rfl, rfl, rfl, rfl, fun _ h => h⟩
  · rename_i w hw
    refine ⟨rfl, rfl, rfl, List.length_set, ?_⟩
    intro other hdead
    rcases isDead_iff.mp hdead with ⟨v, hv, hstate⟩
    rw [isDead_iff]
    by_cases heq : id = other
    · subst heq
      rw [hw] at hv
      cases hv
      refine ⟨_, List.getElem?_set_self (List.getElem?_eq_some_iff.mp hw).1, ?_⟩
      exact dead_step hstate s
    · exact ⟨v, (List.getElem?_set_ne heq).trans hv, hstate⟩

end Shard

namespace ShardThreads

variable {env : Nat → Env β} {t : ShardThreads β S}

/-- The sessions given to a shard, each in one place. -/
def places (t : ShardThreads β S) : List Nat :=
  t.counted ++ t.shard.posted ++ t.shard.sessions ++ t.retired

structure Accounts (t : ShardThreads β S) : Prop where
  places : t.places.Perm (List.range t.shard.worlds.length)
  load : t.shard.load + t.uncounted =
    t.counted.length + t.shard.posted.length + t.shard.sessions.length
  finished : ∀ id ∈ t.finished, t.shard.isDead id = true
  retired : ∀ id ∈ t.retired, t.shard.isDead id = true

theorem accounts_initial : (initial : ShardThreads β S).Accounts where
  places := .nil
  load := rfl
  finished := by
    intro id hid
    cases hid
  retired := by
    intro id hid
    cases hid

theorem finished_idle (h : t.tick = .idle) : t.finished = [] := by
  unfold finished
  rw [h]

theorem uncounted_le (t : ShardThreads β S) : t.uncounted ≤ t.finished.length := by
  unfold uncounted finished
  split
  · rename_i htick
    simp only [htick, List.length_drop, Nat.le_refl]
  · exact Nat.zero_le _

theorem uncounted_of_none (h : t.finished = []) : t.uncounted = 0 := by
  have hle := t.uncounted_le
  rw [h] at hle
  exact Nat.le_zero.mp hle

/-- Whoever is in one place is in no other. -/
theorem Accounts.nodup (h : t.Accounts) : t.places.Nodup :=
  h.places.nodup_iff.mpr List.nodup_range

theorem Accounts.gone (h : t.Accounts) {id : Nat} (hid : id ∈ t.retired) :
    id ∉ t.counted ∧ id ∉ t.shard.posted ∧ id ∉ t.shard.sessions := by
  have hapart : ∀ other ∈ t.counted ++ t.shard.posted ++ t.shard.sessions, other ≠ id := by
    intro other hother heq
    exact (List.nodup_append.mp h.nodup).2.2 other hother id hid heq
  refine ⟨?_, ?_, ?_⟩
  · intro hmem
    exact hapart id (List.mem_append_left _ (List.mem_append_left _ hmem)) rfl
  · intro hmem
    exact hapart id (List.mem_append_left _ (List.mem_append_right _ hmem)) rfl
  · intro hmem
    exact hapart id (List.mem_append_right _ hmem) rfl

/-! ### One action -/

theorem Accounts.called (h : t.Accounts) {shard : Shard β S} (hcalled : t.shard.Called shard) :
    ({ t with shard := shard } : ShardThreads β S).Accounts := by
  have hfinished : ShardThreads.finished { t with shard := shard } = t.finished := by
    simp only [ShardThreads.finished, hcalled.sessions]
  have huncounted : uncounted { t with shard := shard } = t.uncounted := by
    simp only [uncounted, hcalled.sessions]
  refine ⟨?_, ?_, ?_, ?_⟩
  · unfold ShardThreads.places
    simp only [hcalled.posted, hcalled.sessions, hcalled.worlds]
    exact h.places
  · rw [huncounted]
    simp only [hcalled.load, hcalled.posted, hcalled.sessions]
    exact h.load
  · intro id hid
    exact hcalled.dead id (h.finished id (hfinished ▸ hid))
  · intro id hid
    exact hcalled.dead id (h.retired id hid)

/-- A new session is known to nobody yet. -/
theorem isDead_append {shard : Shard β S} {w : World β S} {load id : Nat}
    (h : shard.isDead id = true) :
    Shard.isDead { shard with load := load, worlds := shard.worlds ++ [w] } id = true := by
  rcases Shard.isDead_iff.mp h with ⟨v, hv, hstate⟩
  refine Shard.isDead_iff.mpr ⟨v, ?_, hstate⟩
  exact (List.getElem?_append_left (List.getElem?_eq_some_iff.mp hv).1).trans hv

theorem Accounts.count (h : t.Accounts) (w : World β S) : (t.count w).Accounts := by
  refine ⟨?_, ?_, ?_, ?_⟩
  · have hrange : List.range (t.count w).shard.worlds.length =
        List.range t.shard.worlds.length ++ [t.shard.worlds.length] := by
      simp only [ShardThreads.count, List.length_append, List.length_singleton, List.range_succ]
    rw [hrange, List.perm_iff_count]
    intro id
    have hcount := h.places.count_eq id
    simp only [ShardThreads.places, ShardThreads.count, List.count_append] at hcount ⊢
    omega
  · have hload := h.load
    have hsame : (t.count w).uncounted = t.uncounted := rfl
    rw [hsame]
    simp only [ShardThreads.count, List.length_append, List.length_singleton]
    omega
  · intro id hid
    exact isDead_append (h.finished id hid)
  · intro id hid
    exact isDead_append (h.retired id hid)

theorem perm_eraseIdx {l : List Nat} {i id : Nat} (h : l[i]? = some id) :
    l.Perm (l.eraseIdx i ++ [id]) := by
  rcases List.getElem?_eq_some_iff.mp h with ⟨hlt, rfl⟩
  calc l.Perm (l.take i ++ l[i] :: l.drop (i + 1)) := by
        rw [List.getElem_cons_drop, List.take_append_drop]
    _ |>.Perm (l.take i ++ (l.drop (i + 1) ++ [l[i]])) :=
        List.Perm.append_left _ (List.perm_append_singleton _ _).symm
    _ |>.Perm (l.eraseIdx i ++ [l[i]]) := by
        rw [List.eraseIdx_eq_take_drop_succ, List.append_assoc]

theorem Accounts.post (h : t.Accounts) (caller : Nat) : (t.post caller).Accounts := by
  unfold ShardThreads.post
  split
  · exact h
  · rename_i id hid
    have hperm := perm_eraseIdx hid
    refine ⟨?_, ?_, h.finished, h.retired⟩
    · refine List.Perm.trans ?_ h.places
      rw [List.perm_iff_count]
      intro other
      have hcount := hperm.count_eq other
      simp only [ShardThreads.places, List.count_append] at hcount ⊢
      omega
    · have hlength := hperm.length_eq
      have hload := h.load
      have hsame : uncounted
          { t with
            shard := { t.shard with posted := t.shard.posted ++ [id] }
            counted := t.counted.eraseIdx caller } = t.uncounted := rfl
      rw [hsame]
      simp only [List.length_append, List.length_singleton] at hlength ⊢
      omega

theorem Accounts.runAdoption (h : t.Accounts) (hidle : t.tick = .idle) :
    ({ t with shard := t.shard.runAdoption env } : ShardThreads β S).Accounts := by
  unfold Shard.runAdoption
  split
  · exact h
  · rename_i id rest hposted
    have hmoved : Accounts
        { t with
          shard := { t.shard with posted := rest, sessions := t.shard.sessions ++ [id] } } := by
      refine ⟨?_, ?_, ?_, h.retired⟩
      · refine List.Perm.trans ?_ h.places
        rw [List.perm_iff_count]
        intro other
        simp only [ShardThreads.places, hposted, List.count_append, List.count_cons, List.count_nil]
        omega
      · have hload := h.load
        simp only [uncounted, hidle, hposted, List.length_append, List.length_cons,
          List.length_nil] at hload ⊢
        omega
      · simp only [ShardThreads.finished, hidle]
        intro other hother
        cases hother
    exact hmoved.called (Shard.called_call env id .start _)

theorem Accounts.pumping (h : t.Accounts) {rest : List Nat} (hfinished : t.finished = []) :
    ({ t with tick := .pumping rest } : ShardThreads β S).Accounts := by
  have hnone : t.uncounted = 0 := uncounted_of_none hfinished
  refine ⟨h.places, ?_, ?_, h.retired⟩
  · have hload := h.load
    rw [hnone] at hload
    exact hload
  · intro id hid
    cases hid

theorem perm_partition (t : ShardThreads β S) :
    t.partition.shard.sessions.Perm t.shard.sessions := by
  refine List.Perm.trans List.perm_append_comm ?_
  exact List.filter_append_perm t.shard.isDead t.shard.sessions

theorem finished_partition (t : ShardThreads β S) :
    t.partition.finished = t.shard.sessions.filter t.shard.isDead := by
  unfold finished partition
  by_cases hnone : t.shard.sessions.filter t.shard.isDead = []
  · simp only [hnone, if_true]
  · simp only [if_neg hnone]
    exact List.drop_left

theorem uncounted_partition (t : ShardThreads β S) : t.partition.uncounted = 0 := by
  unfold uncounted partition
  by_cases hnone : t.shard.sessions.filter t.shard.isDead = []
  · simp only [hnone, if_true]
  · simp only [if_neg hnone]

theorem Accounts.partition (h : t.Accounts) (hfinished : t.finished = []) :
    t.partition.Accounts := by
  have hperm := t.perm_partition
  have hbefore : t.uncounted = 0 := uncounted_of_none hfinished
  refine ⟨?_, ?_, ?_, h.retired⟩
  · refine List.Perm.trans ?_ h.places
    exact (hperm.append_left _).append_right _
  · have hload := h.load
    rw [hbefore] at hload
    rw [uncounted_partition, hperm.length_eq]
    exact hload
  · intro id hid
    rw [finished_partition] at hid
    exact (List.mem_filter.mp hid).2

theorem Accounts.uncount (h : t.Accounts) {n : Nat} (htick : t.tick = .partitioned n) :
    t.shard.sessions.length - n ≤ t.shard.load ∧
      ({ t with
        shard := { t.shard with load := t.shard.load - (t.shard.sessions.length - n) }
        tick := .uncounted n } : ShardThreads β S).Accounts := by
  have hload : t.shard.load = t.counted.length + t.shard.posted.length + t.shard.sessions.length := by
    have hbefore := h.load
    simp only [ShardThreads.uncounted, htick] at hbefore
    exact hbefore
  -- the dead are among the sessions, and those are all counted
  have hle : t.shard.sessions.length - n ≤ t.shard.load := by
    rw [hload]
    omega
  refine ⟨hle, h.places, ?_, ?_, h.retired⟩
  · simp only [ShardThreads.uncounted]
    rw [Nat.sub_add_cancel hle]
    exact hload
  · have hfinished := h.finished
    simp only [ShardThreads.finished, htick] at hfinished
    exact hfinished

theorem Accounts.erase (h : t.Accounts) {n : Nat} (htick : t.tick = .uncounted n) :
    ({ t with
      shard := { t.shard with sessions := t.shard.sessions.take n }
      tick := .idle
      retired := t.retired ++ t.shard.sessions.drop n } : ShardThreads β S).Accounts := by
  have hfinished : ∀ id ∈ t.shard.sessions.drop n, t.shard.isDead id = true := by
    have hdead := h.finished
    simp only [ShardThreads.finished, htick] at hdead
    exact hdead
  have hsplit := List.take_append_drop n t.shard.sessions
  refine ⟨?_, ?_, ?_, ?_⟩
  · refine List.Perm.trans ?_ h.places
    rw [List.perm_iff_count]
    intro id
    have hcount := congrArg (List.count id) hsplit
    simp only [ShardThreads.places, List.count_append] at hcount ⊢
    omega
  · have hload := h.load
    have hlength := congrArg List.length hsplit
    simp only [ShardThreads.uncounted, htick, List.length_append, List.length_drop] at hload hlength ⊢
    omega
  · intro id hid
    cases hid
  · intro id hid
    rcases List.mem_append.mp hid with hold | hnew
    · exact h.retired id hold
    · exact hfinished id hnew

theorem Accounts.tickStep (h : t.Accounts) : (t.tickStep env).Accounts := by
  unfold ShardThreads.tickStep
  split
  · rename_i htick
    exact h.pumping (finished_idle htick)
  · rename_i id rest htick
    have hrest : Accounts { t with tick := .pumping rest } :=
      h.pumping (by simp only [ShardThreads.finished, htick])
    exact hrest.called (Shard.called_call env id .pump t.shard)
  · rename_i htick
    exact h.partition (by simp only [ShardThreads.finished, htick])
  · rename_i n htick
    exact (h.uncount htick).2
  · rename_i n htick
    exact h.erase htick

theorem accounts_step (h : t.Accounts) (st : ThreadStep β) : (threadStep env t st).Accounts := by
  cases st with
  | startFork params tuning supply =>
      simp only [threadStep]
      split
      · exact h
      · rename_i w _
        exact h.count w
  | post caller => exact h.post caller
  | runAdoption =>
      simp only [threadStep]
      split
      · rename_i htick
        exact h.runAdoption htick
      · exact h
  | call id s => exact h.called (Shard.called_call env id s t.shard)
  | tick => exact h.tickStep

/-! ### From the partition to the end of the list -/

/-- The session is retired, or the `Tick` under way is about to retire it. -/
def Leaving (id : Nat) (t : ShardThreads β S) : Prop := id ∈ t.retired ∨ id ∈ t.finished

theorem leaving_partition {id : Nat} (hheld : id ∈ t.shard.sessions)
    (hdead : t.shard.isDead id = true) : t.partition.Leaving id := by
  right
  rw [finished_partition]
  exact List.mem_filter.mpr ⟨hheld, hdead⟩

theorem Leaving.of_none {id : Nat} (h : t.Leaving id) (hfinished : t.finished = []) :
    id ∈ t.retired := by
  rcases h with hretired | hleaving
  · exact hretired
  · rw [hfinished] at hleaving
    cases hleaving

theorem Leaving.called {id : Nat} (h : t.Leaving id) {shard : Shard β S}
    (hcalled : t.shard.Called shard) :
    ({ t with shard := shard } : ShardThreads β S).Leaving id := by
  unfold Leaving finished at h ⊢
  simp only [hcalled.sessions]
  exact h

theorem Leaving.tickStep {id : Nat} (h : t.Leaving id) : (t.tickStep env).Leaving id := by
  unfold ShardThreads.tickStep
  split
  · rename_i htick
    exact Or.inl (h.of_none (finished_idle htick))
  · rename_i htick
    exact Or.inl (h.of_none (by simp only [finished, htick]))
  · rename_i htick
    exact Or.inl (h.of_none (by simp only [finished, htick]))
  · rename_i n htick
    unfold Leaving finished at h ⊢
    simp only [htick] at h ⊢
    exact h
  · rename_i n htick
    left
    unfold Leaving finished at h
    simp only [htick] at h
    exact List.mem_append.mpr h

theorem leaving_step {id : Nat} (h : t.Leaving id) (st : ThreadStep β) :
    (threadStep env t st).Leaving id := by
  cases st with
  | startFork params tuning supply =>
      simp only [threadStep]
      split
      · exact h
      · exact h
  | post caller =>
      simp only [threadStep, post]
      split
      · exact h
      · exact h
  | runAdoption =>
      simp only [threadStep]
      split
      · rename_i htick
        exact Or.inl (h.of_none (finished_idle htick))
      · exact h
  | call id s => exact h.called (Shard.called_call env id s t.shard)
  | tick => exact h.tickStep

/-- When a `Tick` is over, the sessions it found dead are out of the list and stay out. -/
theorem retired_of_run {t u : ShardThreads β S} (h : t.Accounts) {id : Nat}
    (hpartition : t.tick = .pumping []) (hheld : id ∈ t.shard.sessions)
    (hdead : t.shard.isDead id = true)
    (hrun : Run (threadStep env) (fun _ _ => True) (threadStep env t .tick) u)
    (hover : u.tick = .idle) : id ∈ u.retired ∧ id ∉ u.shard.sessions := by
  have hstep : threadStep env t .tick = t.partition := by
    simp only [threadStep, ShardThreads.tickStep, hpartition]
  have hboth : u.Accounts ∧ u.Leaving id := by
    refine hrun.invariant (I := fun v => v.Accounts ∧ v.Leaving id) ?_ ?_
    · exact ⟨accounts_step h .tick, hstep ▸ leaving_partition hheld hdead⟩
    · rintro v st ⟨haccounts, hleaving⟩ -
      exact ⟨accounts_step haccounts st, leaving_step hleaving st⟩
  have hretired := hboth.2.of_none (finished_idle hover)
  exact ⟨hretired, (hboth.1.gone hretired).2.2⟩

/-! ### Whole calls -/

theorem exec_pump (env : Nat → Env β) (ids : List Nat) (t : ShardThreads β S) :
    exec (threadStep env) { t with tick := .pumping ids } (List.replicate ids.length .tick) =
      { t with
        shard := ids.foldl (fun shard id => shard.call env id .pump) t.shard
        tick := .pumping [] } := by
  induction ids generalizing t with
  | nil => rfl
  | cons id ids ih => exact ih { t with shard := t.shard.call env id .pump }

/-- `Tick` after its loop. -/
theorem exec_retire (env : Nat → Env β) (t : ShardThreads β S) :
    ∃ steps, exec (threadStep env) { t with tick := .pumping [] } steps =
      { t with
        shard := { t.shard with
          load := t.shard.load - (t.shard.sessions.filter t.shard.isDead).length
          sessions := t.shard.sessions.filter fun id => !t.shard.isDead id }
        tick := .idle
        retired := t.retired ++ t.shard.sessions.filter t.shard.isDead } := by
  by_cases hnone : t.shard.sessions.filter t.shard.isDead = []
  · refine ⟨[.tick], ?_⟩
    simp only [exec, List.foldl_cons, List.foldl_nil, threadStep, tickStep, partition, hnone,
      if_true, List.append_nil, List.length_nil, Nat.sub_zero]
  · refine ⟨[.tick, .tick, .tick], ?_⟩
    simp only [exec, List.foldl_cons, List.foldl_nil, threadStep, tickStep, partition, if_neg hnone,
      List.length_append, Nat.add_sub_cancel_left, List.take_left, List.drop_left]

theorem exec_tick (env : Nat → Env β) (hidle : t.tick = .idle) :
    ∃ steps, exec (threadStep env) t steps =
      { t with
        shard := t.shard.tick env
        tick := .idle
        retired := t.retired ++ (t.shard.pumpAll env).sessions.filter (t.shard.pumpAll env).isDead } := by
  rcases exec_retire env { t with shard := t.shard.pumpAll env } with ⟨steps, hsteps⟩
  have hbegin : threadStep env t .tick = { t with tick := .pumping t.shard.sessions } := by
    simp only [threadStep, tickStep, hidle]
  refine ⟨.tick :: (List.replicate t.shard.sessions.length .tick ++ steps), ?_⟩
  calc exec (threadStep env) t (.tick :: (List.replicate t.shard.sessions.length .tick ++ steps))
      = exec (threadStep env) (threadStep env t .tick)
          (List.replicate t.shard.sessions.length .tick ++ steps) := rfl
    _ = exec (threadStep env) (exec (threadStep env) { t with tick := .pumping t.shard.sessions }
          (List.replicate t.shard.sessions.length .tick)) steps := by rw [hbegin, exec_append]
    _ = exec (threadStep env) { t with shard := t.shard.pumpAll env, tick := .pumping [] } steps := by
        rw [exec_pump, Shard.pumpAll]
    _ = _ := hsteps

/-- No call is under way. -/
structure Quiet (t : ShardThreads β S) : Prop where
  counted : t.counted = []
  idle : t.tick = .idle

/-- Each step of a shard is a sequence of actions of its threads. -/
theorem shardStep_threads (env : Nat → Env β) (h : t.Quiet) (st : ShardStep β) :
    ∃ steps, (exec (threadStep env) t steps).shard = shardStep env t.shard st ∧
      (exec (threadStep env) t steps).Quiet := by
  cases st with
  | startFork params tuning supply =>
      cases hcreate : World.create (β := β) (S := S) params tuning false supply with
      | none =>
          refine ⟨[], ?_, h⟩
          simp only [shardStep, hcreate]
          rfl
      | some w =>
          refine ⟨[.startFork params tuning supply, .post 0], ?_⟩
          simp only [exec, List.foldl_cons, List.foldl_nil, threadStep, shardStep, hcreate, count,
            post, h.counted, List.nil_append, List.getElem?_cons_zero, List.eraseIdx_cons_zero]
          exact ⟨rfl, rfl, h.idle⟩
  | runAdoption =>
      refine ⟨[.runAdoption], ?_⟩
      simp only [exec, List.foldl_cons, List.foldl_nil, threadStep, h.idle]
      exact ⟨rfl, h.counted, rfl⟩
  | call id s => exact ⟨[.call id s], rfl, h.counted, h.idle⟩
  | tick =>
      rcases exec_tick env h.idle with ⟨steps, hsteps⟩
      refine ⟨steps, ?_⟩
      rw [hsteps]
      exact ⟨rfl, h.counted, rfl⟩

theorem accounts_exec (h : t.Accounts) (steps : List (ThreadStep β)) :
    (exec (threadStep env) t steps).Accounts := by
  induction steps generalizing t with
  | nil => exact h
  | cons st steps ih => exact ih (accounts_step h st)

theorem Accounts.load_of_quiet (h : t.Accounts) (hquiet : t.Quiet) :
    t.shard.load = t.shard.posted.length + t.shard.sessions.length := by
  have hload := h.load
  rw [uncounted_of_none (finished_idle hquiet.idle), hquiet.counted, List.length_nil,
    Nat.zero_add] at hload
  exact hload

end ShardThreads

/-- Between the calls the load of a shard is what is posted and what it holds. -/
theorem Shard.load_eq {env : Nat → Env β} {guard : Shard β S → ShardStep β → Prop}
    {shard : Shard β S} (hrun : Run (shardStep env) guard .initial shard) :
    shard.load = shard.posted.length + shard.sessions.length := by
  have hthreads : ∃ t : ShardThreads β S, t.shard = shard ∧ t.Quiet ∧ t.Accounts := by
    refine hrun.invariant (I := fun shard => ∃ t : ShardThreads β S,
      t.shard = shard ∧ t.Quiet ∧ t.Accounts) ?_ ?_
    · exact ⟨.initial, rfl, ⟨rfl, rfl⟩, ShardThreads.accounts_initial⟩
    · rintro _ st ⟨t, rfl, hquiet, haccounts⟩ -
      rcases ShardThreads.shardStep_threads env hquiet st with ⟨steps, hshard, hquiet'⟩
      exact ⟨_, hshard, hquiet', ShardThreads.accounts_exec haccounts steps⟩
  rcases hthreads with ⟨t, rfl, hquiet, haccounts⟩
  exact haccounts.load_of_quiet hquiet

/-! ## The pool -/

structure ShardPool (β : Type) (S : ℕ+) where
  shards : List (ShardThreads β S)
  /-- What `LeastLoadedShard` gave to the `StartFork` under way. -/
  chosen : Option Nat
  /-- The calls of `StartFork` that have returned a session. -/
  started : Nat
  /-- Those that have returned none. -/
  refused : Nat

inductive PoolStep (β : Type)
  | leastLoadedShard
  /-- The rest of `StartFork`, up to the count of `Adopt`. -/
  | adopt (params : ForkParams) (tuning : Tuning) (supply : Buffers.SlabSupply)
  /-- A thread of a shard, or another caller that has chosen it. -/
  | shard (i : Nat) (st : ThreadStep β)

namespace ShardPool

/-- `Start`, with all its shards created. -/
def start (k : Nat) : ShardPool β S :=
  { shards := List.replicate k .initial
    chosen := none
    started := 0
    refused := 0 }

/-- `shard_loads`. -/
def shardLoads (pool : ShardPool β S) : List Nat := pool.shards.map fun t => t.shard.load

/-- `min_element` gives the first of the least. -/
def leastLoadedShard (pool : ShardPool β S) : Option Nat :=
  (List.range pool.shards.length).argmin fun i => pool.shardLoads[i]?.getD 0

end ShardPool

def poolStep (env : Nat → Nat → Env β) (pool : ShardPool β S) : PoolStep β → ShardPool β S
  | .leastLoadedShard => { pool with chosen := pool.leastLoadedShard }
  | .adopt params tuning supply =>
      match pool.chosen, World.create params tuning false supply with
      | none, _ => pool
      | some _, none => { pool with chosen := none, refused := pool.refused + 1 }
      | some i, some w =>
          { pool with
            shards := pool.shards.modify i fun t => t.count w
            chosen := none
            started := pool.started + 1 }
  | .shard i st => { pool with shards := pool.shards.modify i fun t => threadStep (env i) t st }

/-- One `StartFork` after another, and no `Tick` takes anything off a count. -/
def undisturbed (pool : ShardPool β S) : PoolStep β → Bool
  | .shard _ (.startFork _ _ _) => false
  | .shard i .tick => pool.shards[i]?.all fun t =>
      match t.tick with
      | .partitioned _ => false
      | _ => true
  | _ => true

namespace ShardPool

variable {env : Nat → Nat → Env β} {pool : ShardPool β S}

theorem forall_mem_modify {α : Type*} {P : α → Prop} {f : α → α} (h : ∀ a, P a → P (f a))
    {l : List α} (hl : ∀ a ∈ l, P a) (i : Nat) : ∀ a ∈ l.modify i f, P a := by
  intro b hb
  rcases List.mem_iff_getElem?.mp hb with ⟨j, hj⟩
  rw [List.getElem?_modify] at hj
  rcases Option.map_eq_some_iff.mp hj with ⟨a, ha, rfl⟩
  have hold : P a := hl a (List.mem_of_getElem? ha)
  split
  · exact h a hold
  · exact hold

theorem accounts_poolStep (h : ∀ t ∈ pool.shards, t.Accounts) (st : PoolStep β) :
    ∀ t ∈ (poolStep env pool st).shards, t.Accounts := by
  cases st with
  | leastLoadedShard => exact h
  | adopt params tuning supply =>
      simp only [poolStep]
      split
      · exact h
      · exact h
      · rename_i i w _ _
        exact forall_mem_modify (fun t ht => ht.count w) h i
  | shard i st => exact forall_mem_modify (fun t ht => ShardThreads.accounts_step ht st) h i

theorem leastAt_of_leastLoadedShard {i : Nat} (h : pool.leastLoadedShard = some i) :
    LeastAt pool.shardLoads i := by
  have hlength : pool.shardLoads.length = pool.shards.length := List.length_map _
  have hlt : i < pool.shardLoads.length := by
    rw [hlength]
    exact List.mem_range.mp (List.argmin_mem h)
  refine ⟨pool.shardLoads[i], List.getElem?_eq_getElem hlt, ?_⟩
  intro y hy
  rcases List.mem_iff_getElem.mp hy with ⟨j, hj, rfl⟩
  have hrange : j ∈ List.range pool.shards.length := List.mem_range.mpr (hlength ▸ hj)
  have hle := List.le_of_mem_argmin hrange h
  simpa only [List.getElem?_eq_getElem hlt, List.getElem?_eq_getElem hj, Option.getD_some] using hle

/-- Only `Adopt` and a `Tick` that retires change a count. -/
theorem load_threadStep {env : Nat → Env β} {t : ShardThreads β S} {st : ThreadStep β}
    (hstart : ∀ params tuning supply, st ≠ .startFork params tuning supply)
    (htick : st = .tick → ∀ n, t.tick ≠ .partitioned n) :
    (threadStep env t st).shard.load = t.shard.load := by
  cases st with
  | startFork params tuning supply => exact absurd rfl (hstart params tuning supply)
  | post caller =>
      simp only [threadStep, ShardThreads.post]
      split <;> rfl
  | runAdoption =>
      simp only [threadStep]
      split
      · unfold Shard.runAdoption
        split
        · rfl
        · exact (Shard.called_call env _ _ _).load
      · rfl
  | call id s => exact (Shard.called_call env id s t.shard).load
  | tick =>
      simp only [threadStep, ShardThreads.tickStep]
      split
      · rfl
      · exact (Shard.called_call env _ _ _).load
      · rfl
      · rename_i n hn
        exact absurd hn (htick rfl n)
      · rfl

theorem shardLoads_shard (env : Nat → Nat → Env β) {i : Nat} {st : ThreadStep β}
    (h : undisturbed pool (.shard i st) = true) :
    (poolStep env pool (.shard i st)).shardLoads = pool.shardLoads := by
  unfold shardLoads
  refine List.ext_getElem? ?_
  intro j
  simp only [poolStep, List.getElem?_map, List.getElem?_modify]
  by_cases heq : i = j
  · subst heq
    cases ht : pool.shards[i]? with
    | none => rfl
    | some t =>
        simp only [if_true, Option.map_some]
        refine congrArg some (load_threadStep ?_ ?_)
        · rintro params tuning supply rfl
          cases h
        · rintro rfl n hn
          simp [undisturbed, ht, hn] at h
  · simp only [if_neg heq]
    exact congrArg (Option.map _) (id_map pool.shards[j]?)

/-- The loads as `StartFork` has spread them since they were all `c`. -/
structure Balanced (before : ShardPool β S) (c : Nat) (pool : ShardPool β S) : Prop where
  length : pool.shards.length = before.shards.length
  started : before.started ≤ pool.started
  spread : Spread c (pool.started - before.started) pool.shardLoads
  chosen : ∀ i, pool.chosen = some i → LeastAt pool.shardLoads i

theorem Balanced.step {before : ShardPool β S} {c : Nat} (h : Balanced before c pool)
    {st : PoolStep β} (hundisturbed : undisturbed pool st = true) :
    Balanced before c (poolStep env pool st) := by
  cases st with
  | leastLoadedShard =>
      exact ⟨h.length, h.started, h.spread, fun i hi => leastAt_of_leastLoadedShard hi⟩
  | adopt params tuning supply =>
      simp only [poolStep]
      split
      · exact h
      · exact ⟨h.length, h.started, h.spread, fun i hi => by cases hi⟩
      · rename_i i w hchosen _
        have hcount : ∀ t : ShardThreads β S, (t.count w).shard.load = Nat.succ t.shard.load :=
          fun _ => rfl
        have hloads : (pool.shards.modify i fun t => t.count w).map (fun t => t.shard.load) =
            pool.shardLoads.modify i Nat.succ := map_modify hcount pool.shards i
        refine ⟨?_, Nat.le_succ_of_le h.started, ?_, fun j hj => by cases hj⟩
        · exact (List.length_modify ..).trans h.length
        · unfold shardLoads
          rw [hloads, Nat.succ_sub h.started]
          exact h.spread.place (h.chosen i hchosen)
  | shard i st =>
      have hloads := shardLoads_shard env hundisturbed
      refine ⟨?_, h.started, ?_, ?_⟩
      · exact (List.length_modify ..).trans h.length
      · rw [hloads]
        exact h.spread
      · rw [hloads]
        exact h.chosen

theorem balanced_of_equal {c : Nat} (hequal : ∀ t ∈ pool.shards, t.shard.load = c)
    (hchosen : pool.chosen = none) : Balanced pool c pool := by
  refine ⟨rfl, Nat.le_refl _, ?_, ?_⟩
  · rw [Nat.sub_self]
    refine spread_of_equal ?_
    intro x hx
    rcases List.mem_map.mp hx with ⟨t, ht, rfl⟩
    exact hequal t ht
  · intro i hi
    rw [hchosen] at hi
    cases hi

end ShardPool

/-- In every run of a pool, whoever calls `StartFork` and however the threads interleave, the count of
each shard is exact, is never lowered below zero, and every session is in one place until a `Tick`
that has found it dead retires it.  As long as nothing is retired, sessions started one after another
go evenly to the shards. -/
theorem shard_loads_and_retirement (env : Nat → Nat → Env β) :
    (∀ (k : Nat) (pool : ShardPool β S),
      Run (poolStep env) (fun _ _ => True) (.start k) pool →
        ∀ t ∈ pool.shards,
          t.shard.load + t.uncounted =
              t.counted.length + t.shard.posted.length + t.shard.sessions.length ∧
            (t.counted = [] → t.uncounted = 0 →
              t.shard.load = t.shard.posted.length + t.shard.sessions.length) ∧
            (∀ n, t.tick = .partitioned n → t.shard.sessions.length - n ≤ t.shard.load) ∧
            (t.counted ++ t.shard.posted ++ t.shard.sessions ++ t.retired).Perm
              (List.range t.shard.worlds.length) ∧
            (∀ id ∈ t.retired, t.shard.isDead id = true) ∧
            (∀ shardEnv u id, t.tick = .pumping [] → id ∈ t.shard.sessions →
              t.shard.isDead id = true →
              Run (threadStep shardEnv) (fun _ _ => True) (threadStep shardEnv t .tick) u →
              u.tick = .idle → id ∈ u.retired ∧ id ∉ u.shard.sessions)) ∧
      ∀ (pool pool' : ShardPool β S) (c : Nat),
        (∀ t ∈ pool.shards, t.shard.load = c) → pool.chosen = none →
        Run (poolStep env) (fun pool st => undisturbed pool st = true) pool pool' →
          pool'.shards.length = pool.shards.length ∧
            ∀ t ∈ pool'.shards,
              t.shard.load = c + (pool'.started - pool.started) / pool.shards.length ∨
                t.shard.load =
                  c + (pool'.started - pool.started + pool.shards.length - 1) / pool.shards.length := by
  constructor
  · intro k pool hrun t ht
    have haccounts : ∀ t ∈ pool.shards, t.Accounts := by
      refine hrun.invariant (I := fun pool => ∀ t ∈ pool.shards, t.Accounts) ?_ ?_
      · intro t ht
        rw [List.eq_of_mem_replicate ht]
        exact ShardThreads.accounts_initial
      · intro pool st h _
        exact ShardPool.accounts_poolStep h st
    have h := haccounts t ht
    refine ⟨h.load, ?_, fun n hn => (h.uncount hn).1, h.places, h.retired, ?_⟩
    · intro hcounted huncounted
      have hload := h.load
      rw [hcounted, huncounted, List.length_nil, Nat.zero_add, Nat.add_zero] at hload
      exact hload
    · intro shardEnv u id hpartition hheld hdead hticked hover
      exact ShardThreads.retired_of_run h hpartition hheld hdead hticked hover
  · intro pool pool' c hequal hchosen hrun
    have hbalanced : ShardPool.Balanced pool c pool' :=
      hrun.invariant (I := ShardPool.Balanced pool c)
        (ShardPool.balanced_of_equal hequal hchosen) fun _ _ h hundisturbed => h.step hundisturbed
    refine ⟨hbalanced.length, ?_⟩
    intro t ht
    have hlength : pool'.shardLoads.length = pool.shards.length :=
      (List.length_map _).trans hbalanced.length
    have hshare := hbalanced.spread.share (List.mem_map_of_mem ht)
    rw [hlength] at hshare
    exact hshare

namespace Sample

def poolEnv : Nat → Nat → Env UInt8 := fun _ => env

def twoShards : ShardPool UInt8 Session.Sample.slabBytes := .start 2

/-- `StartFork` of a session. -/
def startFork : List (PoolStep UInt8) :=
  [.leastLoadedShard, .adopt Session.Sample.params Session.Sample.tuning Session.Sample.supply]

/-- Three sessions are started, the first of them posted and run before the third. -/
def threeForks : List (PoolStep UInt8) :=
  startFork ++ startFork ++ [.shard 0 (.post 0), .shard 0 .runAdoption] ++ startFork

/-- A session is started, taken off its socket by `Modify` and stopped, and pumped by a `Tick`. -/
def stoppedFork : List (PoolStep UInt8) :=
  startFork ++ [.shard 0 (.post 0), .shard 0 .runAdoption, .shard 0 (.call 0 (.onConnected 0)),
    .shard 0 (.call 0 (.modify Session.Sample.otherEndpoint)), .shard 0 (.call 0 (.runPosted 0)),
    .shard 0 (.call 0 .stop), .shard 0 (.call 0 (.runPosted 0)), .shard 0 .tick, .shard 0 .tick]

/-- A tuning under which `Create` gives no session. -/
def noBuffer : Tuning := { Session.Sample.tuning with sendCapBytes := 0 }

end Sample

/-- Three sessions on two shards: two on the first, one on the second.  A session that is stopped while
it has no socket is dead when the next `Tick` parts the list, and is retired when that is over. -/
theorem three_forks_on_two_shards :
    (let pool := exec (poolStep Sample.poolEnv) Sample.twoShards Sample.threeForks
    pool.started = 3 ∧ pool.shardLoads = [2, 1] ∧
      ∀ t ∈ pool.shards, t.shard.load = 0 + 3 / 2 ∨ t.shard.load = 0 + (3 + 2 - 1) / 2) ∧
      let pool := exec (poolStep Sample.poolEnv) Sample.twoShards Sample.stoppedFork
      ∀ t ∈ pool.shards.head?,
        let u := exec (threadStep Sample.env) t [.tick, .tick, .tick]
        t.shard.load = 1 ∧ 0 ∈ u.retired ∧ 0 ∉ u.shard.sessions ∧ u.shard.load = 0 := by
  constructor
  · intro pool
    have hrun : Run (poolStep Sample.poolEnv) (fun pool st => undisturbed pool st = true)
        Sample.twoShards pool := Run.of_exec (by decide +kernel)
    have hequal : ∀ t ∈ Sample.twoShards.shards, t.shard.load = 0 := by
      intro t ht
      rw [List.eq_of_mem_replicate ht]
      rfl
    refine ⟨by decide +kernel, by decide +kernel, ?_⟩
    exact ((shard_loads_and_retirement Sample.poolEnv).2 Sample.twoShards pool 0 hequal rfl hrun).2
  · intro pool t ht u
    have hrun : Run (poolStep Sample.poolEnv) (fun _ _ => True) Sample.twoShards pool :=
      Run.of_exec (by decide +kernel)
    have hshard := (shard_loads_and_retirement Sample.poolEnv).1 2 pool hrun t
      (List.mem_of_mem_head? ht)
    have hticked : Run (threadStep Sample.env) (fun _ _ => True) (threadStep Sample.env t .tick) u :=
      .tail ThreadStep.tick (.tail ThreadStep.tick .refl trivial) trivial
    have hstate : ∀ t ∈ pool.shards.head?, t.tick = .pumping [] ∧ 0 ∈ t.shard.sessions ∧
        t.shard.isDead 0 = true ∧ t.shard.load = 1 ∧
        (exec (threadStep Sample.env) t [.tick, .tick, .tick]).tick = .idle ∧
        (exec (threadStep Sample.env) t [.tick, .tick, .tick]).shard.load = 0 := by decide +kernel
    rcases hstate t ht with ⟨hpartition, hheld, hdead, hload, hover, hafter⟩
    rcases hshard.2.2.2.2.2 Sample.env u 0 hpartition hheld hdead hticked hover with
      ⟨hretired, hgone⟩
    exact ⟨hload, hretired, hgone, hafter⟩

/-- A call of `StartFork` that returns no session leaves the loads as they are. -/
theorem startFork_without_session :
    let pool := exec (poolStep Sample.poolEnv) (.start (S := Session.Sample.slabBytes) 1)
      [.leastLoadedShard, .adopt Session.Sample.params Sample.noBuffer Session.Sample.supply]
    Run (poolStep Sample.poolEnv) (fun pool st => undisturbed pool st = true) (.start 1) pool ∧
      pool.started + pool.refused = 1 ∧ pool.shardLoads = [0] ∧
      ∀ load ∈ pool.shardLoads, load ≠ 0 + 1 / 1 ∧ load ≠ 0 + (1 + 1 - 1) / 1 := by
  intro pool
  refine ⟨Run.of_exec (by decide +kernel), by decide +kernel, by decide +kernel, by decide +kernel⟩

end Net
end AudioFork
