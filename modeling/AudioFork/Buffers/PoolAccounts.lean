import AudioFork.Buffers.SlabLedger
import AudioFork.Buffers.SlabSupply
import AudioFork.Lib.Holdings

/-!
# PoolAccounts — the slab pool keeps its books

The threads of `SlabPool` post to the ledger of `SlabLedger`: each statement is at most one posting
(`posting_step`).  The mutex is what makes this true, since a test made under it has to hold still
when its branch is taken (`Exclusive`).  When the mutex is free no critical section is half done, and
the books balance.
-/

namespace AudioFork
namespace Buffers

open Lib

/-! ## What objects and threads hold -/

def SlabLease.items : SlabLease → List Item
  | .null => []
  | .holding number slab => [.lease number, .slab slab]

def LeasePlace.items : LeasePlace → List Item
  | .object lease => lease.items
  | .operand _ => []
  | .destroyed => []

def ReleaseCaller.items : ReleaseCaller → List Item
  | .destructor => []
  | .assignment _ _ other => other.items

def storageItems : Option Slab → List Item
  | none => []
  | some slab => [.slab slab]

def PoolThread.items : PoolThread → List Item
  | .acquireCount storage => .owed :: storageItems storage
  | .acquireUnlock number storage => .lease number :: storageItems storage
  | .acquireResize number storage => .lease number :: storageItems storage
  | .rollback number => [.lease number]
  | .rollbackBytes number => [.lease number]
  | .rollbackCount number => [.leaving number]
  | .release lease caller => lease.items ++ caller.items
  | .releasePush number slab caller => .lease number :: .slab slab :: caller.items
  | .releaseCount number caller => .leaving number :: caller.items
  | .releaseUnlock caller => caller.items
  | .released caller => caller.items
  | _ => []

@[simp] theorem PoolThread.items_idle : PoolThread.idle.items = [] := rfl

/-- In a critical section. -/
def PoolThread.inLock : PoolThread → Bool
  | .acquireTest => true
  | .acquirePop => true
  | .acquireGrow => true
  | .acquireRefused => true
  | .acquireCount _ => true
  | .acquireUnlock _ _ => true
  | .rollbackBytes _ => true
  | .rollbackCount _ => true
  | .rollbackUnlock => true
  | .releasePush _ _ _ => true
  | .releaseCount _ _ => true
  | .releaseUnlock _ => true
  | _ => false

/-- The `Release` a thread is in. -/
def PoolThread.caller : PoolThread → Option ReleaseCaller
  | .release _ caller => some caller
  | .releasePush _ _ caller => some caller
  | .releaseCount _ caller => some caller
  | .releaseUnlock caller => some caller
  | .released caller => some caller
  | _ => none

namespace PoolThreads

def ledger (s : PoolThreads) : Ledger :=
  { slabSize := s.slabSizeBytes
    maxTotal := s.maxTotalBytes
    free := s.freeSlabs
    allocated := s.allocatedBytes
    leased := s.leasedSlabs
    nextSlab := s.nextSlab
    issued := s.issued
    returned := s.returned
    rolledBack := s.rolledBack
    items := holdings LeasePlace.items s.places + holdings PoolThread.items s.threads }

/-! ## Mutual exclusion -/

/-- Where thread `t` may be.  A test made under the mutex still holds when its branch is taken, and
the operands of an assignment stay with it. -/
structure ThreadOk (s : PoolThreads) (t : Nat) (statement : PoolThread) : Prop where
  holder : statement.inLock = true ↔ s.mutex = some t
  pop : statement = .acquirePop → s.freeSlabs ≠ []
  grow : statement = .acquireGrow → s.allocatedBytes + s.slabSizeBytes ≤ s.maxTotalBytes
  operands : ∀ dst src other, statement.caller = some (.assignment dst src other) →
    s.places[dst]? = some (.operand t) ∧ s.places[src]? = some (.operand t) ∧ dst ≠ src

structure Exclusive (s : PoolThreads) : Prop where
  thread : ∀ t statement, s.threads[t]? = some statement → s.ThreadOk t statement
  owner : ∀ t, s.mutex = some t → t < s.threads.length

/-- One thread moves: it has to be where it may be, and the others must not notice. -/
theorem Exclusive.move {s s' : PoolThreads} (h : s.Exclusive) {t : Nat} {a b : PoolThread}
    (ht : s.threads[t]? = some a) (hthreads : s'.threads = s.threads.set t b)
    (hb : s'.ThreadOk t b)
    (hothers : ∀ u statement, u ≠ t → s.ThreadOk u statement → s'.ThreadOk u statement)
    (howner : s'.mutex = s.mutex ∨ s'.mutex = some t ∨ s'.mutex = none) : s'.Exclusive := by
  have hlt : t < s.threads.length := (List.getElem?_eq_some_iff.mp ht).1
  refine ⟨?_, ?_⟩
  · rw [hthreads]
    refine forall_set ht hb ?_
    intro u statement hne hu
    exact hothers u statement hne (h.thread u statement hu)
  · intro u hu
    rw [hthreads, List.length_set]
    rcases howner with hsame | hmine | hfree
    · exact h.owner u (hsame ▸ hu)
    · rw [hmine] at hu
      cases hu
      exact hlt
    · rw [hfree] at hu
      cases hu

/-- A statement outside the critical sections leaves the shared state and others' operands alone. -/
theorem Exclusive.outside {s s' : PoolThreads} (h : s.Exclusive) {t : Nat} {a b : PoolThread}
    (ht : s.threads[t]? = some a) (ha : a.inLock = false) (hb : b.inLock = false)
    (hthreads : s'.threads = s.threads.set t b) (hmutex : s'.mutex = s.mutex)
    (hfree : s'.freeSlabs = s.freeSlabs) (hallocated : s'.allocatedBytes = s.allocatedBytes)
    (hsize : s'.slabSizeBytes = s.slabSizeBytes) (hcap : s'.maxTotalBytes = s.maxTotalBytes)
    (hplaces : ∀ (u p : Nat), u ≠ t → s.places[p]? = some (.operand u) → s'.places[p]? = some (.operand u))
    (hoperands : ∀ dst src other, b.caller = some (.assignment dst src other) →
      s'.places[dst]? = some (.operand t) ∧ s'.places[src]? = some (.operand t) ∧ dst ≠ src) :
    s'.Exclusive := by
  refine h.move ht hthreads ⟨?_, ?_, ?_, hoperands⟩ ?_ (.inl hmutex)
  · rw [hb, hmutex, ← (h.thread t a ht).holder, ha]
  · rintro rfl
    cases hb
  · rintro rfl
    cases hb
  · intro u statement hne hu
    refine ⟨hmutex ▸ hu.holder, hfree ▸ hu.pop, ?_, ?_⟩
    · rw [hallocated, hsize, hcap]
      exact hu.grow
    · intro dst src other hcaller
      rcases hu.operands dst src other hcaller with ⟨hdst, hsrc, hdiff⟩
      exact ⟨hplaces u dst hne hdst, hplaces u src hne hsrc, hdiff⟩

/-- A statement inside may do what it likes to the shared state: no other thread is inside. -/
theorem Exclusive.inside {s s' : PoolThreads} (h : s.Exclusive) {t : Nat} {a b : PoolThread}
    (ht : s.threads[t]? = some a) (ha : a.inLock = true)
    (hthreads : s'.threads = s.threads.set t b) (hplaces : s'.places = s.places)
    (hmutex : s'.mutex = if b.inLock then some t else none)
    (hpop : b = .acquirePop → s'.freeSlabs ≠ [])
    (hgrow : b = .acquireGrow → s'.allocatedBytes + s'.slabSizeBytes ≤ s'.maxTotalBytes)
    (hcaller : b.caller = a.caller ∨ b.caller = none) : s'.Exclusive := by
  have hmine : s.mutex = some t := (h.thread t a ht).holder.mp ha
  refine h.move ht hthreads ⟨?_, hpop, hgrow, ?_⟩ ?_ ?_
  · rw [hmutex]
    cases b.inLock <;> simp
  · intro dst src other hb
    rw [hplaces]
    rcases hcaller with hsame | hnone
    · exact (h.thread t a ht).operands dst src other (hsame ▸ hb)
    · rw [hnone] at hb
      cases hb
  · intro u statement hne hu
    have hout : statement.inLock = false := by
      rw [← Bool.not_eq_true, hu.holder, hmine]
      exact fun heq => hne (Option.some.inj heq).symm
    refine ⟨?_, ?_, ?_, hplaces ▸ hu.operands⟩
    · rw [hout, hmutex]
      cases b.inLock <;> simp [Ne.symm hne]
    · rintro rfl
      cases hout
    · rintro rfl
      cases hout
  · rw [hmutex]
    cases b.inLock <;> simp

theorem Exclusive.within {s s' : PoolThreads} (h : s.Exclusive) {t : Nat} {a b : PoolThread}
    (ht : s.threads[t]? = some a) (ha : a.inLock = true)
    (hthreads : s'.threads = s.threads.set t b) (hplaces : s'.places = s.places)
    (hmutex : s'.mutex = s.mutex) (hb : b.inLock = true) (hpop : b ≠ .acquirePop)
    (hgrow : b ≠ .acquireGrow) (hcaller : b.caller = a.caller ∨ b.caller = none) :
    s'.Exclusive := by
  refine h.inside ht ha hthreads hplaces ?_ ?_ ?_ hcaller
  · rw [hmutex, hb, (h.thread t a ht).holder.mp ha]
    rfl
  · exact fun heq => absurd heq hpop
  · exact fun heq => absurd heq hgrow

theorem Exclusive.unlock {s : PoolThreads} (h : s.Exclusive) {t : Nat} {a b : PoolThread}
    (ht : s.threads[t]? = some a) (ha : a.inLock = true) (hb : b.inLock = false)
    (hcaller : b.caller = a.caller ∨ b.caller = none) : (s.unlock t b).Exclusive := by
  refine h.inside ht ha rfl rfl ?_ ?_ ?_ hcaller
  · rw [hb]
    rfl
  · rintro rfl
    cases hb
  · rintro rfl
    cases hb

theorem Exclusive.lock {s : PoolThreads} (h : s.Exclusive) {t : Nat} {a b : PoolThread}
    (ht : s.threads[t]? = some a) (hb : b.inLock = true) (hpop : b ≠ .acquirePop)
    (hgrow : b ≠ .acquireGrow) (hcaller : b.caller = a.caller) : (s.lock t b).Exclusive := by
  unfold PoolThreads.lock
  split
  · rename_i hfree
    refine h.move ht rfl ⟨?_, ?_, ?_, ?_⟩ ?_ (.inr (.inl rfl))
    · exact ⟨fun _ => rfl, fun _ => hb⟩
    · exact fun heq => absurd heq hpop
    · exact fun heq => absurd heq hgrow
    · intro dst src other hoperand
      exact (h.thread t a ht).operands dst src other (hcaller ▸ hoperand)
    · intro u statement hne hu
      have hout : statement.inLock = false := by
        rw [← Bool.not_eq_true, hu.holder, hfree]
        exact fun heq => by cases heq
      refine ⟨?_, hu.pop, hu.grow, hu.operands⟩
      show statement.inLock = true ↔ some t = some u
      rw [hout]
      simp [Ne.symm hne]
  · exact h

/-- What the test under the mutex found. -/
theorem Exclusive.test {s : PoolThreads} (h : s.Exclusive) (hsound : s.ledger.Sound) {t : Nat}
    (ht : s.threads[t]? = some .acquireTest) (allocates : Bool) :
    (s.run t allocates .acquireTest).Exclusive := by
  have hmine : s.mutex = some t := (h.thread t _ ht).holder.mp rfl
  have hcap : s.allocatedBytes ≤ s.maxTotalBytes := hsound.cap
  have hnoWrap : s.maxTotalBytes + s.slabSizeBytes < 2 ^ 64 := hsound.noWrap
  unfold PoolThreads.run goto
  simp only
  split
  · rename_i hfree
    exact h.inside ht rfl rfl rfl hmine (fun _ => hfree) (fun heq => by cases heq) (.inr rfl)
  · split
    · rename_i hfits
      refine h.inside ht rfl rfl rfl hmine (fun heq => by cases heq) (fun _ => ?_) (.inr rfl)
      rw [Nat.mod_eq_of_lt (by omega)] at hfits
      exact hfits
    · exact h.inside ht rfl rfl rfl hmine (fun heq => by cases heq) (fun heq => by cases heq)
        (.inr rfl)

/-- A place that is not another thread's operand may be overwritten. -/
theorem operand_set {places : List LeasePlace} {p q u : Nat} {new : LeasePlace}
    (hp : places[p]? ≠ some (.operand u)) (hq : places[q]? = some (.operand u)) :
    (places.set p new)[q]? = some (.operand u) := by
  have hne : p ≠ q := by
    rintro rfl
    exact hp hq
  rw [List.getElem?_set_ne hne, hq]

theorem operand_append {places : List LeasePlace} {q u : Nat} (new : LeasePlace)
    (hq : places[q]? = some (.operand u)) : (places ++ [new])[q]? = some (.operand u) := by
  rw [List.getElem?_append_left (List.getElem?_eq_some_iff.mp hq).1, hq]

theorem Exclusive.construct {s : PoolThreads} (h : s.Exclusive) {t : Nat} {a : PoolThread}
    (ht : s.threads[t]? = some a) (ha : a.inLock = false) (lease : SlabLease) :
    (s.construct t lease).Exclusive :=
  h.outside ht ha (b := .idle) rfl rfl rfl rfl rfl rfl rfl (fun _ _ _ => operand_append _) nofun

/-- The end of an assignment: its operands are objects again. -/
theorem Exclusive.assigned {s : PoolThreads} (h : s.Exclusive) {t dst src : Nat} {other : SlabLease}
    (ht : s.threads[t]? = some (.released (.assignment dst src other))) (allocates : Bool) :
    (s.run t allocates (.released (.assignment dst src other))).Exclusive := by
  rcases (h.thread t _ ht).operands dst src other rfl with ⟨hdst, hsrc, hne⟩
  refine h.outside ht rfl (b := .idle) rfl rfl rfl rfl rfl rfl rfl ?_ nofun
  intro u p hu hp
  have hmine : ∀ q : Nat, s.places[q]? = some (.operand t) → s.places[q]? ≠ some (.operand u) := by
    intro q hq heq
    rw [hq] at heq
    cases heq
    exact hu rfl
  refine operand_set ?_ (operand_set (hmine dst hdst) hp)
  rw [List.getElem?_set_ne hne]
  exact hmine src hsrc

theorem exclusive_run {s : PoolThreads} (h : s.Exclusive) (hsound : s.ledger.Sound) {t : Nat}
    {statement : PoolThread} (ht : s.threads[t]? = some statement) (allocates : Bool) :
    (s.run t allocates statement).Exclusive := by
  cases statement with
  | idle => exact h
  | acquire => exact h.lock ht rfl nofun nofun rfl
  | acquireTest => exact h.test hsound ht allocates
  | acquirePop => exact h.within ht rfl rfl rfl rfl rfl nofun nofun (.inr rfl)
  | acquireGrow => exact h.within ht rfl rfl rfl rfl rfl nofun nofun (.inr rfl)
  | acquireRefused => exact h.unlock ht rfl rfl (.inr rfl)
  | acquireCount storage => exact h.within ht rfl rfl rfl rfl rfl nofun nofun (.inr rfl)
  | acquireUnlock number storage => exact h.unlock ht rfl rfl (.inr rfl)
  | acquireResize number storage =>
      unfold run
      simp only
      split
      · exact h.construct ht rfl _
      · split
        · have hnew := h.construct ht rfl (.holding number { id := s.nextSlab, size := s.slabSizeBytes })
          exact ⟨fun u statement hu => ⟨(hnew.thread u statement hu).holder,
            (hnew.thread u statement hu).pop, (hnew.thread u statement hu).grow,
            (hnew.thread u statement hu).operands⟩, hnew.owner⟩
        · exact h.outside ht rfl (b := .rollback number) rfl rfl rfl rfl rfl rfl rfl
            (fun _ _ _ hp => hp) nofun
  | rollback number => exact h.lock ht rfl nofun nofun rfl
  | rollbackBytes number => exact h.within ht rfl rfl rfl rfl rfl nofun nofun (.inr rfl)
  | rollbackCount number => exact h.within ht rfl rfl rfl rfl rfl nofun nofun (.inr rfl)
  | rollbackUnlock => exact h.unlock ht rfl rfl (.inr rfl)
  | release lease caller =>
      cases lease with
      | null =>
          exact h.outside ht rfl (b := .released caller) rfl rfl rfl rfl rfl rfl rfl
            (fun _ _ _ hp => hp) (h.thread t _ ht).operands
      | holding number slab => exact h.lock ht rfl nofun nofun rfl
  | releasePush number slab caller =>
      exact h.within ht rfl rfl rfl rfl rfl nofun nofun (.inl rfl)
  | releaseCount number caller =>
      exact h.within ht rfl rfl rfl rfl rfl nofun nofun (.inl rfl)
  | releaseUnlock caller => exact h.unlock ht rfl rfl (.inl rfl)
  | released caller =>
      cases caller with
      | destructor =>
          exact h.outside ht rfl (b := .idle) rfl rfl rfl rfl rfl rfl rfl (fun _ _ _ hp => hp) nofun
      | assignment dst src other => exact h.assigned ht allocates

theorem exclusive_step {s : PoolThreads} (h : s.Exclusive) (hsound : s.ledger.Sound)
    (i : PoolStep) : (s.step i).Exclusive := by
  have hobject : ∀ (p : Nat) (lease : SlabLease), s.places[p]? = some (.object lease) →
      ∀ u, s.places[p]? ≠ some (.operand u) := by
    intro p lease hp u heq
    rw [hp] at heq
    cases heq
  cases i with
  | acquire t =>
      unfold step
      simp only
      split
      · rename_i ht
        exact h.outside ht rfl (b := .acquire) rfl rfl rfl rfl rfl rfl rfl (fun _ _ _ hp => hp) nofun
      · exact h
  | move t src =>
      unfold step
      simp only
      split
      · rename_i ht hsrc
        refine h.outside ht rfl (b := .idle) rfl (set_of_getElem? ht).symm rfl rfl rfl rfl rfl ?_ nofun
        intro u p _ hp
        exact operand_append _ (operand_set (hobject _ _ hsrc u) hp)
      · exact h
  | assign t dst src =>
      unfold step
      simp only
      split
      · rename_i lease other ht hdst hsrc
        split
        · exact h
        · rename_i hne
          refine h.outside ht rfl (b := .release lease (.assignment dst src other)) rfl rfl rfl rfl
            rfl rfl rfl ?_ ?_
          · intro u p _ hp
            refine operand_set ?_ (operand_set (hobject _ _ hdst u) hp)
            rw [List.getElem?_set_ne hne]
            exact hobject _ _ hsrc u
          · rintro dst' src' other' heq
            cases heq
            have hlt := (List.getElem?_eq_some_iff.mp hdst).1
            have hlt' := (List.getElem?_eq_some_iff.mp hsrc).1
            refine ⟨?_, ?_, hne⟩
            · rw [List.getElem?_set_ne (Ne.symm hne), List.getElem?_set_self hlt]
            · rw [List.getElem?_set_self (by rw [List.length_set]; exact hlt')]
      · exact h
  | destroy t place =>
      unfold step
      simp only
      split
      · rename_i lease ht hplace
        refine h.outside ht rfl (b := .release lease .destructor) rfl rfl rfl rfl rfl rfl rfl ?_ nofun
        intro u p _ hp
        exact operand_set (hobject _ _ hplace u) hp
      · exact h
  | next t allocates =>
      unfold step
      simp only
      split
      · rename_i ht
        exact exclusive_run h hsound ht allocates
      · exact h

/-! ## Refinement -/

theorem ledger_split {s : PoolThreads} {t : Nat} {a : PoolThread} (ht : s.threads[t]? = some a) :
    ∃ rest, s.ledger.items = rest + (a.items : Multiset Item) ∧
      ∀ b, holdings LeasePlace.items s.places + holdings PoolThread.items (s.threads.set t b) =
        rest + (b.items : Multiset Item) := by
  rcases holdings_split PoolThread.items ht with ⟨rest, hold, hnew⟩
  refine ⟨holdings LeasePlace.items s.places + rest, ?_, ?_⟩
  · show holdings _ _ + holdings _ _ = _
    rw [hold, add_assoc]
  · intro b
    rw [hnew, add_assoc]

/-- A thread that goes on with what it holds posts nothing. -/
theorem ledger_goto {s : PoolThreads} {t : Nat} {a b : PoolThread} (ht : s.threads[t]? = some a)
    (hitems : b.items = a.items) (mutex : Option Nat) :
    { s with mutex, threads := s.threads.set t b }.ledger = s.ledger := by
  rcases ledger_split ht with ⟨rest, hold, hnew⟩
  have hsame := hnew b
  rw [hitems, ← hold] at hsame
  unfold ledger at hsame ⊢
  rw [hsame]

theorem posting_goto {s : PoolThreads} {t : Nat} {a b : PoolThread} (ht : s.threads[t]? = some a)
    (hitems : b.items = a.items) : Posting s.ledger (s.goto t b).ledger := by
  rw [goto, ledger_goto ht hitems]
  exact .none

theorem posting_lock {s : PoolThreads} {t : Nat} {a b : PoolThread} (ht : s.threads[t]? = some a)
    (hitems : b.items = a.items) : Posting s.ledger (s.lock t b).ledger := by
  unfold lock
  split
  · rw [ledger_goto ht hitems]
    exact .none
  · exact .none

theorem posting_unlock {s : PoolThreads} {t : Nat} {a b : PoolThread} (ht : s.threads[t]? = some a)
    (hitems : b.items = a.items) : Posting s.ledger (s.unlock t b).ledger := by
  rw [unlock, ledger_goto ht hitems]
  exact .none

/-- The lease `Acquire` returns holds what its thread held. -/
theorem ledger_construct {s : PoolThreads} {t : Nat} {a : PoolThread} (ht : s.threads[t]? = some a)
    (lease : SlabLease) {rest : Multiset Item}
    (hold : s.ledger.items = rest + (a.items : Multiset Item)) :
    (s.construct t lease).ledger = { s.ledger with items := rest + (lease.items : Multiset Item) } := by
  rcases ledger_split ht with ⟨rest', hold', hnew⟩
  have hrest : rest' = rest := add_right_cancel (hold'.symm.trans hold)
  have hidle := hnew .idle
  rw [hrest, PoolThread.items_idle, add_coe_nil] at hidle
  unfold construct ledger
  simp only
  rw [holdings_concat, add_right_comm, hidle]
  rfl

/-- Things change hands and nothing else happens. -/
theorem posting_hands {s : PoolThreads} {places : List LeasePlace} {threads : List PoolThread}
    (h : holdings LeasePlace.items places + holdings PoolThread.items threads =
      holdings LeasePlace.items s.places + holdings PoolThread.items s.threads) :
    Posting s.ledger { s with places, threads }.ledger := by
  unfold ledger
  rw [h]
  exact .none

theorem posting_resize {s : PoolThreads} (hsound : s.ledger.Sound) {t number : Nat}
    {storage : Option Slab} (ht : s.threads[t]? = some (.acquireResize number storage))
    (allocates : Bool) : Posting s.ledger (s.run t allocates (.acquireResize number storage)).ledger := by
  rcases ledger_split ht with ⟨rest, hold, hnew⟩
  cases storage with
  | some slab =>
      -- a slab from the free list is not empty
      have hsize : slab.size = s.slabSizeBytes := by
        refine hsound.heldSize slab ?_
        rw [hold]
        simp [PoolThread.items, storageItems]
      have hpositive : 0 < s.slabSizeBytes := hsound.positive
      have hrun : s.run t allocates (.acquireResize number (some slab)) =
          s.construct t (.holding number slab) := by
        have hne : slab.size ≠ 0 := by omega
        unfold run
        simp only [Option.filter, hne, ne_eq, not_false_eq_true, decide_true, if_true]
      rw [hrun, ledger_construct ht _ hold]
      have hsame : rest + ((SlabLease.holding number slab).items : Multiset Item) = s.ledger.items :=
        hold.symm
      rw [hsame]
      exact .none
  | none =>
      unfold run
      simp only [Option.filter]
      split
      · let slab : Slab := { id := s.nextSlab, size := s.slabSizeBytes }
        have hnewest : rest + ((SlabLease.holding number slab).items : Multiset Item) =
            .slab slab ::ₘ s.ledger.items := by
          rw [hold]
          simp only [SlabLease.items, PoolThread.items, storageItems, add_coe_cons]
          exact Multiset.cons_swap _ _ _
        have hposting := Posting.allocate (l := s.ledger)
        have hledger := ledger_construct ht (.holding number slab) hold
        rw [hnewest] at hledger
        show Posting s.ledger { (s.construct t (.holding number slab)).ledger with nextSlab := s.nextSlab + 1 }
        rw [hledger]
        exact hposting
      · exact posting_goto ht rfl

theorem posting_run {s : PoolThreads} (h : s.Exclusive) (hsound : s.ledger.Sound) {t : Nat}
    {statement : PoolThread} (ht : s.threads[t]? = some statement) (allocates : Bool) :
    Posting s.ledger (s.run t allocates statement).ledger := by
  rcases ledger_split ht with ⟨rest, hold, hnew⟩
  cases statement with
  | idle => exact .none
  | acquire => exact posting_lock ht rfl
  | acquireTest =>
      unfold run
      simp only
      split
      · exact posting_goto ht rfl
      · split
        · exact posting_goto ht rfl
        · exact posting_goto ht rfl
  | acquirePop =>
      have hfree := (h.thread t _ ht).pop rfl
      have hitems := hnew (.acquireCount s.freeSlabs.getLast?)
      rw [List.getLast?_eq_some_getLast hfree] at hitems
      simp only [PoolThread.items, storageItems, add_coe_cons, add_coe_nil] at hold hitems
      have hposting := Posting.pop (l := s.ledger) s.freeSlabs.dropLast (s.freeSlabs.getLast hfree)
        (List.dropLast_concat_getLast hfree).symm
      rw [hold, ← hitems, ← List.getLast?_eq_some_getLast hfree] at hposting
      exact hposting
  | acquireGrow =>
      have hitems := hnew (.acquireCount none)
      simp only [PoolThread.items, storageItems, add_coe_cons, add_coe_nil] at hold hitems
      have hposting := Posting.grow (l := s.ledger) ((h.thread t _ ht).grow rfl)
      rw [hold, ← hitems] at hposting
      exact hposting
  | acquireRefused => exact posting_unlock ht rfl
  | acquireCount storage =>
      have hitems := hnew (.acquireUnlock s.issued storage)
      simp only [PoolThread.items, add_coe_cons] at hold hitems
      have hposting := Posting.count (l := s.ledger) _ hold
      rw [show s.ledger.issued = s.issued from rfl, ← hitems] at hposting
      exact hposting
  | acquireUnlock number storage => exact posting_unlock ht rfl
  | acquireResize number storage => exact posting_resize hsound ht allocates
  | rollback number => exact posting_lock ht rfl
  | rollbackBytes number =>
      have hitems := hnew (.rollbackCount number)
      simp only [PoolThread.items, add_coe_cons] at hold hitems
      have hposting := Posting.refund (l := s.ledger) number _ hold
      rw [← hitems] at hposting
      exact hposting
  | rollbackCount number =>
      have hitems := hnew .rollbackUnlock
      simp only [PoolThread.items, add_coe_cons] at hold hitems
      have hposting := Posting.rollBack (l := s.ledger) number _ hold
      rw [← hitems] at hposting
      exact hposting
  | rollbackUnlock => exact posting_unlock ht rfl
  | release lease caller =>
      cases lease with
      | null => exact posting_goto ht rfl
      | holding number slab => exact posting_lock ht rfl
  | releasePush number slab caller =>
      have hitems := hnew (.releaseCount number caller)
      simp only [PoolThread.items, add_coe_cons] at hold hitems
      have hposting := Posting.giveBack (l := s.ledger) number slab _ hold
      rw [← hitems] at hposting
      exact hposting
  | releaseCount number caller =>
      have hitems := hnew (.releaseUnlock caller)
      simp only [PoolThread.items, add_coe_cons] at hold hitems
      have hposting := Posting.settle (l := s.ledger) number _ hold
      rw [← hitems] at hposting
      exact hposting
  | releaseUnlock caller => exact posting_unlock ht rfl
  | released caller =>
      cases caller with
      | destructor => exact posting_goto ht rfl
      | assignment dst src other =>
          rcases (h.thread t _ ht).operands dst src other rfl with ⟨hdst, hsrc, hne⟩
          have hsrc' : (s.places.set dst (.object other))[src]? = some (.operand t) := by
            rw [List.getElem?_set_ne hne, hsrc]
          refine posting_hands ?_
          rw [holdings_fill LeasePlace.items hsrc' rfl, holdings_fill LeasePlace.items hdst rfl,
            holdings_clear PoolThread.items (b := .idle) ht rfl]
          simp only [LeasePlace.items, SlabLease.items, PoolThread.items, ReleaseCaller.items,
            add_coe_nil, add_assoc]
          rw [add_comm (holdings PoolThread.items _)]

theorem posting_step {s : PoolThreads} (h : s.Exclusive) (hsound : s.ledger.Sound)
    (i : PoolStep) : Posting s.ledger (s.step i).ledger := by
  cases i with
  | acquire t =>
      unfold step
      simp only
      split
      · rename_i ht
        exact posting_goto ht rfl
      · exact .none
  | move t src =>
      unfold step
      simp only
      split
      · rename_i lease ht hsrc
        refine posting_hands ?_
        rw [holdings_concat, holdings_clear LeasePlace.items (b := .object .null) hsrc rfl]
      · exact .none
  | assign t dst src =>
      unfold step
      simp only
      split
      · rename_i lease other ht hdst hsrc
        split
        · exact .none
        · rename_i hne
          have hsrc' : (s.places.set dst (.operand t))[src]? = some (.object other) := by
            rw [List.getElem?_set_ne hne, hsrc]
          refine posting_hands ?_
          rw [holdings_fill PoolThread.items ht rfl,
            holdings_clear LeasePlace.items (b := .operand t) hdst rfl,
            holdings_clear LeasePlace.items (b := .operand t) hsrc' rfl]
          simp only [LeasePlace.items, PoolThread.items, ReleaseCaller.items, ← Multiset.coe_add,
            add_left_comm, add_comm]
      · exact .none
  | destroy t place =>
      unfold step
      simp only
      split
      · rename_i lease ht hplace
        refine posting_hands ?_
        rw [holdings_fill PoolThread.items ht rfl,
          holdings_clear LeasePlace.items (b := .destroyed) hplace rfl]
        simp only [LeasePlace.items, PoolThread.items, ReleaseCaller.items, List.append_nil,
          add_left_comm, add_comm]
      · exact .none
  | next t allocates =>
      unfold step
      simp only
      split
      · rename_i ht
        exact posting_run h hsound ht allocates
      · exact .none

/-! ## Runs -/

structure Sound (s : PoolThreads) : Prop where
  ledger : s.ledger.Sound
  exclusive : s.Exclusive

theorem sound_step {s : PoolThreads} (h : s.Sound) (i : PoolStep) : (s.step i).Sound :=
  ⟨Ledger.sound_posting h.ledger (posting_step h.exclusive h.ledger i),
    exclusive_step h.exclusive h.ledger i⟩

theorem sound_exec {s : PoolThreads} (h : s.Sound) (is : List PoolStep) : (exec step s is).Sound := by
  induction is generalizing s with
  | nil => exact h
  | cons i is ih => exact ih (sound_step h i)

theorem exclusive_create {s : PoolThreads} (hthreads : ∀ statement ∈ s.threads, statement = .idle)
    (hmutex : s.mutex = none) : s.Exclusive := by
  refine ⟨?_, ?_⟩
  · intro t statement ht
    rw [hthreads statement (List.mem_of_getElem? ht)]
    refine ⟨?_, nofun, nofun, nofun⟩
    rw [hmutex]
    exact ⟨nofun, nofun⟩
  · intro t ht
    rw [hmutex] at ht
    cases ht

theorem sound_create {slabSize maxTotal threads : Nat} {s : PoolThreads}
    (h : create slabSize maxTotal threads = some s) (hfits : maxTotal + slabSize < 2 ^ 64) :
    s.Sound := by
  unfold create at h
  split at h
  · cases h
  · rename_i hoptions
    cases h
    have hnothing : holdings LeasePlace.items [] +
        holdings PoolThread.items (List.replicate threads .idle) = 0 := by
      refine Multiset.eq_zero_of_forall_notMem ?_
      intro i hi
      rcases Multiset.mem_add.mp hi with hi | hi
      · rcases mem_holdings.mp hi with ⟨place, hplace, -⟩
        cases hplace
      · rcases mem_holdings.mp hi with ⟨thread, hthread, hitem⟩
        rw [List.eq_of_mem_replicate hthread] at hitem
        cases hitem
    have hpositive : 0 < slabSize := by omega
    refine ⟨?_, exclusive_create (fun _ hthread => List.eq_of_mem_replicate hthread) rfl⟩
    unfold ledger
    rw [hnothing]
    exact Ledger.sound_empty hpositive hfits

theorem sound_run {slabSize maxTotal threads : Nat} {s₀ s : PoolThreads}
    (hcreate : create slabSize maxTotal threads = some s₀) (hfits : maxTotal + slabSize < 2 ^ 64)
    (hrun : Run step (fun _ _ => True) s₀ s) :
    s.Sound ∧ s.slabSizeBytes = slabSize ∧ s.maxTotalBytes = maxTotal := by
  have hstart : s₀.slabSizeBytes = slabSize ∧ s₀.maxTotalBytes = maxTotal := by
    unfold create at hcreate
    split at hcreate
    · cases hcreate
    · cases hcreate
      exact ⟨rfl, rfl⟩
  refine hrun.invariant
    (I := fun s => s.Sound ∧ s.slabSizeBytes = slabSize ∧ s.maxTotalBytes = maxTotal)
    ⟨sound_create hcreate hfits, hstart⟩ ?_
  rintro a i ⟨hsound, hsize, hmax⟩ -
  have hoptions := (posting_step hsound.exclusive hsound.ledger i).options
  exact ⟨sound_step hsound i, hoptions.1.trans hsize, hoptions.2.trans hmax⟩

/-! ## When the mutex is free -/

theorem plain_lease {lease : SlabLease} {i : Item} (h : i ∈ lease.items) :
    i.isLeaving = false ∧ i.isOwed = false := by
  cases lease with
  | null => cases h
  | holding number slab =>
      simp only [SlabLease.items, List.mem_cons, List.not_mem_nil, or_false] at h
      rcases h with rfl | rfl
      · exact ⟨rfl, rfl⟩
      · exact ⟨rfl, rfl⟩

theorem plain_place {place : LeasePlace} {i : Item} (h : i ∈ place.items) :
    i.isLeaving = false ∧ i.isOwed = false := by
  cases place with
  | object lease => exact plain_lease h
  | operand t => cases h
  | destroyed => cases h

theorem plain_caller {caller : ReleaseCaller} {i : Item} (h : i ∈ caller.items) :
    i.isLeaving = false ∧ i.isOwed = false := by
  cases caller with
  | destructor => cases h
  | assignment dst src other => exact plain_lease h

theorem plain_storage {storage : Option Slab} {i : Item} (h : i ∈ storageItems storage) :
    i.isLeaving = false ∧ i.isOwed = false := by
  cases storage with
  | none => cases h
  | some slab =>
      simp only [storageItems, List.mem_singleton] at h
      subst h
      exact ⟨rfl, rfl⟩

/-- Outside the critical sections nothing is half done. -/
theorem plain_thread {statement : PoolThread} {i : Item} (hout : statement.inLock = false)
    (h : i ∈ statement.items) : i.isLeaving = false ∧ i.isOwed = false := by
  cases statement with
  | acquireResize number storage =>
      rcases List.mem_cons.mp h with rfl | h
      · exact ⟨rfl, rfl⟩
      · exact plain_storage h
  | rollback number =>
      rw [List.mem_singleton.mp h]
      exact ⟨rfl, rfl⟩
  | release lease caller =>
      rcases List.mem_append.mp h with h | h
      · exact plain_lease h
      · exact plain_caller h
  | released caller => exact plain_caller h
  | idle => cases h
  | acquire => cases h
  | _ => cases hout

theorem settled {s : PoolThreads} (h : s.Sound) (hmutex : s.mutex = none) :
    tally Item.isLeaving s.ledger.items = 0 ∧ tally Item.isOwed s.ledger.items = 0 := by
  have hplain : ∀ i ∈ s.ledger.items, i.isLeaving = false ∧ i.isOwed = false := by
    intro i hi
    rcases Multiset.mem_add.mp hi with hi | hi
    · rcases mem_holdings.mp hi with ⟨place, -, hitem⟩
      exact plain_place hitem
    · rcases mem_holdings.mp hi with ⟨statement, hmem, hitem⟩
      rcases List.getElem?_of_mem hmem with ⟨t, ht⟩
      refine plain_thread ?_ hitem
      rw [← Bool.not_eq_true, (h.exclusive.thread t statement ht).holder, hmutex]
      nofun
  refine ⟨Multiset.countP_eq_zero.mpr ?_, Multiset.countP_eq_zero.mpr ?_⟩
  · intro i hi
    rw [(hplain i hi).1]
    decide
  · intro i hi
    rw [(hplain i hi).2]
    decide

theorem free_bound {s : PoolThreads} (h : s.Sound) :
    s.freeSlabs.length ≤ s.maxTotalBytes / s.slabSizeBytes := by
  have hpositive : 0 < s.slabSizeBytes := h.ledger.positive
  rw [Nat.le_div_iff_mul_le hpositive]
  refine Nat.le_trans ?_ h.ledger.cap
  rw [h.ledger.allocated, Nat.mul_comm]
  refine Nat.mul_le_mul_left _ ?_
  show s.freeSlabs.length ≤ _ + s.freeSlabs.length + _
  omega

/-- The books of a free pool. -/
theorem balanced {s : PoolThreads} (h : s.Sound) (hmutex : s.mutex = none) :
    s.leasedSlabs = tally Item.isLease s.ledger.items ∧
      s.allocatedBytes = s.slabSizeBytes * (s.leasedSlabs + s.freeSlabs.length) ∧
      s.allocatedBytes ≤ s.maxTotalBytes ∧
      s.leasedSlabs + s.freeSlabs.length ≤ s.maxTotalBytes / s.slabSizeBytes := by
  rcases settled h hmutex with ⟨hleaving, howed⟩
  have hallocated : s.allocatedBytes =
      s.slabSizeBytes * (tally Item.isLease s.ledger.items + s.freeSlabs.length) := by
    have hbooks := h.ledger.allocated
    rw [howed] at hbooks
    exact hbooks
  have hcap : s.allocatedBytes ≤ s.maxTotalBytes := h.ledger.cap
  have hnoWrap : s.maxTotalBytes + s.slabSizeBytes < 2 ^ 64 := h.ledger.noWrap
  have hbound : tally Item.isLease s.ledger.items + s.freeSlabs.length ≤
      s.maxTotalBytes / s.slabSizeBytes := by
    have hpositive : 0 < s.slabSizeBytes := h.ledger.positive
    rw [Nat.le_div_iff_mul_le hpositive, Nat.mul_comm]
    exact hallocated ▸ hcap
  have hsmall : s.maxTotalBytes / s.slabSizeBytes ≤ s.maxTotalBytes := Nat.div_le_self _ _
  have hleased : s.leasedSlabs = tally Item.isLease s.ledger.items := by
    have hbooks := h.ledger.leased
    rw [hleaving, Nat.mod_eq_of_lt (by omega)] at hbooks
    exact hbooks
  rw [hleased]
  exact ⟨rfl, hallocated, hcap, hbound⟩

/-! ## Calls without other activity -/

theorem idle_of_quiescent {s : PoolThreads} (hquiet : s.Quiescent) {t : Nat}
    (ht : t < s.threads.length) : s.threads[t]? = some .idle := by
  rw [List.getElem?_eq_getElem ht, hquiet _ (List.getElem_mem ht)]

theorem mutex_of_quiescent {s : PoolThreads} (h : s.Sound) (hquiet : s.Quiescent) :
    s.mutex = none := by
  cases hmutex : s.mutex with
  | none => rfl
  | some t =>
      have hidle := idle_of_quiescent hquiet (h.exclusive.owner t hmutex)
      have hin := (h.exclusive.thread t .idle hidle).holder.mpr hmutex
      cases hin

/-- Thread `t` inside the mutex at `statement`. -/
def inside (s : PoolThreads) (t : Nat) (statement : PoolThread) : PoolThreads :=
  { s with mutex := some t, threads := s.threads.set t statement }

theorem exec_next {s : PoolThreads} {t : Nat} {statement : PoolThread}
    (ht : s.threads[t]? = some statement) (k : Nat) :
    exec step s (List.replicate (k + 1) (.next t true)) =
      exec step (s.run t true statement) (List.replicate k (.next t true)) := by
  have hstep : s.step (.next t true) = s.run t true statement := by
    unfold step
    simp only [ht]
  show exec step (s.step (.next t true)) _ = _
  rw [hstep]

theorem exec_inside {s : PoolThreads} {t : Nat} (ht : t < s.threads.length)
    (statement : PoolThread) (k : Nat) :
    exec step (s.inside t statement) (List.replicate (k + 1) (.next t true)) =
      exec step ((s.inside t statement).run t true statement) (List.replicate k (.next t true)) :=
  exec_next (List.getElem?_set_self ht) k

/-- Up to the tests. -/
theorem acquireAlone_test {s : PoolThreads} (hmutex : s.mutex = none) {t : Nat}
    (ht : s.threads[t]? = some .idle) :
    s.acquireAlone t =
      exec step (s.inside t .acquireTest) (List.replicate 5 (.next t true)) := by
  have hlt := (List.getElem?_eq_some_iff.mp ht).1
  have hcall : s.step (.acquire t) = s.goto t .acquire := by
    unfold step
    simp only [ht]
  have hlock : (s.goto t .acquire).run t true .acquire = s.inside t .acquireTest := by
    unfold run lock goto inside
    simp only [hmutex, List.set_set]
  unfold acquireAlone
  rw [hcall, exec_next (List.getElem?_set_self hlt), hlock]

/-- From `++leased_slabs` on. -/
theorem acquireAlone_count {s : PoolThreads} {t : Nat} (ht : t < s.threads.length)
    (storage : Option Slab) :
    exec step (s.inside t (.acquireCount storage)) (List.replicate 3 (.next t true)) =
      { s with
        mutex := none
        leasedSlabs := (s.leasedSlabs + 1) % 2 ^ 64
        issued := s.issued + 1
        threads := s.threads.set t (.acquireResize s.issued storage) }.run t true
          (.acquireResize s.issued storage) := by
  let counted : PoolThreads :=
    { s with leasedSlabs := (s.leasedSlabs + 1) % 2 ^ 64, issued := s.issued + 1 }
  have hcount : (s.inside t (.acquireCount storage)).run t true (.acquireCount storage) =
      counted.inside t (.acquireUnlock s.issued storage) := by
    unfold run inside
    simp only [List.set_set, counted]
  have hunlock : (counted.inside t (.acquireUnlock s.issued storage)).run t true
      (.acquireUnlock s.issued storage) =
        { counted with
          mutex := none
          threads := s.threads.set t (.acquireResize s.issued storage) } := by
    unfold run unlock inside
    simp only [List.set_set, counted]
  rw [exec_inside ht, hcount, exec_inside (s := counted) ht, hunlock,
    exec_next (List.getElem?_set_self ht)]
  rfl

/-- `Acquire` takes the slab at the back of the free list. -/
theorem acquireAlone_pop {s : PoolThreads} (hmutex : s.mutex = none) {t : Nat}
    (ht : s.threads[t]? = some .idle) {free : List Slab} {slab : Slab}
    (hfree : s.freeSlabs = free ++ [slab]) (hsize : slab.size ≠ 0) :
    s.acquireAlone t =
      { s with
        freeSlabs := free
        leasedSlabs := (s.leasedSlabs + 1) % 2 ^ 64
        issued := s.issued + 1
        places := s.places ++ [.object (.holding s.issued slab)] } := by
  have hlt := (List.getElem?_eq_some_iff.mp ht).1
  let popped : PoolThreads := { s with freeSlabs := free }
  have htest : (s.inside t .acquireTest).run t true .acquireTest = s.inside t .acquirePop := by
    unfold run inside goto
    simp [hfree]
  have hpop : (s.inside t .acquirePop).run t true .acquirePop =
      popped.inside t (.acquireCount (some slab)) := by
    unfold run inside
    simp [hfree, popped]
  rw [acquireAlone_test hmutex ht, exec_inside hlt, htest, exec_inside hlt, hpop,
    acquireAlone_count (s := popped) hlt]
  unfold run construct
  simp [Option.filter, hsize, popped, hmutex, set_of_getElem? ht]

/-- With no free slab it allocates one that fits the cap. -/
theorem acquireAlone_grow {s : PoolThreads} (hmutex : s.mutex = none) {t : Nat}
    (ht : s.threads[t]? = some .idle) (hfree : s.freeSlabs = [])
    (hfits : (s.allocatedBytes + s.slabSizeBytes) % 2 ^ 64 ≤ s.maxTotalBytes) :
    s.acquireAlone t =
      { s with
        allocatedBytes := (s.allocatedBytes + s.slabSizeBytes) % 2 ^ 64
        leasedSlabs := (s.leasedSlabs + 1) % 2 ^ 64
        issued := s.issued + 1
        nextSlab := s.nextSlab + 1
        places := s.places ++
          [.object (.holding s.issued { id := s.nextSlab, size := s.slabSizeBytes })] } := by
  have hlt := (List.getElem?_eq_some_iff.mp ht).1
  let grown : PoolThreads :=
    { s with allocatedBytes := (s.allocatedBytes + s.slabSizeBytes) % 2 ^ 64 }
  have htest : (s.inside t .acquireTest).run t true .acquireTest = s.inside t .acquireGrow := by
    unfold run inside goto
    simp only [hfree, hfits, ne_eq, not_true_eq_false, if_false, if_true, List.set_set]
  have hgrow : (s.inside t .acquireGrow).run t true .acquireGrow =
      grown.inside t (.acquireCount none) := by
    unfold run inside
    simp only [List.set_set, grown]
  rw [acquireAlone_test hmutex ht, exec_inside hlt, htest, exec_inside hlt, hgrow,
    acquireAlone_count (s := grown) hlt]
  unfold run construct
  simp only [Option.filter, if_true, grown, List.set_set, set_of_getElem? ht, hmutex]

/-- Otherwise it returns without a lease. -/
theorem acquireAlone_refused {s : PoolThreads} (hmutex : s.mutex = none) {t : Nat}
    (ht : s.threads[t]? = some .idle) (hfree : s.freeSlabs = [])
    (hfull : ¬ (s.allocatedBytes + s.slabSizeBytes) % 2 ^ 64 ≤ s.maxTotalBytes) :
    s.acquireAlone t = s := by
  have hlt := (List.getElem?_eq_some_iff.mp ht).1
  have htest : (s.inside t .acquireTest).run t true .acquireTest = s.inside t .acquireRefused := by
    unfold run inside goto
    simp only [hfree, hfull, ne_eq, not_true_eq_false, if_false, List.set_set]
  have hrefused : (s.inside t .acquireRefused).run t true .acquireRefused = s := by
    unfold run unlock inside
    simp only [List.set_set, set_of_getElem? ht, ← hmutex]
  have hidle : s.run t true .idle = s := rfl
  rw [acquireAlone_test hmutex ht, exec_inside hlt, htest, exec_inside hlt, hrefused,
    exec_next ht, hidle, exec_next ht, hidle, exec_next ht, hidle]
  rfl

/-- The slabs `Acquire` could still hand out: what `SlabSupply` keeps of the pool. -/
def supply (s : PoolThreads) (calls : Nat) : SlabSupply :=
  { available := s.maxTotalBytes / s.slabSizeBytes - s.leasedSlabs, calls }

/-- A call that takes a slab uses up one. -/
theorem supply_taken {s : PoolThreads} (h : s.Sound) (s' : PoolThreads)
    (hroom : s.leasedSlabs + 1 ≤ s.maxTotalBytes / s.slabSizeBytes)
    (hmax : s'.maxTotalBytes = s.maxTotalBytes) (hsize : s'.slabSizeBytes = s.slabSizeBytes)
    (hleased : s'.leasedSlabs = (s.leasedSlabs + 1) % 2 ^ 64)
    (hplaces : s'.places.length = s.places.length + 1) (calls : Nat) :
    SlabSupply.acquire (fun _ left => left) (s.supply calls) =
      (decide (s'.places.length = s.places.length + 1), s'.supply (calls + 1)) := by
  have hnoWrap : s.maxTotalBytes + s.slabSizeBytes < 2 ^ 64 := h.ledger.noWrap
  have hsmall : s.maxTotalBytes / s.slabSizeBytes ≤ s.maxTotalBytes := Nat.div_le_self _ _
  rw [Nat.mod_eq_of_lt (by omega)] at hleased
  unfold SlabSupply.acquire supply
  simp only [hmax, hsize, hleased, hplaces, decide_true]
  rw [if_pos (by omega), Nat.sub_sub]

/-- One call of the pool is one call of the supply, with the rest of the process at rest. -/
theorem acquireAlone_supply {s : PoolThreads} (h : s.Sound) (hquiet : s.Quiescent) {t : Nat}
    (ht : t < s.threads.length) (calls : Nat) :
    SlabSupply.acquire (fun _ left => left) (s.supply calls) =
        (s.acquires t, (s.acquireAlone t).supply (calls + 1)) ∧
      (s.acquireAlone t).threads = s.threads := by
  have hmutex := mutex_of_quiescent h hquiet
  have hidle := idle_of_quiescent hquiet ht
  have hpositive : 0 < s.slabSizeBytes := h.ledger.positive
  have hnoWrap : s.maxTotalBytes + s.slabSizeBytes < 2 ^ 64 := h.ledger.noWrap
  rcases balanced h hmutex with ⟨-, hallocated, hcap, hbound⟩
  have hsum : (s.allocatedBytes + s.slabSizeBytes) % 2 ^ 64 =
      s.allocatedBytes + s.slabSizeBytes := Nat.mod_eq_of_lt (by omega)
  unfold acquires
  rcases List.eq_nil_or_concat' s.freeSlabs with hfree | ⟨free, slab, hfree⟩
  · rw [hfree, List.length_nil, Nat.add_zero] at hallocated
    -- the cap admits another slab just when fewer than `M / S` are leased
    have hroom : s.allocatedBytes + s.slabSizeBytes ≤ s.maxTotalBytes ↔
        s.leasedSlabs + 1 ≤ s.maxTotalBytes / s.slabSizeBytes := by
      rw [Nat.le_div_iff_mul_le hpositive, hallocated, Nat.add_mul, Nat.one_mul,
        Nat.mul_comm s.leasedSlabs]
    by_cases hfits : s.allocatedBytes + s.slabSizeBytes ≤ s.maxTotalBytes
    · have hcall := acquireAlone_grow hmutex hidle hfree (hsum.symm ▸ hfits)
      refine ⟨supply_taken h _ (hroom.mp hfits) ?_ ?_ ?_ ?_ calls, ?_⟩
      · rw [hcall]
      · rw [hcall]
      · rw [hcall]
      · rw [hcall, List.length_append, List.length_singleton]
      · rw [hcall]
    · rw [acquireAlone_refused hmutex hidle hfree (hsum.symm ▸ hfits)]
      refine ⟨?_, rfl⟩
      have hnone : s.maxTotalBytes / s.slabSizeBytes - s.leasedSlabs = 0 := by
        rw [hroom] at hfits
        omega
      unfold SlabSupply.acquire supply
      simp [hnone]
  · have hback : slab ∈ s.freeSlabs := hfree ▸ List.mem_append_right _ List.mem_cons_self
    have hsize : slab.size = s.slabSizeBytes := h.ledger.freeSize slab hback
    rw [hfree, List.length_append, List.length_singleton] at hbound
    have hcall := acquireAlone_pop hmutex hidle hfree (by omega)
    refine ⟨supply_taken h _ (by omega) ?_ ?_ ?_ ?_ calls, ?_⟩
    · rw [hcall]
    · rw [hcall]
    · rw [hcall]
    · rw [hcall, List.length_append, List.length_singleton]
    · rw [hcall]

theorem acquiresAll_iff {s : PoolThreads} (h : s.Sound) (hquiet : s.Quiescent) {t : Nat}
    (ht : t < s.threads.length) (slabs : Nat) :
    acquiresAll t slabs s = true ↔ slabs ≤ s.maxTotalBytes / s.slabSizeBytes - s.leasedSlabs := by
  induction slabs generalizing s with
  | zero => exact ⟨fun _ => Nat.zero_le _, fun _ => rfl⟩
  | succ slabs ih =>
      rcases acquireAlone_supply h hquiet ht 0 with ⟨hcall, hthreads⟩
      have hnext : (s.acquireAlone t).Sound := sound_exec (sound_step h _) _
      have hquiet' : (s.acquireAlone t).Quiescent := by
        intro thread hmem
        exact hquiet thread (hthreads ▸ hmem)
      have hrest := ih hnext hquiet' (hthreads ▸ ht)
      have hfst := congrArg Prod.fst hcall
      have hsnd := congrArg (fun result => result.2.available) hcall
      unfold acquiresAll
      rw [Bool.and_eq_true, hrest]
      unfold SlabSupply.acquire supply at hfst hsnd
      simp only at hfst hsnd
      split at hfst
      · rename_i hroom
        rw [if_pos hroom] at hsnd
        simp only at hfst hsnd
        rw [← hfst, ← hsnd]
        simp only [true_and]
        omega
      · rename_i hnone
        simp only at hfst
        rw [← hfst]
        simp only [Bool.false_eq_true, false_and, false_iff]
        omega

theorem canLease_iff {s : PoolThreads} (h : s.Sound) (hmutex : s.mutex = none) (slabs : Nat) :
    s.canLease slabs = true ↔ slabs ≤ s.maxTotalBytes / s.slabSizeBytes - s.leasedSlabs := by
  rcases balanced h hmutex with ⟨-, hallocated, hcap, hbound⟩
  have hnoWrap : s.maxTotalBytes + s.slabSizeBytes < 2 ^ 64 := h.ledger.noWrap
  have hsmall : s.maxTotalBytes / s.slabSizeBytes ≤ s.maxTotalBytes := Nat.div_le_self _ _
  have hgrowable : sizeSub s.maxTotalBytes s.allocatedBytes / s.slabSizeBytes =
      s.maxTotalBytes / s.slabSizeBytes - (s.leasedSlabs + s.freeSlabs.length) := by
    rw [sizeSub, if_pos hcap, hallocated, Nat.sub_mul_div]
  unfold canLease
  simp only [hgrowable, decide_eq_true_eq, ge_iff_le]
  rw [Nat.mod_eq_of_lt (by omega)]
  omega

/-! ## Every interleaving -/

/-- Everything held by lease objects and threads. -/
def inventory (s : PoolThreads) : List Item :=
  s.places.flatMap LeasePlace.items ++ s.threads.flatMap PoolThread.items

def heldSlabs (s : PoolThreads) : List Slab :=
  s.inventory.filterMap fun
    | .slab slab => some slab
    | _ => none

/-- The leases that are counted, held by an object or by a thread on their way in or out. -/
def openLeases (s : PoolThreads) : List Nat :=
  s.inventory.filterMap fun
    | .lease number => some number
    | .leaving number => some number
    | _ => none

theorem ledger_items (s : PoolThreads) : s.ledger.items = (s.inventory : Multiset Item) :=
  Multiset.coe_add _ _

theorem count_heldSlabs (s : PoolThreads) (id : Nat) :
    (s.heldSlabs.map Slab.id).count id = tally (Item.isSlab id) s.ledger.items := by
  rw [ledger_items, heldSlabs, tally, Multiset.coe_countP]
  generalize s.inventory = items
  induction items with
  | nil => rfl
  | cons i items ih => cases i <;> simp [Item.isSlab, List.count_cons, List.countP_cons, ih]

theorem count_openLeases (s : PoolThreads) (number : Nat) :
    s.openLeases.count number = tally (Item.isLeaseOf number) s.ledger.items := by
  rw [ledger_items, openLeases, tally, Multiset.coe_countP]
  generalize s.inventory = items
  induction items with
  | nil => rfl
  | cons i items ih => cases i <;> simp [Item.isLeaseOf, List.count_cons, List.countP_cons, ih]

theorem mem_heldSlabs {s : PoolThreads} {slab : Slab} :
    slab ∈ s.heldSlabs ↔ .slab slab ∈ s.inventory := by
  unfold heldSlabs
  rw [List.mem_filterMap]
  constructor
  · rintro ⟨i, hi, heq⟩
    cases i with
    | slab held =>
        cases heq
        exact hi
    | _ => cases heq
  · intro hmem
    exact ⟨.slab slab, hmem, rfl⟩

theorem length_openLeases (s : PoolThreads) :
    s.openLeases.length = tally Item.isLease s.ledger.items + tally Item.isLeaving s.ledger.items := by
  rw [ledger_items, openLeases, tally, tally, Multiset.coe_countP, Multiset.coe_countP]
  generalize s.inventory = items
  induction items with
  | nil => rfl
  | cons i items ih =>
      cases i <;> simp [Item.isLease, Item.isLeaving, ih] <;> omega

theorem held_distinct {s : PoolThreads} (h : s.Sound) :
    ((s.heldSlabs ++ s.freeSlabs).map Slab.id).Nodup := by
  rw [List.nodup_iff_count_le_one]
  intro id
  have hcopies := h.ledger.distinct id
  rw [Ledger.copies, ← count_heldSlabs] at hcopies
  rw [List.map_append, List.count_append, Nat.add_comm]
  refine Nat.le_trans hcopies ?_
  split
  · exact Nat.le_refl _
  · exact Nat.zero_le _

theorem leases_once {s : PoolThreads} (h : s.Sound) :
    (s.returned ++ s.rolledBack ++ s.openLeases).Perm (List.range s.issued) := by
  rw [List.perm_iff_count]
  intro number
  have honce := h.ledger.once number
  rw [Ledger.entries, ← count_openLeases] at honce
  rw [List.count_append, List.count_append]
  refine honce.trans ?_
  show (if number < s.issued then 1 else 0) = _
  split
  · rename_i hlt
    exact (List.count_eq_one_of_mem List.nodup_range (List.mem_range.mpr hlt)).symm
  · rename_i hge
    exact (List.count_eq_zero_of_not_mem fun hmem => hge (List.mem_range.mp hmem)).symm

/-- In every interleaving of any number of threads: whenever the mutex is free the books balance and
keep to the cap; the free list stays within what was reserved for it; every lease holds a slab of the
size asked for; no slab is in two places; every lease counted is open, rolled back or returned, and
only one of these, once; and between calls `CanLease` tells how many calls of `Acquire` would succeed. -/
theorem pool_accounts {slabSize maxTotal threads : Nat} {s₀ s : PoolThreads}
    (hcreate : create slabSize maxTotal threads = some s₀) (hfits : maxTotal + slabSize < 2 ^ 64)
    (hrun : Run step (fun _ _ => True) s₀ s) :
    (s.mutex = none →
      s.allocatedBytes = slabSize * (s.leasedSlabs + s.freeSlabs.length) ∧
        s.allocatedBytes ≤ maxTotal ∧ s.leasedSlabs = s.openLeases.length) ∧
      s.freeSlabs.length ≤ maxTotal / slabSize ∧
      (∀ slab ∈ s.heldSlabs, slab.size = slabSize) ∧
      (∀ number slab, .object (.holding number slab) ∈ s.places → slab ∈ s.heldSlabs) ∧
      ((s.heldSlabs ++ s.freeSlabs).map Slab.id).Nodup ∧
      (s.returned ++ s.rolledBack ++ s.openLeases).Perm (List.range s.issued) ∧
      (s.Quiescent → ∀ t < s.threads.length, ∀ slabs,
        s.canLease slabs = true ↔ acquiresAll t slabs s = true) := by
  rcases sound_run hcreate hfits hrun with ⟨hsound, rfl, rfl⟩
  refine ⟨?_, free_bound hsound, ?_, ?_, held_distinct hsound, leases_once hsound, ?_⟩
  · intro hmutex
    rcases balanced hsound hmutex with ⟨hleased, hallocated, hcap, -⟩
    refine ⟨hallocated, hcap, ?_⟩
    rw [length_openLeases, (settled hsound hmutex).1, hleased, Nat.add_zero]
  · intro slab hslab
    refine hsound.ledger.heldSize slab ?_
    rw [ledger_items, Multiset.mem_coe]
    exact mem_heldSlabs.mp hslab
  · intro number slab hplace
    refine mem_heldSlabs.mpr (List.mem_append_left _ (List.mem_flatMap.mpr ⟨_, hplace, ?_⟩))
    exact List.mem_cons_of_mem _ List.mem_cons_self
  · intro hquiet t ht slabs
    rw [canLease_iff hsound (mutex_of_quiescent hsound hquiet), acquiresAll_iff hsound hquiet ht]

/-- Two threads over a pool for two slabs of four bytes. -/
def smallPool : PoolThreads :=
  { slabSizeBytes := 4
    maxTotalBytes := 10
    mutex := none
    freeSlabs := []
    allocatedBytes := 0
    leasedSlabs := 0
    places := []
    threads := [.idle, .idle]
    nextSlab := 0
    issued := 0
    returned := []
    rolledBack := [] }

/-- One thread moves its lease on while the other has a slab reserved; the other's allocation fails
and is rolled back; then the first lease is destroyed. -/
def contended : List PoolStep :=
  .acquire 0 :: List.replicate 6 (.next 0 true) ++
    .acquire 1 :: List.replicate 5 (.next 1 false) ++
    [.move 0 0] ++ List.replicate 5 (.next 1 false) ++
    .destroy 0 1 :: List.replicate 5 (.next 0 true)

theorem pool_accounts_contended :
    (exec step smallPool contended).returned = [0] ∧
      (exec step smallPool contended).rolledBack = [1] ∧
      (exec step smallPool contended).allocatedBytes = 4 ∧
      ((exec step smallPool contended).heldSlabs ++ (exec step smallPool contended).freeSlabs).map
        Slab.id = [0] ∧
      acquiresAll 1 2 (exec step smallPool contended) = true ∧
      acquiresAll 1 3 (exec step smallPool contended) ≠ true :=
  have hcreate : create 4 10 2 = some smallPool := by decide +kernel
  have hrun : Run step (fun _ _ => True) smallPool (exec step smallPool contended) :=
    .of_exec (by decide +kernel)
  have h := pool_accounts hcreate (by decide) hrun
  have hquiet : (exec step smallPool contended).Quiescent := by
    unfold Quiescent
    decide +kernel
  have hlease := h.2.2.2.2.2.2 hquiet 1 (by decide +kernel)
  ⟨by decide +kernel, by decide +kernel, (h.1 (by decide +kernel)).1.trans (by decide +kernel),
    by decide +kernel, (hlease 2).mp (by decide +kernel),
    fun hthree => absurd ((hlease 3).mpr hthree) (by decide +kernel)⟩

end PoolThreads

end Buffers
end AudioFork
