import Mathlib.Logic.Function.Basic
import AudioFork.Text

/-!
# Registry — which forks a call has

`ModuleState::registry` maps the uuid of a call to the forks it carries, in the order they were
started.  A fork is named by its number, as a `shared_ptr` names it by its address.  The vector of a
call is dropped with its last fork, so that no empty vector is ever stored.
-/

namespace AudioFork
namespace Module

structure Registry where
  entry : Text → Option (List Nat)
  filled : ∀ uuid forks, entry uuid = some forks → forks ≠ []

namespace Registry

def empty : Registry :=
  { entry := fun _ => none
    filled := by
      intro uuid forks h
      cases h }

/-- `ForksFor`. -/
def forksFor (r : Registry) (uuid : Text) : List Nat := (r.entry uuid).getD []

/-- The limit check of `StartFork`; a call without an entry passes it. -/
def full (r : Registry) (maxForksPerCall : Nat) (uuid : Text) : Bool :=
  match r.entry uuid with
  | none => false
  | some forks => decide (maxForksPerCall ≤ forks.length)

/-- `registry[uuid].push_back(fork)`. -/
def add (r : Registry) (uuid : Text) (fork : Nat) : Registry :=
  { entry := Function.update r.entry uuid (some (r.forksFor uuid ++ [fork]))
    filled := by
      intro other forks h
      by_cases heq : other = uuid
      · subst heq
        rw [Function.update_self] at h
        cases h
        simp
      · rw [Function.update_of_ne heq] at h
        exact r.filled other forks h }

/-- What `ForgetFork` leaves of the vector of a call. -/
def remaining (r : Registry) (uuid : Text) (fork : Nat) : List Nat :=
  (r.forksFor uuid).filter fun other => other ≠ fork

/-- The locked block of `ForgetFork`. -/
def forget (r : Registry) (uuid : Text) (fork : Nat) : Registry :=
  match r.entry uuid with
  | none => r
  | some _ =>
      { entry := Function.update r.entry uuid
          (if (r.remaining uuid fork).isEmpty then none else some (r.remaining uuid fork))
        filled := by
          intro other forks h
          by_cases heq : other = uuid
          · subst heq
            rw [Function.update_self] at h
            split at h
            · cases h
            · rename_i hrest
              cases h
              simpa using hrest
          · rw [Function.update_of_ne heq] at h
            exact r.filled other forks h }

variable (r : Registry)

theorem forksFor_add_self (uuid : Text) (fork : Nat) :
    (r.add uuid fork).forksFor uuid = r.forksFor uuid ++ [fork] := by
  show (Function.update r.entry uuid _ uuid).getD [] = _
  rw [Function.update_self]
  rfl

theorem forksFor_add_other {uuid other : Text} (h : other ≠ uuid) (fork : Nat) :
    (r.add uuid fork).forksFor other = r.forksFor other := by
  show (Function.update r.entry uuid _ other).getD [] = _
  rw [Function.update_of_ne h]
  rfl

theorem forksFor_forget_self (uuid : Text) (fork : Nat) :
    (r.forget uuid fork).forksFor uuid = r.remaining uuid fork := by
  unfold forget
  split
  · rename_i hnone
    have hforks : r.forksFor uuid = [] := by simp [forksFor, hnone]
    simp [remaining, hforks]
  · show (Function.update r.entry uuid _ uuid).getD [] = _
    rw [Function.update_self]
    split
    · rename_i hempty
      exact (List.isEmpty_iff.mp hempty).symm
    · rfl

theorem forksFor_forget_other {uuid other : Text} (h : other ≠ uuid) (fork : Nat) :
    (r.forget uuid fork).forksFor other = r.forksFor other := by
  unfold forget
  split
  · rfl
  · show (Function.update r.entry uuid _ other).getD [] = _
    rw [Function.update_of_ne h]
    rfl

/-- Forgetting only takes away. -/
theorem forksFor_forget_sublist (uuid other : Text) (fork : Nat) :
    ((r.forget uuid fork).forksFor other).Sublist (r.forksFor other) := by
  by_cases heq : other = uuid
  · subst heq
    rw [forksFor_forget_self]
    exact List.filter_sublist
  · exact (forksFor_forget_other r heq fork).symm ▸ List.Sublist.refl _

theorem mem_forksFor_add {uuid other : Text} {fork f : Nat}
    (h : f ∈ (r.add uuid fork).forksFor other) :
    f ∈ r.forksFor other ∨ (other = uuid ∧ f = fork) := by
  by_cases heq : other = uuid
  · subst heq
    rw [forksFor_add_self, List.mem_append, List.mem_singleton] at h
    exact h.imp_right fun hf => ⟨rfl, hf⟩
  · rw [forksFor_add_other r heq] at h
    exact Or.inl h

/-- What was forgotten is gone. -/
theorem not_mem_forget_self (uuid : Text) (fork : Nat) :
    fork ∉ (r.forget uuid fork).forksFor uuid := by
  rw [forksFor_forget_self]
  simp [remaining]

end Registry

end Module
end AudioFork
