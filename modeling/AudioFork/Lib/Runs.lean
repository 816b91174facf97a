import Mathlib.Logic.Basic

/-!
# Runs — guarded executions of a deterministic step function

A system is a step function `step : σ → ι → σ` together with a guard that says in which states
an input may be taken.  `Run step guard s t` holds when `t` is reached from `s` by finitely many
guarded steps.  The module provides:

* the invariant rule `Run.invariant` and the monotonicity of runs in the guard;
* `exec` and `Enabled`, the executable counterpart used to exhibit concrete runs;
* `Run.simulates`, the transport of a run along a view, and `exec_view`, that of an execution along
  a view that some inputs do not touch.
-/

namespace AudioFork
namespace Lib

universe u v w x

variable {σ : Type u} {ι : Type v}

/-- `Run step guard s t`: some finite sequence of guarded steps leads from `s` to `t`. -/
inductive Run (step : σ → ι → σ) (guard : σ → ι → Prop) (s : σ) : σ → Prop where
  | refl : Run step guard s s
  | tail {t : σ} (i : ι) : Run step guard s t → guard t i → Run step guard s (step t i)

namespace Run

variable {step : σ → ι → σ} {guard guard' : σ → ι → Prop} {s t r : σ}

/-- What holds at the start and survives every guarded step holds in every state reached. -/
theorem invariant {I : σ → Prop} (h : Run step guard s t) (hs : I s)
    (hstep : ∀ a i, I a → guard a i → I (step a i)) : I t := by
  induction h with
  | refl => exact hs
  | tail i _ hguard ih => exact hstep _ i ih hguard

/-- An invariant may be carried together with another one that is already known. -/
theorem invariant_with {I J : σ → Prop} (h : Run step guard s t)
    (hJ : ∀ a, Run step guard s a → J a) (hs : I s)
    (hstep : ∀ a i, J a → I a → guard a i → I (step a i)) : I t := by
  induction h with
  | refl => exact hs
  | tail i hrun hguard ih => exact hstep _ i (hJ _ hrun) ih hguard

theorem mono (himp : ∀ a i, guard a i → guard' a i) (h : Run step guard s t) :
    Run step guard' s t := by
  induction h with
  | refl => exact .refl
  | tail i _ hguard ih => exact .tail i ih (himp _ i hguard)

theorem trans (h₁ : Run step guard s t) (h₂ : Run step guard t r) : Run step guard s r := by
  induction h₂ with
  | refl => exact h₁
  | tail i _ hguard ih => exact .tail i ih hguard

/-- A run seen through a view under which every step is a step of another system. -/
theorem simulates {τ : Type w} {κ : Type x} {astep : τ → κ → τ} {aguard : τ → κ → Prop}
    (view : σ → τ) (label : σ → ι → κ)
    (hstep : ∀ a i, view (step a i) = astep (view a) (label a i))
    (hguard : ∀ a i, guard a i → aguard (view a) (label a i)) (h : Run step guard s t) :
    Run astep aguard (view s) (view t) := by
  induction h with
  | refl => exact .refl
  | tail i _ hi ih =>
      rw [hstep]
      exact .tail _ ih (hguard _ i hi)

end Run

/-! ## Concrete runs -/

/-- Execute a list of inputs. -/
def exec (step : σ → ι → σ) (s : σ) (is : List ι) : σ :=
  is.foldl step s

/-- Every input of the list is enabled in the state in which it is taken. -/
def Enabled (step : σ → ι → σ) (guard : σ → ι → Prop) : σ → List ι → Prop
  | _, [] => True
  | s, i :: is => guard s i ∧ Enabled step guard (step s i) is

instance Enabled.decidable (step : σ → ι → σ) (guard : σ → ι → Prop)
    [hdec : ∀ s i, Decidable (guard s i)] :
    ∀ (s : σ) (is : List ι), Decidable (Enabled step guard s is)
  | _, [] => .isTrue trivial
  | s, i :: is =>
      have := Enabled.decidable step guard (step s i) is
      inferInstanceAs (Decidable (_ ∧ _))

theorem Run.of_exec {step : σ → ι → σ} {guard : σ → ι → Prop} {s : σ} {is : List ι}
    (h : Enabled step guard s is) : Run step guard s (exec step s is) := by
  induction is generalizing s with
  | nil => exact .refl
  | cons i is ih =>
      have hfirst : Run step guard s (step s i) := .tail i .refl h.1
      exact hfirst.trans (ih h.2)

theorem exec_append (step : σ → ι → σ) (s : σ) (is js : List ι) :
    exec step s (is ++ js) = exec step (exec step s is) js :=
  List.foldl_append

/-- A view that only the inputs in `sees` change goes through the steps these alone make. -/
theorem exec_view {τ : Type w} {step : σ → ι → σ} {astep : τ → ι → τ} (view : σ → τ)
    (sees : ι → Bool)
    (hstep : ∀ a i, view (step a i) = if sees i then astep (view a) i else view a)
    (s : σ) (is : List ι) :
    view (exec step s is) = exec astep (view s) (is.filter sees) := by
  unfold exec
  induction is generalizing s with
  | nil => rfl
  | cons i is ih =>
      rw [List.foldl_cons, ih, hstep, List.filter_cons]
      cases sees i with
      | true => rfl
      | false => rfl

end Lib
end AudioFork
