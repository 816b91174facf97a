import Mathlib.Data.List.Nodup

/-!
# Linearization — concurrent calls against a sequential specification

A history lists the calls of an object and their answers in the order in which they happened.  An
order of the calls linearizes it when the specification, run through the calls in that order, gives
the answers of the history, and a call that was answered before another began comes first.  A call
may be in the order before its answer is in the history: it has taken effect.

`Linearizes` is built up step by step: a call begins (`call`), takes effect (`effect`) and is answered
(`ret`).
-/

namespace AudioFork
namespace Lib

universe u

variable {κ ω ρ : Type u} {σ : Type u}

inductive CallEvent (κ ω ρ : Type u)
  | call (id : κ) (op : ω)
  | ret (id : κ) (result : ρ)
  deriving DecidableEq, Repr

def CallEvent.id : CallEvent κ ω ρ → κ
  | .call id _ => id
  | .ret id _ => id

/-- A call that has taken effect. -/
structure Served (κ ω ρ : Type u) where
  id : κ
  op : ω
  result : ρ
  deriving DecidableEq, Repr

/-- `x` comes before `y`. -/
def Before {α : Type u} (l : List α) (x y : α) : Prop := ∃ p q, l = p ++ q ∧ x ∈ p ∧ y ∈ q

/-- The results are those of the specification. -/
def Legal (spec : σ → ω → σ × ρ) : σ → List (Served κ ω ρ) → Prop
  | _, [] => True
  | s, e :: order => e.result = (spec s e.op).2 ∧ Legal spec (spec s e.op).1 order

/-- Where the specification stands after the calls. -/
def finalState (spec : σ → ω → σ × ρ) (s : σ) (order : List (Served κ ω ρ)) : σ :=
  order.foldl (fun s e => (spec s e.op).1) s

structure Linearizes (spec : σ → ω → σ × ρ) (start : σ) (history : List (CallEvent κ ω ρ))
    (order : List (Served κ ω ρ)) : Prop where
  legal : Legal spec start order
  once : (order.map Served.id).Nodup
  called : ∀ e ∈ order, .call e.id e.op ∈ history
  answered : ∀ id result, .ret id result ∈ history → ∃ op, ⟨id, op, result⟩ ∈ order
  realTime : ∀ x ∈ order, ∀ y ∈ order, ∀ result op,
    Before history (.ret x.id result) (.call y.id op) → Before order x y

/-! ## Lists -/

theorem mem_concat_or {α : Type u} {l : List α} {x y : α} (h : y ∈ l ++ [x]) : y ∈ l ∨ y = x := by
  rcases List.mem_append.mp h with h | h
  · exact .inl h
  · exact .inr (List.mem_singleton.mp h)

theorem Before.left_mem {α : Type u} {l : List α} {x y : α} (h : Before l x y) : x ∈ l := by
  rcases h with ⟨p, q, rfl, hx, -⟩
  exact List.mem_append_left _ hx

theorem Before.append {α : Type u} {l : List α} {x y : α} (h : Before l x y) (more : List α) :
    Before (l ++ more) x y := by
  rcases h with ⟨p, q, rfl, hx, hy⟩
  exact ⟨p, q ++ more, List.append_assoc _ _ _, hx, List.mem_append_left _ hy⟩

/-- What comes before something in a list one longer does so already, or the second is the new one. -/
theorem Before.of_concat {α : Type u} {l : List α} {x y z : α} (h : Before (l ++ [z]) x y) :
    Before l x y ∨ y = z := by
  rcases h with ⟨p, q, hpq, hx, hy⟩
  rcases List.eq_nil_or_concat' q with rfl | ⟨q', w, rfl⟩
  · cases hy
  · rw [← List.append_assoc] at hpq
    rcases List.append_inj' hpq rfl with ⟨rfl, hz⟩
    cases hz
    rcases mem_concat_or hy with hy | hy
    · exact .inl ⟨p, q', rfl, hx, hy⟩
    · exact .inr hy

theorem Legal.concat {spec : σ → ω → σ × ρ} {s : σ} {order : List (Served κ ω ρ)}
    (h : Legal spec s order) {e : Served κ ω ρ}
    (he : e.result = (spec (finalState spec s order) e.op).2) : Legal spec s (order ++ [e]) := by
  induction order generalizing s with
  | nil => exact ⟨he, trivial⟩
  | cons first order ih => exact ⟨h.1, ih h.2 he⟩

theorem finalState_concat (spec : σ → ω → σ × ρ) (s : σ) (order : List (Served κ ω ρ))
    (e : Served κ ω ρ) :
    finalState spec s (order ++ [e]) = (spec (finalState spec s order) e.op).1 := by
  unfold finalState
  rw [List.foldl_append]
  rfl

/-! ## One event after another -/

namespace Linearizes

variable {spec : σ → ω → σ × ρ} {start : σ} {history : List (CallEvent κ ω ρ)}
  {order : List (Served κ ω ρ)}

theorem nothing : Linearizes spec start ([] : List (CallEvent κ ω ρ)) [] := by
  refine ⟨trivial, List.nodup_nil, ?_, ?_, ?_⟩
  · intro e he
    cases he
  · intro id result h
    cases h
  · intro x hx
    cases hx

/-- A call begins. -/
theorem call (h : Linearizes spec start history order) {id : κ} (op : ω)
    (hfresh : ∀ e ∈ order, e.id ≠ id) :
    Linearizes spec start (history ++ [.call id op]) order := by
  refine ⟨h.legal, h.once, ?_, ?_, ?_⟩
  · intro e he
    exact List.mem_append_left _ (h.called e he)
  · intro id' result hmem
    rcases mem_concat_or hmem with hmem | heq
    · exact h.answered id' result hmem
    · cases heq
  · intro x hx y hy result op' hbefore
    rcases hbefore.of_concat with hbefore | heq
    · exact h.realTime x hx y hy result op' hbefore
    · cases heq
      exact absurd rfl (hfresh y hy)

/-- A call takes effect. -/
theorem effect (h : Linearizes spec start history order) {e : Served κ ω ρ}
    (hcalled : .call e.id e.op ∈ history) (hfresh : ∀ x ∈ order, x.id ≠ e.id)
    (hresult : e.result = (spec (finalState spec start order) e.op).2) :
    Linearizes spec start history (order ++ [e]) := by
  refine ⟨h.legal.concat hresult, ?_, ?_, ?_, ?_⟩
  · rw [List.map_append, List.nodup_append]
    refine ⟨h.once, List.nodup_singleton _, ?_⟩
    rintro id hid id' hid' rfl
    rcases List.mem_map.mp hid with ⟨x, hx, rfl⟩
    exact hfresh x hx (List.mem_singleton.mp hid')
  · intro x hx
    rcases mem_concat_or hx with hx | rfl
    · exact h.called x hx
    · exact hcalled
  · intro id result hmem
    rcases h.answered id result hmem with ⟨op, hop⟩
    exact ⟨op, List.mem_append_left _ hop⟩
  · intro x hx y hy result op hbefore
    rcases mem_concat_or hx with hx | rfl
    · rcases List.mem_append.mp hy with hy | hy
      · exact (h.realTime x hx y hy result op hbefore).append _
      · exact ⟨order, [e], rfl, hx, hy⟩
    · -- a call that has been answered has taken effect before
      rcases h.answered _ _ hbefore.left_mem with ⟨op', hmem⟩
      exact absurd rfl (hfresh ⟨x.id, op', result⟩ hmem)

/-- A call that has taken effect is answered. -/
theorem ret (h : Linearizes spec start history order) {e : Served κ ω ρ} (he : e ∈ order) :
    Linearizes spec start (history ++ [.ret e.id e.result]) order := by
  refine ⟨h.legal, h.once, ?_, ?_, ?_⟩
  · intro x hx
    exact List.mem_append_left _ (h.called x hx)
  · intro id result hmem
    rcases mem_concat_or hmem with hmem | heq
    · exact h.answered id result hmem
    · cases heq
      exact ⟨e.op, he⟩
  · intro x hx y hy result op hbefore
    rcases hbefore.of_concat with hbefore | heq
    · exact h.realTime x hx y hy result op hbefore
    · cases heq

end Linearizes

end Lib
end AudioFork
