import Mathlib.Order.Basic

/-!
# RankedRecursion — recursion that descends a rank, unrolled to a fixed depth

A recursive driver is given by its body `body : (α → σ → σ) → α → σ → σ`, which receives the
recursive call as an argument.  If the body, run at `a`, calls back only at labels of smaller rank
(`Descends`), then unrolling it more than `rank a` times no longer depends on what stands at the
bottom of the recursion, and the unrolled function satisfies the recursion equation.
-/

namespace AudioFork
namespace Lib

universe u v

variable {α : Type u} {σ : Type v}

/-- `unroll body base n`: the body nested `n` times over `base`. -/
def unroll (body : (α → σ → σ) → α → σ → σ) (base : α → σ → σ) : Nat → α → σ → σ
  | 0 => base
  | n + 1 => body (unroll body base n)

/-- At label `a` the body looks at its recursive argument only below the rank of `a`. -/
def Descends (body : (α → σ → σ) → α → σ → σ) (rank : α → Nat) : Prop :=
  ∀ (f g : α → σ → σ) (a : α), (∀ b, rank b < rank a → f b = g b) → body f a = body g a

variable {body : (α → σ → σ) → α → σ → σ} {rank : α → Nat}

/-- Beyond the rank of its label an unrolling depends neither on the depth nor on the base. -/
theorem unroll_stable (h : Descends body rank) (base base' : α → σ → σ) :
    ∀ (n m : Nat) (a : α), rank a < n → rank a < m → unroll body base n a = unroll body base' m a
  | 0, _, _, hn, _ => absurd hn (Nat.not_lt_zero _)
  | _ + 1, 0, _, _, hm => absurd hm (Nat.not_lt_zero _)
  | n + 1, m + 1, a, hn, hm => by
      refine h _ _ a ?_
      intro b hb
      exact unroll_stable h base base' n m b
        (Nat.lt_of_lt_of_le hb (Nat.le_of_lt_succ hn)) (Nat.lt_of_lt_of_le hb (Nat.le_of_lt_succ hm))

/-- The recursion equation of a sufficiently deep unrolling. -/
theorem unroll_eq (h : Descends body rank) (base : α → σ → σ) {n : Nat} (hn : ∀ a, rank a < n)
    (a : α) : unroll body base n a = body (unroll body base n) a :=
  unroll_stable h base base n (n + 1) a (hn a) (Nat.lt_succ_of_lt (hn a))

/-- The recursion equation has no other solution. -/
theorem eq_unroll (h : Descends body rank) (base : α → σ → σ) {f : α → σ → σ}
    (hf : ∀ a, f a = body f a) : ∀ (n : Nat) (a : α), rank a < n → f a = unroll body base n a
  | 0, _, hn => absurd hn (Nat.not_lt_zero _)
  | n + 1, a, hn => by
      rw [hf a]
      refine h _ _ a ?_
      intro b hb
      exact eq_unroll h base hf n b (Nat.lt_of_lt_of_le hb (Nat.le_of_lt_succ hn))

end Lib
end AudioFork
