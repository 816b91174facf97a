import Mathlib.Algebra.Order.Ring.Nat

/-!
# Balance — placing things one at a time where there is least

Places carry loads.  As long as each new thing goes to a place whose load is least, loads that were equal
stay within one of each other (`Level`), and what was placed in all decides them: every place has the
whole share or the share rounded up (`Spread.share`).
-/

namespace AudioFork
namespace Lib

/-- No load is more than one above another. -/
def Level (b : Nat) (loads : List Nat) : Prop := ∀ x ∈ loads, x = b ∨ x = b + 1

/-- `i` is a place with the least load. -/
def LeastAt (loads : List Nat) (i : Nat) : Prop :=
  ∃ x, loads[i]? = some x ∧ ∀ y ∈ loads, x ≤ y

/-- `m` things have been placed, from loads that were all `c`. -/
structure Spread (c m : Nat) (loads : List Nat) : Prop where
  level : ∃ b, Level b loads
  sum : loads.sum = loads.length * c + m

variable {b c m : Nat} {loads : List Nat}

theorem sum_of_level (h : Level b loads) :
    loads.sum = loads.length * b + loads.count (b + 1) := by
  induction loads with
  | nil => simp
  | cons x loads ih =>
      have hrest : Level b loads := fun y hy => h y (List.mem_cons_of_mem x hy)
      rw [List.sum_cons, ih hrest, List.length_cons, Nat.succ_mul]
      rcases h x List.mem_cons_self with rfl | rfl
      · rw [List.count_cons_of_ne (Nat.ne_of_lt (Nat.lt_add_one x))]
        omega
      · rw [List.count_cons_self]
        omega

theorem spread_of_equal (h : ∀ x ∈ loads, x = c) : Spread c 0 loads := by
  have hlevel : Level c loads := fun x hx => Or.inl (h x hx)
  have hnone : loads.count (c + 1) = 0 := by
    refine List.count_eq_zero.mpr ?_
    intro hmem
    exact Nat.succ_ne_self c (h (c + 1) hmem)
  refine ⟨⟨c, hlevel⟩, ?_⟩
  rw [sum_of_level hlevel, hnone]

/-! ## Placing one more -/

theorem mem_modify {i x y : Nat} {f : Nat → Nat} (hi : loads[i]? = some x)
    (hy : y ∈ loads.modify i f) : y ∈ loads ∨ y = f x := by
  rcases List.mem_iff_getElem?.mp hy with ⟨j, hj⟩
  rw [List.getElem?_modify] at hj
  rcases Option.map_eq_some_iff.mp hj with ⟨z, hz, hyz⟩
  split at hyz
  · rename_i heq
    subst heq
    rw [hi] at hz
    cases hz
    exact Or.inr hyz.symm
  · rw [← hyz]
    exact Or.inl (List.mem_of_getElem? hz)

theorem sum_modify_succ {i x : Nat} (hi : loads[i]? = some x) :
    (loads.modify i Nat.succ).sum = loads.sum + 1 := by
  induction loads generalizing i with
  | nil => cases hi
  | cons y loads ih =>
      cases i with
      | zero =>
          rw [List.modify_zero_cons, List.sum_cons, List.sum_cons]
          omega
      | succ i =>
          rw [List.modify_succ_cons, List.sum_cons, List.sum_cons, ih hi, Nat.add_assoc]

theorem Level.place (h : Level b loads) {i : Nat} (hi : LeastAt loads i) :
    ∃ b', Level b' (loads.modify i Nat.succ) := by
  rcases hi with ⟨x, hx, hleast⟩
  rcases h x (List.mem_of_getElem? hx) with rfl | rfl
  · refine ⟨x, ?_⟩
    intro y hy
    rcases mem_modify hx hy with hold | hnew
    · exact h y hold
    · exact Or.inr hnew
  · -- the least load is the upper one, so all loads are
    refine ⟨b + 1, ?_⟩
    intro y hy
    rcases mem_modify hx hy with hold | hnew
    · rcases h y hold with rfl | hupper
      · exact absurd (hleast y hold) (Nat.not_succ_le_self y)
      · exact Or.inl hupper
    · exact Or.inr hnew

theorem Spread.place (h : Spread c m loads) {i : Nat} (hi : LeastAt loads i) :
    Spread c (m + 1) (loads.modify i Nat.succ) where
  level := by
    rcases h.level with ⟨b, hb⟩
    exact hb.place hi
  sum := by
    rcases hi with ⟨x, hx, -⟩
    rw [sum_modify_succ hx, h.sum, List.length_modify, Nat.add_assoc]

/-! ## Shares -/

theorem le_of_mul_add {k b c m r : Nat} (h : k * b + r = k * c + m) (hr : r < k) : c ≤ b := by
  rcases Nat.lt_or_ge b c with hlt | hge
  · have hle : k * (b + 1) ≤ k * c := Nat.mul_le_mul_left k hlt
    rw [Nat.mul_succ] at hle
    omega
  · exact hge

theorem share_of_lower {k b c m r : Nat} (h : k * b + r = k * c + m) (hr : r < k) :
    b = c + m / k := by
  rcases Nat.exists_eq_add_of_le (le_of_mul_add h hr) with ⟨d, rfl⟩
  have hm : m = k * d + r := by
    rw [Nat.mul_add] at h
    omega
  rw [hm, Nat.mul_add_div (Nat.zero_lt_of_lt hr), Nat.div_eq_of_lt hr, Nat.add_zero]

/-- Rounding up is rounding down after `k - 1` more. -/
theorem share_of_upper {k b c m r : Nat} (h : k * b + (r + 1) = k * c + m) (hr : r + 1 ≤ k) :
    b + 1 = c + (m + k - 1) / k := by
  have hmore : k * (b + 1) + r = k * c + (m + k - 1) := by
    rw [Nat.mul_succ]
    omega
  exact share_of_lower hmore hr

/-- Every place has the share of all that was placed, rounded down or up. -/
theorem Spread.share (h : Spread c m loads) {x : Nat} (hx : x ∈ loads) :
    x = c + m / loads.length ∨ x = c + (m + loads.length - 1) / loads.length := by
  rcases h.level with ⟨b, hb⟩
  have hsum : loads.length * b + loads.count (b + 1) = loads.length * c + m :=
    (sum_of_level hb).symm.trans h.sum
  have hle : loads.count (b + 1) ≤ loads.length := List.count_le_length
  rcases hb x hx with rfl | rfl
  · left
    -- not every load is the upper one, as `x` is not
    have hlt : loads.count (x + 1) ≠ loads.length := by
      intro hall
      exact Nat.succ_ne_self x (List.count_eq_length.mp hall x hx)
    exact share_of_lower hsum (Nat.lt_of_le_of_ne hle hlt)
  · right
    have hpos : 0 < loads.count (b + 1) := List.count_pos_iff.mpr hx
    rcases Nat.exists_eq_succ_of_ne_zero (Nat.ne_of_gt hpos) with ⟨r, hr⟩
    rw [hr] at hsum hle
    exact share_of_upper hsum hle

end Lib
end AudioFork
