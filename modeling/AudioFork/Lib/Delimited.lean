import Mathlib.Data.List.Basic

/-!
# Delimited — cutting a list at a separator

What `find` and `rfind` with two `substr` calls do: `cutFirst` cuts a list at the first occurrence
of a separator, `cutLast` at the last one, and the separator itself is dropped.  Each is described
by what its answer says about the list: the two sides around the separator, and the side in which
the separator does not occur.
-/

namespace AudioFork
namespace Lib

variable {α : Type} [DecidableEq α]

def cutFirst (sep : α) : List α → Option (List α × List α)
  | [] => none
  | x :: l => if x = sep then some ([], l) else (cutFirst sep l).map fun p => (x :: p.1, p.2)

def cutLast (sep : α) (l : List α) : Option (List α × List α) :=
  (cutFirst sep l.reverse).map fun p => (p.2.reverse, p.1.reverse)

variable {sep : α}

/-! ## The first occurrence -/

theorem cutFirst_append_cons {a : List α} (h : sep ∉ a) (b : List α) :
    cutFirst sep (a ++ sep :: b) = some (a, b) := by
  induction a with
  | nil => simp [cutFirst]
  | cons x a ih =>
    rw [List.mem_cons, not_or] at h
    simp [cutFirst, Ne.symm h.1, ih h.2]

theorem cutFirst_eq_none_iff {l : List α} : cutFirst sep l = none ↔ sep ∉ l := by
  induction l with
  | nil => simp [cutFirst]
  | cons x l ih =>
    by_cases hx : x = sep
    · simp [cutFirst, hx]
    · simp [cutFirst, hx, ih, Ne.symm hx]

/-- A list that holds the separator is what stands before the first one, the separator, and the
rest. -/
theorem cutFirst_eq_some_iff {l a b : List α} :
    cutFirst sep l = some (a, b) ↔ l = a ++ sep :: b ∧ sep ∉ a := by
  constructor
  · intro h
    induction l generalizing a with
    | nil => simp [cutFirst] at h
    | cons x l ih =>
      by_cases hx : x = sep
      · obtain ⟨rfl, rfl⟩ : [] = a ∧ l = b := by simpa [cutFirst, hx] using h
        simp [hx]
      · obtain ⟨c, hc, rfl⟩ : ∃ c, cutFirst sep l = some (c, b) ∧ x :: c = a := by
          simpa [cutFirst, hx] using h
        obtain ⟨rfl, hsep⟩ := ih hc
        simp [hsep, Ne.symm hx]
  · rintro ⟨rfl, h⟩
    exact cutFirst_append_cons h b

/-! ## The last occurrence

Read from the right, the last occurrence is the first one. -/

theorem cutLast_append_cons (a : List α) {b : List α} (h : sep ∉ b) :
    cutLast sep (a ++ sep :: b) = some (a, b) := by
  have hb : sep ∉ b.reverse := by simpa using h
  have hrev : (a ++ sep :: b).reverse = b.reverse ++ sep :: a.reverse := by simp
  simp [cutLast, hrev, cutFirst_append_cons hb]

theorem cutLast_eq_none_iff {l : List α} : cutLast sep l = none ↔ sep ∉ l := by
  simp [cutLast, cutFirst_eq_none_iff]

theorem cutLast_eq_some {l a b : List α} (h : cutLast sep l = some (a, b)) :
    l = a ++ sep :: b ∧ sep ∉ b := by
  obtain ⟨p, hp, heq⟩ := Option.map_eq_some_iff.mp h
  obtain ⟨hl, hsep⟩ := cutFirst_eq_some_iff.mp (show cutFirst sep l.reverse = some (p.1, p.2) from hp)
  obtain ⟨rfl, rfl⟩ := Prod.mk.inj heq
  refine ⟨?_, by simpa using hsep⟩
  simpa using congrArg List.reverse hl

/-! ## A part without the separator -/

omit [DecidableEq α] in
/-- A separator that does not occur in the front of a list stands in its back, with all that
follows it. -/
theorem suffix_of_append {a b before after : List α} (ha : sep ∉ a)
    (h : a ++ b = before ++ sep :: after) : sep :: after <:+ b := by
  obtain ⟨mid, -, hb⟩ | ⟨mid, hmid, hb⟩ := List.append_eq_append_iff.mp h
  · exact ⟨mid, hb.symm⟩
  · cases mid with
    | nil => exact ⟨[], hb⟩
    | cons c mid =>
      obtain ⟨rfl, -⟩ := List.cons.inj hb
      exact absurd (by simp [hmid]) ha

end Lib
end AudioFork
