import Mathlib.Algebra.Order.Group.Multiset
import Mathlib.Algebra.Order.Ring.Nat

/-!
# Holdings — what the entries of a table hold together

The entries of a table (the objects of a heap, the threads of a process) each hold some things;
`holdings f` are the things they hold together.  An entry that is replaced changes them by its own
share only (`holdings_split`), which is all a step of one entry has to know of the others.  What holds
of each entry is kept in the same way (`forall_set`, `found_set`).
-/

namespace AudioFork
namespace Lib

universe u v

variable {α : Type u} {γ : Type v}

def holdings (f : α → List γ) (l : List α) : Multiset γ := (l.flatMap f : List γ)

theorem holdings_cons (f : α → List γ) (a : α) (l : List α) :
    holdings f (a :: l) = f a + holdings f l := by
  unfold holdings
  rw [List.flatMap_cons, ← Multiset.coe_add]

theorem holdings_concat (f : α → List γ) (l : List α) (a : α) :
    holdings f (l ++ [a]) = holdings f l + f a := by
  unfold holdings
  rw [List.flatMap_append, List.flatMap_singleton, ← Multiset.coe_add]

/-- One entry's share set apart. -/
theorem holdings_split (f : α → List γ) {l : List α} {i : Nat} {a : α} (h : l[i]? = some a) :
    ∃ rest, holdings f l = rest + f a ∧ ∀ b, holdings f (l.set i b) = rest + f b := by
  induction l generalizing i with
  | nil => cases h
  | cons x l ih =>
      cases i with
      | zero =>
          cases h
          refine ⟨holdings f l, ?_, ?_⟩
          · rw [holdings_cons, add_comm]
          · intro b
            rw [List.set_cons_zero, holdings_cons, add_comm]
      | succ i =>
          rcases ih h with ⟨rest, hold, hnew⟩
          refine ⟨f x + rest, ?_, ?_⟩
          · rw [holdings_cons, hold, add_assoc]
          · intro b
            rw [List.set_cons_succ, holdings_cons, hnew, add_assoc]

/-- An entry that held nothing comes to hold something. -/
theorem holdings_fill (f : α → List γ) {l : List α} {i : Nat} {a : α} (h : l[i]? = some a)
    (ha : f a = []) (b : α) : holdings f (l.set i b) = holdings f l + f b := by
  rcases holdings_split f h with ⟨rest, hold, hnew⟩
  rw [hnew, hold, ha, Multiset.coe_nil, add_zero]

/-- An entry gives up what it held. -/
theorem holdings_clear (f : α → List γ) {l : List α} {i : Nat} {a b : α} (h : l[i]? = some a)
    (hb : f b = []) : holdings f l = holdings f (l.set i b) + f a := by
  rcases holdings_split f h with ⟨rest, hold, hnew⟩
  rw [hnew, hold, hb, Multiset.coe_nil, add_zero]

/-! ## Counting shares -/

/-- Where only their number counts: one entry's share set apart. -/
theorem sum_map_set (f : α → Nat) {l : List α} {i : Nat} {a : α} (h : l[i]? = some a) (b : α) :
    ((l.set i b).map f).sum + f a = (l.map f).sum + f b := by
  induction l generalizing i with
  | nil => cases h
  | cons x l ih =>
      cases i with
      | zero =>
          cases h
          simp only [List.set_cons_zero, List.map_cons, List.sum_cons]
          omega
      | succ i =>
          have hrest := ih h
          simp only [List.set_cons_succ, List.map_cons, List.sum_cons]
          omega

/-- An entry leaves with its share. -/
theorem sum_map_eraseIdx (f : α → Nat) {l : List α} {i : Nat} {a : α} (h : l[i]? = some a) :
    ((l.eraseIdx i).map f).sum + f a = (l.map f).sum := by
  induction l generalizing i with
  | nil => cases h
  | cons x l ih =>
      cases i with
      | zero =>
          cases h
          simp only [List.eraseIdx_cons_zero, List.map_cons, List.sum_cons]
          omega
      | succ i =>
          have hrest := ih h
          simp only [List.eraseIdx_cons_succ, List.map_cons, List.sum_cons]
          omega

/-- Entries without a share need not be counted. -/
theorem sum_map_filter (f : α → Nat) (p : α → Bool) {l : List α}
    (h : ∀ a ∈ l, p a = false → f a = 0) : ((l.filter p).map f).sum = (l.map f).sum := by
  induction l with
  | nil => rfl
  | cons x l ih =>
      have hrest := ih fun a ha => h a (List.mem_cons_of_mem x ha)
      rw [List.filter_cons]
      cases hx : p x with
      | true => simpa using hrest
      | false =>
          have hzero := h x List.mem_cons_self hx
          simpa [hzero] using hrest

theorem mem_holdings {f : α → List γ} {l : List α} {x : γ} :
    x ∈ holdings f l ↔ ∃ a ∈ l, x ∈ f a := by
  unfold holdings
  rw [Multiset.mem_coe, List.mem_flatMap]

/-! ## One entry is replaced -/

theorem set_of_getElem? {l : List α} {i : Nat} {a : α} (h : l[i]? = some a) : l.set i a = l := by
  rcases List.getElem?_eq_some_iff.mp h with ⟨hlt, rfl⟩
  exact List.set_getElem_self hlt

/-- What the others keep and the new entry has, all have. -/
theorem forall_set {l : List α} {P : Nat → α → Prop} {i : Nat} {a b : α} (hi : l[i]? = some a)
    (hb : P i b) (hothers : ∀ (j : Nat) (x : α), j ≠ i → l[j]? = some x → P j x) :
    ∀ (j : Nat) (x : α), (l.set i b)[j]? = some x → P j x := by
  intro j x hj
  by_cases heq : j = i
  · subst heq
    rw [List.getElem?_set_self (List.getElem?_eq_some_iff.mp hi).1] at hj
    cases hj
    exact hb
  · rw [List.getElem?_set_ne (Ne.symm heq)] at hj
    exact hothers j x heq hj

/-- What an entry has, the replaced one had, or it is still there. -/
theorem replaced_or_found {l : List α} {P : α → Prop} {i j : Nat} {a b : α} (hi : l[i]? = some a)
    (h : ∃ x, l[j]? = some x ∧ P x) :
    (j = i ∧ P a) ∨ ∃ x, (l.set i b)[j]? = some x ∧ P x := by
  rcases h with ⟨x, hx, hp⟩
  by_cases heq : j = i
  · rw [heq, hi] at hx
    cases hx
    exact .inl ⟨heq, hp⟩
  · exact .inr ⟨x, by rw [List.getElem?_set_ne (Ne.symm heq), hx], hp⟩

/-- It is still there unless the new entry gives it up. -/
theorem found_set {l : List α} {P : α → Prop} {i j : Nat} {a b : α} (hi : l[i]? = some a)
    (hb : P a → P b) (h : ∃ x, l[j]? = some x ∧ P x) :
    ∃ x, (l.set i b)[j]? = some x ∧ P x := by
  rcases replaced_or_found hi h with ⟨rfl, hp⟩ | hfound
  · exact ⟨b, List.getElem?_set_self (List.getElem?_eq_some_iff.mp hi).1, hb hp⟩
  · exact hfound

/-- A reading of the entries follows the entry that is changed. -/
theorem map_modify {g : α → γ} {f : α → α} {f' : γ → γ} (h : ∀ a, g (f a) = f' (g a)) (l : List α)
    (i : Nat) : (l.modify i f).map g = (l.map g).modify i f' := by
  induction l generalizing i with
  | nil => simp
  | cons a l ih =>
      cases i with
      | zero => simp [h]
      | succ i => simp [ih]

/-- It stays the same if the change cannot be read. -/
theorem map_modify_same {g : α → γ} {f : α → α} (h : ∀ a, g (f a) = g a) (l : List α) (i : Nat) :
    (l.modify i f).map g = l.map g := by
  have hid : ∀ a, g (f a) = id (g a) := h
  rw [map_modify hid, List.modify_id]

/-! ## Reading a share item by item -/

theorem add_coe_cons (m : Multiset γ) (x : γ) (l : List γ) :
    m + ((x :: l : List γ) : Multiset γ) = x ::ₘ (m + (l : Multiset γ)) := by
  rw [← Multiset.cons_coe, Multiset.add_cons]

theorem add_coe_nil (m : Multiset γ) : m + (([] : List γ) : Multiset γ) = m := by
  rw [Multiset.coe_nil, add_zero]

end Lib
end AudioFork
