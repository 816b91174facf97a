import Mathlib.Data.List.Basic

/-!
# RingWindow — a stretch of a stream in a circular store

A store of `n` cells that is written round and round holds item `i` of a stream in cell `i % n`.
`Window store stream lo hi` says that the items `lo ≤ i < hi` are there.  The rules say how a window
grows at its upper end, narrows at either end, and what can be read through it.
-/

namespace AudioFork
namespace Lib

universe u

variable {α : Type u}

def Window (store stream : List α) (lo hi : Nat) : Prop :=
  ∀ i, lo ≤ i → i < hi → store[i % store.length]? = stream[i]?

/-- Two positions less than a round apart have different cells. -/
theorem mod_ne_of_lt {n a b : Nat} (hlt : a < b) (hround : b < a + n) : a % n ≠ b % n := by
  intro heq
  have hdvd : n ∣ b - a := Nat.dvd_of_mod_eq_zero (Nat.sub_mod_eq_zero_of_mod_eq heq.symm)
  have hle := Nat.le_of_dvd (Nat.sub_pos_of_lt hlt) hdvd
  omega

namespace Window

variable {store stream : List α} {lo hi : Nat}

theorem nothing (store stream : List α) (lo : Nat) : Window store stream lo lo := by
  intro i hlo hhi
  omega

theorem narrow (h : Window store stream lo hi) {lo' hi' : Nat} (hlo : lo ≤ lo') (hhi : hi' ≤ hi) :
    Window store stream lo' hi' :=
  fun i hi₁ hi₂ => h i (Nat.le_trans hlo hi₁) (Nat.lt_of_lt_of_le hi₂ hhi)

/-- A window does not see what comes after it. -/
theorem append_iff (hhi : hi ≤ stream.length) (more : List α) :
    Window store (stream ++ more) lo hi ↔ Window store stream lo hi := by
  have hsame : ∀ i, i < hi → (stream ++ more)[i]? = stream[i]? := by
    intro i hi
    exact List.getElem?_append_left (by omega)
  constructor
  · intro h i hi₁ hi₂
    rw [h i hi₁ hi₂, hsame i hi₂]
  · intro h i hi₁ hi₂
    rw [h i hi₁ hi₂, hsame i hi₂]

/-- The next item is written, with a free cell to take it. -/
theorem write (h : Window store stream lo hi) {x : α} (hx : stream[hi]? = some x)
    (hle : lo ≤ hi) (hfree : hi < lo + store.length) :
    Window (store.set (hi % store.length) x) stream lo (hi + 1) := by
  intro i hi₁ hi₂
  rw [List.length_set]
  by_cases hnew : i = hi
  · have hcell : hi % store.length < store.length := Nat.mod_lt _ (by omega)
    rw [hnew, List.getElem?_set_self hcell, hx]
  · have hold : i < hi := by omega
    rw [List.getElem?_set_ne (mod_ne_of_lt hold (by omega)).symm]
    exact h i hi₁ hold

/-- What a reader finds that follows the window from its lower end. -/
theorem read (h : Window store stream lo hi) {count : Nat} (hcount : lo + count ≤ hi) :
    ((List.range count).filterMap fun j => store[(lo + j) % store.length]?) =
      (stream.drop lo).take count := by
  induction count with
  | zero => simp
  | succ count ih =>
      have hcell := h (lo + count) (Nat.le_add_right _ _) (by omega)
      rw [List.range_succ, List.filterMap_append, ih (by omega), List.take_add_one,
        List.getElem?_drop]
      congr 1
      rw [← hcell]
      cases hlast : store[(lo + count) % store.length]? with
      | none => simp [hlast]
      | some x => simp [hlast]

/-- The same items taken out in two copies: up to the end of the store, then from its beginning. -/
theorem copies (h : Window store stream lo hi) {count : Nat} (hcount : lo + count ≤ hi)
    (hround : count ≤ store.length) :
    (store.drop (lo % store.length)).take (min count (store.length - lo % store.length)) ++
        store.take (count - min count (store.length - lo % store.length)) =
      (stream.drop lo).take count := by
  refine List.ext_getElem? fun i => ?_
  rw [List.getElem?_append, List.length_take, List.length_drop, List.getElem?_take,
    List.getElem?_take, List.getElem?_take, List.getElem?_drop, List.getElem?_drop]
  by_cases hi : i < count
  · have hcell := h (lo + i) (Nat.le_add_right _ _) (by omega)
    have hoffset : lo % store.length < store.length := Nat.mod_lt _ (by omega)
    have hsum : (lo + i) % store.length = (lo % store.length + i) % store.length :=
      (Nat.mod_add_mod lo store.length i).symm
    rw [if_pos hi, ← hcell, hsum]
    generalize lo % store.length = offset at hoffset ⊢
    by_cases hfirst : i < store.length - offset
    · rw [if_pos (by omega), if_pos (by omega), Nat.mod_eq_of_lt (by omega)]
    · rw [if_neg (by omega), if_pos (by omega), Nat.mod_eq_sub_mod (by omega),
        Nat.mod_eq_of_lt (by omega)]
      congr 1
      omega
  · rw [if_neg (by omega), if_neg (by omega), if_neg hi]

end Window

end Lib
end AudioFork
