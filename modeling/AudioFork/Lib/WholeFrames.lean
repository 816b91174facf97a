import Mathlib.Data.List.Basic

/-!
# WholeFrames — a stream cut into frames of equal length

`frames n xs` are the whole frames of `n` items in `xs`, from its start.  A stream that is cut only
at multiples of `n` keeps its frames: they are the frames of the pieces, one after the other.
-/

namespace AudioFork
namespace Lib

universe u

variable {α : Type u} {n : Nat}

def frames (n : Nat) (xs : List α) : List (List α) :=
  (List.range (xs.length / n)).map fun i => (xs.drop (i * n)).take n

@[simp] theorem frames_nil (n : Nat) : frames n ([] : List α) = [] := by
  simp [frames]

/-- A cut between two frames. -/
theorem frames_append (hn : 0 < n) {xs : List α} (h : n ∣ xs.length) (ys : List α) :
    frames n (xs ++ ys) = frames n xs ++ frames n ys := by
  rcases h with ⟨q, hq⟩
  have hcount : (xs ++ ys).length / n = q + ys.length / n := by
    rw [List.length_append, hq, Nat.mul_add_div hn]
  have hfirst : xs.length / n = q := by
    rw [hq, Nat.mul_div_cancel_left q hn]
  unfold frames
  rw [hcount, hfirst, List.range_add, List.map_append, List.map_map]
  congr 1
  · refine List.map_congr_left ?_
    intro i hi
    -- the first frames end before the cut
    have hend : i * n + n ≤ xs.length := by
      have hi : i < q := List.mem_range.mp hi
      calc i * n + n = (i + 1) * n := (Nat.succ_mul i n).symm
        _ ≤ q * n := Nat.mul_le_mul_right n hi
        _ = xs.length := by rw [hq, Nat.mul_comm]
    rw [List.drop_append_of_le_length (by omega), List.take_append_of_le_length]
    rw [List.length_drop]
    omega
  · refine List.map_congr_left ?_
    intro j _
    have hstart : (q + j) * n = xs.length + j * n := by
      rw [hq, Nat.add_mul, Nat.mul_comm q]
    show ((xs ++ ys).drop ((q + j) * n)).take n = _
    rw [hstart, List.drop_length_add_append]

/-- Whole frames make up the stream again. -/
theorem flatten_frames (hn : 0 < n) {xs : List α} (h : n ∣ xs.length) : (frames n xs).flatten = xs := by
  rcases h with ⟨q, hq⟩
  induction q generalizing xs with
  | zero =>
      obtain rfl : xs = [] := List.length_eq_zero_iff.mp hq
      simp
  | succ q ih =>
      rw [Nat.mul_succ] at hq
      have hhead : (xs.take n).length = n := by
        rw [List.length_take]
        omega
      have hone : frames n (xs.take n) = [xs.take n] := by
        simp [frames, hhead, Nat.div_self hn, List.take_take]
      have hrest : (xs.drop n).length = n * q := by
        rw [List.length_drop]
        omega
      calc (frames n xs).flatten = (frames n (xs.take n ++ xs.drop n)).flatten := by
            rw [List.take_append_drop]
        _ = xs.take n ++ (frames n (xs.drop n)).flatten := by
            rw [frames_append hn ⟨1, by rw [hhead, Nat.mul_one]⟩, hone]
            rfl
        _ = xs := by rw [ih hrest, List.take_append_drop]

/-- Dropping whole frames from the front leaves the other frames. -/
theorem frames_drop_sublist (hn : 0 < n) {k : Nat} (h : n ∣ k) (xs : List α) :
    List.Sublist (frames n (xs.drop k)) (frames n xs) := by
  rcases Nat.le_total k xs.length with hle | hge
  · have hlength : n ∣ (xs.take k).length := by
      rw [List.length_take, Nat.min_eq_left hle]
      exact h
    have hcut := frames_append hn hlength (xs.drop k)
    rw [List.take_append_drop] at hcut
    rw [hcut]
    exact List.sublist_append_right _ _
  · rw [List.drop_eq_nil_of_le hge, frames_nil]
    exact List.nil_sublist _

/-! ## Amounts scaled to frames -/

/-- Scaling by `k` before a truncating division by `m` leaves a multiple of `k` exactly when the
remainder that is lost does not amount to a whole unit. -/
theorem dvd_mul_div_iff {k m : Nat} (hk : 0 < k) (hm : 0 < m) (n : Nat) :
    k ∣ k * n / m ↔ k * (n % m) < m := by
  have hsplit : k * n / m = k * (n / m) + k * (n % m) / m := by
    calc k * n / m = k * (m * (n / m) + n % m) / m := by rw [Nat.div_add_mod]
      _ = (m * (k * (n / m)) + k * (n % m)) / m := by rw [Nat.mul_add, Nat.mul_left_comm]
      _ = k * (n / m) + k * (n % m) / m := Nat.mul_add_div hm _ _
  have hsmall : k * (n % m) / m < k := by
    rw [Nat.div_lt_iff_lt_mul hm]
    exact Nat.mul_lt_mul_of_pos_left (Nat.mod_lt n hm) hk
  rw [hsplit, Nat.dvd_add_right (Nat.dvd_mul_right k _)]
  constructor
  · intro hdvd
    have hzero := Nat.eq_zero_of_dvd_of_lt hdvd hsmall
    exact (Nat.div_eq_zero_iff_lt hm).mp hzero
  · intro hlt
    rw [Nat.div_eq_of_lt hlt]
    exact Nat.dvd_zero k

end Lib
end AudioFork
