import Mathlib.Data.Nat.Digits.Defs
import Mathlib.Data.Nat.Digits.Lemmas

/-!
# Decimal — decimal numerals as byte strings

`decimal n` is the numeral of `n` without leading zeros, and `value` reads a numeral from the left,
as a loop over its digits does.  Padding a numeral with zeros does not change what is read.
-/

namespace AudioFork
namespace Lib

/-- The bytes `'0'` to `'9'`. -/
def IsDigit (d : UInt8) : Prop := 48 ≤ d ∧ d ≤ 57

instance (d : UInt8) : Decidable (IsDigit d) := inferInstanceAs (Decidable (_ ∧ _))

def digitByte (d : Nat) : UInt8 := UInt8.ofNat (48 + d)

def decimal (n : Nat) : List UInt8 :=
  if n = 0 then [48] else (Nat.digits 10 n).reverse.map digitByte

/-- The number read so far, `v`, after the digits that follow. -/
def valueFrom (v : Nat) (t : List UInt8) : Nat := t.foldl (fun v d => v * 10 + (d.toNat - 48)) v

def value (t : List UInt8) : Nat := valueFrom 0 t

theorem toNat_digitByte {d : Nat} (h : d < 10) : (digitByte d).toNat = 48 + d := by
  simp only [digitByte, UInt8.toNat_ofNat']
  omega

theorem isDigit_digitByte {d : Nat} (h : d < 10) : IsDigit (digitByte d) := by
  simp only [IsDigit, UInt8.le_iff_toNat_le, toNat_digitByte h]
  exact ⟨Nat.le_add_right 48 d, by simp; omega⟩

theorem isDigit_of_mem_decimal {n : Nat} {d : UInt8} (h : d ∈ decimal n) : IsDigit d := by
  by_cases hn : n = 0
  · rw [decimal, if_pos hn, List.mem_singleton] at h
    subst h
    decide
  · rw [decimal, if_neg hn, List.mem_map] at h
    obtain ⟨e, he, rfl⟩ := h
    exact isDigit_digitByte (Nat.digits_lt_base (by decide) (List.mem_reverse.mp he))

theorem decimal_ne_nil (n : Nat) : decimal n ≠ [] := by
  by_cases hn : n = 0
  · simp [decimal, hn]
  · simp [decimal, hn, Nat.digits_ne_nil_iff_ne_zero]

theorem value_concat (t : List UInt8) (d : UInt8) :
    value (t ++ [d]) = value t * 10 + (d.toNat - 48) := by
  simp [value, valueFrom]

/-- Mathlib's `Nat.digits` are least significant first, a numeral is written the other way round. -/
theorem value_digitBytes {l : List Nat} (hl : ∀ d ∈ l, d < 10) :
    value (l.reverse.map digitByte) = Nat.ofDigits 10 l := by
  induction l with
  | nil => rfl
  | cons d l ih =>
    have hd : (digitByte d).toNat = 48 + d := toNat_digitByte (hl d (by simp))
    have htail := ih fun e he => hl e (by simp [he])
    rw [List.reverse_cons, List.map_append, List.map_singleton, value_concat, htail,
      Nat.ofDigits_cons, hd]
    omega

theorem value_decimal (n : Nat) : value (decimal n) = n := by
  by_cases hn : n = 0
  · subst hn
    rfl
  · rw [decimal, if_neg hn, value_digitBytes fun d hd => Nat.digits_lt_base (by decide) hd,
      Nat.ofDigits_digits]

theorem value_zeros_append (k : Nat) (t : List UInt8) :
    value (List.replicate k 48 ++ t) = value t := by
  induction k with
  | zero => rfl
  | succ k ih => exact ih

end Lib
end AudioFork
