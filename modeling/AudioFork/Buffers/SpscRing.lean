import Mathlib.Algebra.Group.Nat.Defs
import Mathlib.Data.List.Basic

/-!
# SpscRing — the bounded byte FIFO between the media thread and the shard

`SpscByteRing` as one side sees it between two calls: a list of bytes no longer than the capacity.
`push` is all-or-nothing; `pop` takes at most what the destination holds.  Nothing in the fork
looks inside a byte of audio, so the byte type is a parameter.
-/

namespace AudioFork
namespace Buffers

variable {β : Type}

/-- The ring's contents; the capacity bound is part of the type. -/
structure SpscByteRing (β : Type) where
  capacity : Nat
  bytes : List β
  fits : bytes.length ≤ capacity

namespace SpscByteRing

def maxCapacity : Nat := 2 ^ 31

/-- The doubling loop of `Create`; `2 ^ 31` is reached after at most 31 rounds. -/
def roundUp (minCapacity : Nat) : Nat → Nat → Nat
  | 0, capacity => capacity
  | rounds + 1, capacity =>
      if capacity < minCapacity then
        roundUp minCapacity rounds (capacity * 2)
      else
        capacity

def create (minCapacity : Nat) : Option (SpscByteRing β) :=
  if minCapacity = 0 ∨ minCapacity > maxCapacity then
    none
  else
    some
      { capacity := roundUp minCapacity 31 1
        bytes := []
        fits := Nat.zero_le _ }

theorem bytes_create {n : Nat} {ring : SpscByteRing β}
    (h : create n = some ring) : ring.bytes = [] := by
  unfold create at h
  split at h
  · cases h
  · cases h
    rfl

def size (r : SpscByteRing β) : Nat := r.bytes.length

/-- A frame that does not fit the free space is refused whole. -/
def push (r : SpscByteRing β) (frame : List β) : Bool × SpscByteRing β :=
  if h : frame.length ≤ r.capacity - r.bytes.length then
    (true,
      { r with
        bytes := r.bytes ++ frame
        fits := by
          have hfits := r.fits
          simp only [List.length_append]
          omega })
  else
    (false, r)

/-- The oldest bytes, at most `count` of them. -/
def pop (r : SpscByteRing β) (count : Nat) : List β × SpscByteRing β :=
  (r.bytes.take count,
    { r with
      bytes := r.bytes.drop count
      fits := by
        have hfits := r.fits
        simp only [List.length_drop]
        omega })

theorem push_accepted {r : SpscByteRing β} {frame : List β} (h : (r.push frame).1 = true) :
    (r.push frame).2.bytes = r.bytes ++ frame := by
  unfold push at h ⊢
  split at h
  · rename_i hfit
    simp [hfit]
  · cases h

/-- What fits is accepted. -/
theorem push_fits {r : SpscByteRing β} {frame : List β}
    (h : frame.length ≤ r.capacity - r.bytes.length) : (r.push frame).1 = true := by
  unfold push
  rw [dif_pos h]

theorem capacity_push (r : SpscByteRing β) (frame : List β) :
    (r.push frame).2.capacity = r.capacity := by
  unfold push
  split <;> rfl

@[simp] theorem pop_fst (r : SpscByteRing β) (count : Nat) :
    (r.pop count).1 = r.bytes.take count := rfl

end SpscByteRing

end Buffers
end AudioFork
