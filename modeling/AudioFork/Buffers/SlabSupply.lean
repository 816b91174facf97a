import Mathlib.Order.Basic

/-!
# SlabSupply — the global slab pool as one fork sees it

A fork meets the shared pool only through `Acquire`, which succeeds or fails, and through leases it
gives back.  Between two calls the rest of the process may take or return any number of slabs.
`SlabSupply` keeps the number of slabs `Acquire` could still hand out; `others` is what the rest of
the process makes of that number before the next call, so that every pattern of successes and
failures is the pattern of some `others`.
-/

namespace AudioFork
namespace Buffers

structure SlabSupply where
  available : Nat
  calls : Nat
  deriving DecidableEq, Repr

namespace SlabSupply

/-- One `Acquire`: the rest of the process moves first, then this fork takes a slab if one is left. -/
def acquire (others : Nat → Nat → Nat) (p : SlabSupply) : Bool × SlabSupply :=
  let left := others p.calls p.available
  if 0 < left then
    (true, { available := left - 1, calls := p.calls + 1 })
  else
    (false, { available := 0, calls := p.calls + 1 })

/-- Leases given back. -/
def release (p : SlabSupply) (slabs : Nat) : SlabSupply :=
  { p with available := p.available + slabs }

end SlabSupply

end Buffers
end AudioFork
