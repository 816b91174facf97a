import AudioFork.Lib.Runs
import Mathlib.Algebra.Group.Nat.Defs
import Mathlib.Data.List.Basic

/-!
# SlabPool — the shared slab pool under any number of threads

`SlabSupply` is the pool as one fork sees it.  Here the pool's own code runs: `Acquire` with its
reservation under the mutex, its allocation outside and the rollback when that fails, `Release`, and
the move and move-assignment of leases.  A thread takes one statement at a time; a statement that
needs the mutex waits for it.  Counters are `size_t` and wrap.

Leases are objects at places.  A lease is used by one thread at a time, so an assignment under way
keeps its two operands to itself.
-/

namespace AudioFork
namespace Buffers

/-- `a - b` of two `size_t`. -/
def sizeSub (a b : Nat) : Nat :=
  if b ≤ a then a - b else a + 2 ^ 64 - b

/-- A vector of bytes that was allocated, with its identity. -/
structure Slab where
  id : Nat
  size : Nat
  deriving DecidableEq, Repr

/-- `SlabLease`.  `state_` and `storage_` are set and moved together: both are empty once the lease
is moved from or released.  `number` tells which acquisition it comes from. -/
inductive SlabLease
  | null
  | holding (number : Nat) (slab : Slab)
  deriving DecidableEq, Repr

inductive LeasePlace
  | object (lease : SlabLease)
  /-- An operand of an assignment of this thread. -/
  | operand (thread : Nat)
  | destroyed
  deriving DecidableEq, Repr

/-- Who called `Release`, and what is left to do there. -/
inductive ReleaseCaller
  | destructor
  /-- `operator=`: `other` goes from `src` to `dst`. -/
  | assignment (dst src : Nat) (other : SlabLease)
  deriving DecidableEq, Repr

/-- The next statement of a thread. -/
inductive PoolThread
  | idle
  -- `Acquire`, up to its critical section
  | acquire
  -- in it: the tests, then `pop_back`, `allocated_bytes +=` or the refusal, then `++leased_slabs`
  | acquireTest
  | acquirePop
  | acquireGrow
  | acquireRefused
  | acquireCount (storage : Option Slab)
  | acquireUnlock (number : Nat) (storage : Option Slab)
  -- past it, with the reservation made
  | acquireResize (number : Nat) (storage : Option Slab)
  -- the handler of a failed `resize`
  | rollback (number : Nat)
  | rollbackBytes (number : Nat)
  | rollbackCount (number : Nat)
  | rollbackUnlock
  -- `Release`
  | release (lease : SlabLease) (caller : ReleaseCaller)
  | releasePush (number : Nat) (slab : Slab) (caller : ReleaseCaller)
  | releaseCount (number : Nat) (caller : ReleaseCaller)
  | releaseUnlock (caller : ReleaseCaller)
  | released (caller : ReleaseCaller)
  deriving DecidableEq, Repr

structure PoolThreads where
  slabSizeBytes : Nat
  maxTotalBytes : Nat
  mutex : Option Nat
  freeSlabs : List Slab
  allocatedBytes : Nat
  leasedSlabs : Nat
  places : List LeasePlace
  threads : List PoolThread
  /-- Slabs allocated so far. -/
  nextSlab : Nat
  /-- Leases counted so far; `returned` and `rolledBack` are those no longer counted. -/
  issued : Nat
  returned : List Nat
  rolledBack : List Nat
  deriving DecidableEq, Repr

inductive PoolStep
  /-- An idle thread calls `Acquire`. -/
  | acquire (thread : Nat)
  /-- It move-constructs a lease from the one at `src`. -/
  | move (thread src : Nat)
  | assign (thread dst src : Nat)
  | destroy (thread place : Nat)
  /-- The thread's next statement; `allocates` is what becomes of a `resize`. -/
  | next (thread : Nat) (allocates : Bool)
  deriving DecidableEq, Repr

namespace PoolThreads

def create (slabSizeBytes maxTotalBytes threads : Nat) : Option PoolThreads :=
  if slabSizeBytes = 0 ∨ maxTotalBytes < slabSizeBytes then
    none
  else
    some
      { slabSizeBytes
        maxTotalBytes
        mutex := none
        freeSlabs := []
        allocatedBytes := 0
        leasedSlabs := 0
        places := []
        threads := List.replicate threads .idle
        nextSlab := 0
        issued := 0
        returned := []
        rolledBack := [] }

def goto (s : PoolThreads) (t : Nat) (next : PoolThread) : PoolThreads :=
  { s with threads := s.threads.set t next }

/-- `scoped_lock`. -/
def lock (s : PoolThreads) (t : Nat) (next : PoolThread) : PoolThreads :=
  match s.mutex with
  | none => { s with mutex := some t, threads := s.threads.set t next }
  | some _ => s

def unlock (s : PoolThreads) (t : Nat) (next : PoolThread) : PoolThreads :=
  { s with mutex := none, threads := s.threads.set t next }

/-- The lease `Acquire` returns. -/
def construct (s : PoolThreads) (t : Nat) (lease : SlabLease) : PoolThreads :=
  { s with
    places := s.places ++ [.object lease]
    threads := s.threads.set t .idle }

/-- The statement `statement` of thread `t`. -/
def run (s : PoolThreads) (t : Nat) (allocates : Bool) : PoolThread → PoolThreads
  | .idle => s
  | .acquire => s.lock t .acquireTest
  | .acquireTest =>
      if s.freeSlabs ≠ [] then
        s.goto t .acquirePop
      else if (s.allocatedBytes + s.slabSizeBytes) % 2 ^ 64 ≤ s.maxTotalBytes then
        s.goto t .acquireGrow
      else
        s.goto t .acquireRefused
  | .acquirePop =>
      { s with
        freeSlabs := s.freeSlabs.dropLast
        threads := s.threads.set t (.acquireCount s.freeSlabs.getLast?) }
  | .acquireGrow =>
      { s with
        allocatedBytes := (s.allocatedBytes + s.slabSizeBytes) % 2 ^ 64
        threads := s.threads.set t (.acquireCount none) }
  | .acquireRefused => s.unlock t .idle
  | .acquireCount storage =>
      { s with
        leasedSlabs := (s.leasedSlabs + 1) % 2 ^ 64
        issued := s.issued + 1
        threads := s.threads.set t (.acquireUnlock s.issued storage) }
  | .acquireUnlock number storage => s.unlock t (.acquireResize number storage)
  | .acquireResize number storage =>
      -- `storage.empty()` also of a vector without bytes
      match storage.filter fun slab => slab.size ≠ 0 with
      | some slab => s.construct t (.holding number slab)
      | none =>
          if allocates then
            { s.construct t (.holding number { id := s.nextSlab, size := s.slabSizeBytes }) with
              nextSlab := s.nextSlab + 1 }
          else
            s.goto t (.rollback number)
  | .rollback number => s.lock t (.rollbackBytes number)
  | .rollbackBytes number =>
      { s with
        allocatedBytes := sizeSub s.allocatedBytes s.slabSizeBytes
        threads := s.threads.set t (.rollbackCount number) }
  | .rollbackCount number =>
      { s with
        leasedSlabs := sizeSub s.leasedSlabs 1
        rolledBack := s.rolledBack ++ [number]
        threads := s.threads.set t .rollbackUnlock }
  | .rollbackUnlock => s.unlock t .idle
  | .release lease caller =>
      match lease with
      | .null => s.goto t (.released caller)
      | .holding number slab => s.lock t (.releasePush number slab caller)
  | .releasePush number slab caller =>
      { s with
        freeSlabs := s.freeSlabs ++ [slab]
        threads := s.threads.set t (.releaseCount number caller) }
  | .releaseCount number caller =>
      { s with
        leasedSlabs := sizeSub s.leasedSlabs 1
        returned := s.returned ++ [number]
        threads := s.threads.set t (.releaseUnlock caller) }
  | .releaseUnlock caller => s.unlock t (.released caller)
  | .released .destructor => s.goto t .idle
  | .released (.assignment dst src other) =>
      { s with
        places := (s.places.set dst (.object other)).set src (.object .null)
        threads := s.threads.set t .idle }

def step (s : PoolThreads) : PoolStep → PoolThreads
  | .acquire t =>
      match s.threads[t]? with
      | some .idle => s.goto t .acquire
      | _ => s
  | .move t src =>
      match s.threads[t]?, s.places[src]? with
      | some .idle, some (.object lease) =>
          { s with places := s.places.set src (.object .null) ++ [.object lease] }
      | _, _ => s
  | .assign t dst src =>
      match s.threads[t]?, s.places[dst]?, s.places[src]? with
      | some .idle, some (.object lease), some (.object other) =>
          -- `this != &other`
          if dst = src then
            s
          else
            { s with
              places := (s.places.set dst (.operand t)).set src (.operand t)
              threads := s.threads.set t (.release lease (.assignment dst src other)) }
      | _, _, _ => s
  | .destroy t place =>
      match s.threads[t]?, s.places[place]? with
      | some .idle, some (.object lease) =>
          { s with
            places := s.places.set place .destroyed
            threads := s.threads.set t (.release lease .destructor) }
      | _, _ => s
  | .next t allocates =>
      match s.threads[t]? with
      | some statement => s.run t allocates statement
      | none => s

/-- `CanLease`. -/
def canLease (s : PoolThreads) (slabs : Nat) : Bool :=
  let growable := sizeSub s.maxTotalBytes s.allocatedBytes / s.slabSizeBytes
  decide ((s.freeSlabs.length + growable) % 2 ^ 64 ≥ slabs)

/-! ## Calls without other activity -/

def Quiescent (s : PoolThreads) : Prop := ∀ thread ∈ s.threads, thread = .idle

/-- One `Acquire` of thread `t`, alone, with every allocation succeeding.  An idle thread has no next
statement, so that the shorter paths of `Acquire` end in steps that do nothing. -/
def acquireAlone (s : PoolThreads) (t : Nat) : PoolThreads :=
  Lib.exec step (s.step (.acquire t)) (List.replicate 6 (.next t true))

/-- A call that succeeds leaves a lease behind. -/
def acquires (s : PoolThreads) (t : Nat) : Bool :=
  decide ((s.acquireAlone t).places.length = s.places.length + 1)

/-- `n` successive calls that all succeed. -/
def acquiresAll (t : Nat) : Nat → PoolThreads → Bool
  | 0, _ => true
  | n + 1, s => s.acquires t && acquiresAll t n (s.acquireAlone t)

end PoolThreads

end Buffers
end AudioFork
