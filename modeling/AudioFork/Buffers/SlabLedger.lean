import AudioFork.Buffers.SlabPool
import Mathlib.Algebra.Order.Group.Multiset

/-!
# SlabLedger — the books of the slab pool

What matters of the pool's threads is what they and the lease objects hold: leases counted in
`leased_slabs`, slabs, and what a critical section has set right on one side of the books only.  A
ledger is the pool's counters with these holdings.  `Posting` lists what a statement can do to it, and
every posting keeps it sound.
-/

namespace AudioFork
namespace Buffers

/-- Something held by a lease object or by a thread. -/
inductive Item
  /-- A lease, counted in `leased_slabs`. -/
  | lease (number : Nat)
  /-- A lease still counted whose slab is off the books. -/
  | leaving (number : Nat)
  | slab (slab : Slab)
  /-- A slab on the books for a lease that is not counted yet. -/
  | owed
  deriving DecidableEq, Repr

structure Ledger where
  slabSize : Nat
  maxTotal : Nat
  free : List Slab
  allocated : Nat
  leased : Nat
  nextSlab : Nat
  issued : Nat
  returned : List Nat
  rolledBack : List Nat
  items : Multiset Item

def Item.isLease : Item → Bool
  | .lease _ => true
  | _ => false

def Item.isLeaving : Item → Bool
  | .leaving _ => true
  | _ => false

def Item.isOwed : Item → Bool
  | .owed => true
  | _ => false

/-- The lease `number`, leaving or not. -/
def Item.isLeaseOf (number : Nat) : Item → Bool
  | .lease k => k == number
  | .leaving k => k == number
  | _ => false

def Item.isSlab (id : Nat) : Item → Bool
  | .slab held => held.id == id
  | _ => false

def tally (p : Item → Bool) (items : Multiset Item) : Nat := items.countP fun i => p i

@[simp] theorem tally_cons (p : Item → Bool) (i : Item) (items : Multiset Item) :
    tally p (i ::ₘ items) = tally p items + if p i then 1 else 0 :=
  Multiset.countP_cons _ _ _

/-- What a statement can do to the books. -/
inductive Posting (l : Ledger) : Ledger → Prop
  | none : Posting l l
  | pop (free : List Slab) (slab : Slab) (h : l.free = free ++ [slab]) :
      Posting l { l with free, items := .owed ::ₘ .slab slab ::ₘ l.items }
  | grow (h : l.allocated + l.slabSize ≤ l.maxTotal) :
      Posting l
        { l with
          allocated := (l.allocated + l.slabSize) % 2 ^ 64
          items := .owed ::ₘ l.items }
  | count (rest : Multiset Item) (h : l.items = .owed ::ₘ rest) :
      Posting l
        { l with
          leased := (l.leased + 1) % 2 ^ 64
          issued := l.issued + 1
          items := .lease l.issued ::ₘ rest }
  | allocate :
      Posting l
        { l with
          nextSlab := l.nextSlab + 1
          items := .slab { id := l.nextSlab, size := l.slabSize } ::ₘ l.items }
  | refund (number : Nat) (rest : Multiset Item) (h : l.items = .lease number ::ₘ rest) :
      Posting l
        { l with
          allocated := sizeSub l.allocated l.slabSize
          items := .leaving number ::ₘ rest }
  | giveBack (number : Nat) (slab : Slab) (rest : Multiset Item)
      (h : l.items = .lease number ::ₘ .slab slab ::ₘ rest) :
      Posting l { l with free := l.free ++ [slab], items := .leaving number ::ₘ rest }
  | rollBack (number : Nat) (rest : Multiset Item) (h : l.items = .leaving number ::ₘ rest) :
      Posting l
        { l with
          leased := sizeSub l.leased 1
          rolledBack := l.rolledBack ++ [number]
          items := rest }
  | settle (number : Nat) (rest : Multiset Item) (h : l.items = .leaving number ::ₘ rest) :
      Posting l
        { l with
          leased := sizeSub l.leased 1
          returned := l.returned ++ [number]
          items := rest }

theorem Posting.options {l l' : Ledger} (h : Posting l l') :
    l'.slabSize = l.slabSize ∧ l'.maxTotal = l.maxTotal := by
  cases h <;> exact ⟨rfl, rfl⟩

/-! ## Sound books -/

namespace Ledger

/-- How often lease `number` appears. -/
def entries (l : Ledger) (number : Nat) : Nat :=
  l.returned.count number + l.rolledBack.count number + tally (Item.isLeaseOf number) l.items

/-- How often the slab `id` appears. -/
def copies (l : Ledger) (id : Nat) : Nat :=
  (l.free.map Slab.id).count id + tally (Item.isSlab id) l.items

structure Sound (l : Ledger) : Prop where
  positive : 0 < l.slabSize
  noWrap : l.maxTotal + l.slabSize < 2 ^ 64
  allocated : l.allocated =
    l.slabSize * (tally Item.isLease l.items + l.free.length + tally Item.isOwed l.items)
  cap : l.allocated ≤ l.maxTotal
  leased : l.leased = (tally Item.isLease l.items + tally Item.isLeaving l.items) % 2 ^ 64
  once : ∀ number, l.entries number = if number < l.issued then 1 else 0
  distinct : ∀ id, l.copies id ≤ if id < l.nextSlab then 1 else 0
  freeSize : ∀ slab ∈ l.free, slab.size = l.slabSize
  heldSize : ∀ slab, .slab slab ∈ l.items → slab.size = l.slabSize

/-- The books of a pool that has handed out nothing. -/
theorem sound_empty {slabSize maxTotal : Nat} (hpositive : 0 < slabSize)
    (hnoWrap : maxTotal + slabSize < 2 ^ 64) :
    Sound
      { slabSize
        maxTotal
        free := []
        allocated := 0
        leased := 0
        nextSlab := 0
        issued := 0
        returned := []
        rolledBack := []
        items := 0 } := by
  refine ⟨hpositive, hnoWrap, ?_, Nat.zero_le _, ?_, ?_, ?_, nofun, ?_⟩
  · simp [tally]
  · simp [tally]
  · intro number
    simp [entries, tally]
  · intro id
    simp [copies, tally]
  · intro slab hslab
    simp at hslab

namespace Sound

variable {l : Ledger}

theorem pop (h : l.Sound) {free : List Slab} {slab : Slab} (hfree : l.free = free ++ [slab]) :
    Sound { l with free, items := .owed ::ₘ .slab slab ::ₘ l.items } := by
  refine ⟨h.positive, h.noWrap, ?_, h.cap, ?_, ?_, ?_, ?_, ?_⟩
  · have hallocated := h.allocated
    rw [hfree, List.length_append] at hallocated
    simp only [tally_cons, Item.isLease, Item.isOwed]
    rw [hallocated]
    congr 1
    grind
  · simpa [Item.isLease, Item.isLeaving] using h.leased
  · intro number
    simpa [entries, Item.isLeaseOf] using h.once number
  · intro id
    have hdistinct := h.distinct id
    simp only [copies, hfree, Item.isSlab, tally_cons, List.map_append, List.count_append,
      List.map_singleton, List.count_singleton] at hdistinct ⊢
    grind
  · intro other hother
    exact h.freeSize other (by rw [hfree]; exact List.mem_append_left _ hother)
  · intro other hother
    have hcases : other = slab ∨ .slab other ∈ l.items := by simpa using hother
    rcases hcases with rfl | hheld
    · exact h.freeSize other (by rw [hfree]; exact List.mem_append_right _ List.mem_cons_self)
    · exact h.heldSize other hheld

theorem grow (h : l.Sound) (hfits : l.allocated + l.slabSize ≤ l.maxTotal) :
    Sound
      { l with
        allocated := (l.allocated + l.slabSize) % 2 ^ 64
        items := .owed ::ₘ l.items } := by
  have hnoWrap := h.noWrap
  have hsum : (l.allocated + l.slabSize) % 2 ^ 64 = l.allocated + l.slabSize :=
    Nat.mod_eq_of_lt (by omega)
  refine ⟨h.positive, h.noWrap, ?_, ?_, ?_, ?_, ?_, h.freeSize, ?_⟩
  · simp only [tally_cons, Item.isLease, Item.isOwed]
    rw [hsum]
    have hallocated := h.allocated
    grind
  · show (l.allocated + l.slabSize) % 2 ^ 64 ≤ l.maxTotal
    omega
  · simpa [Item.isLease, Item.isLeaving] using h.leased
  · intro number
    simpa [entries, Item.isLeaseOf] using h.once number
  · intro id
    simpa [copies, Item.isSlab] using h.distinct id
  · intro slab hslab
    exact h.heldSize slab (by simpa using hslab)

theorem count (h : l.Sound) {rest : Multiset Item} (hitems : l.items = .owed ::ₘ rest) :
    Sound
      { l with
        leased := (l.leased + 1) % 2 ^ 64
        issued := l.issued + 1
        items := .lease l.issued ::ₘ rest } := by
  refine ⟨h.positive, h.noWrap, ?_, h.cap, ?_, ?_, ?_, h.freeSize, ?_⟩
  · have hallocated := h.allocated
    simp only [hitems, tally_cons, Item.isLease, Item.isOwed] at hallocated ⊢
    rw [hallocated]
    congr 1
    grind
  · have hleased := h.leased
    simp only [hitems, tally_cons, Item.isLease, Item.isLeaving] at hleased ⊢
    grind
  · intro number
    have honce := h.once number
    simp only [entries, hitems, tally_cons, Item.isLeaseOf] at honce ⊢
    grind
  · intro id
    have hdistinct := h.distinct id
    simp only [copies, hitems, tally_cons, Item.isSlab] at hdistinct ⊢
    exact hdistinct
  · intro slab hslab
    exact h.heldSize slab (by rw [hitems]; simpa using hslab)

theorem allocate (h : l.Sound) :
    Sound
      { l with
        nextSlab := l.nextSlab + 1
        items := .slab { id := l.nextSlab, size := l.slabSize } ::ₘ l.items } := by
  refine ⟨h.positive, h.noWrap, ?_, h.cap, ?_, ?_, ?_, h.freeSize, ?_⟩
  · simpa [Item.isLease, Item.isOwed] using h.allocated
  · simpa [Item.isLease, Item.isLeaving] using h.leased
  · intro number
    simpa [entries, Item.isLeaseOf] using h.once number
  · intro id
    have hdistinct := h.distinct id
    simp only [copies, tally_cons, Item.isSlab] at hdistinct ⊢
    grind
  · intro slab hslab
    rcases Multiset.mem_cons.mp hslab with heq | hslab
    · cases heq
      rfl
    · exact h.heldSize slab hslab

theorem refund (h : l.Sound) {number : Nat} {rest : Multiset Item}
    (hitems : l.items = .lease number ::ₘ rest) :
    Sound
      { l with
        allocated := sizeSub l.allocated l.slabSize
        items := .leaving number ::ₘ rest } := by
  have hnoWrap := h.noWrap
  have hcap := h.cap
  have hallocated : l.allocated =
      l.slabSize * (tally Item.isLease rest + l.free.length + tally Item.isOwed rest) +
        l.slabSize := by
    have hallocated := h.allocated
    simp only [hitems, tally_cons, Item.isLease, Item.isOwed] at hallocated
    grind
  have hdiff : sizeSub l.allocated l.slabSize = l.allocated - l.slabSize := if_pos (by omega)
  rw [hdiff]
  refine ⟨h.positive, h.noWrap, ?_, ?_, ?_, ?_, ?_, h.freeSize, ?_⟩
  · simp only [tally_cons, Item.isLease, Item.isOwed]
    grind
  · show l.allocated - l.slabSize ≤ l.maxTotal
    omega
  · have hleased := h.leased
    simp only [hitems, tally_cons, Item.isLease, Item.isLeaving] at hleased ⊢
    grind
  · intro number
    have honce := h.once number
    simp only [entries, hitems, tally_cons, Item.isLeaseOf] at honce ⊢
    exact honce
  · intro id
    have hdistinct := h.distinct id
    simp only [copies, hitems, tally_cons, Item.isSlab] at hdistinct ⊢
    exact hdistinct
  · intro slab hslab
    exact h.heldSize slab (by rw [hitems]; simpa using hslab)

theorem giveBack (h : l.Sound) {number : Nat} {slab : Slab} {rest : Multiset Item}
    (hitems : l.items = .lease number ::ₘ .slab slab ::ₘ rest) :
    Sound { l with free := l.free ++ [slab], items := .leaving number ::ₘ rest } := by
  refine ⟨h.positive, h.noWrap, ?_, h.cap, ?_, ?_, ?_, ?_, ?_⟩
  · have hallocated := h.allocated
    simp only [hitems, tally_cons, Item.isLease, Item.isOwed] at hallocated ⊢
    rw [hallocated, List.length_append]
    congr 1
    grind
  · have hleased := h.leased
    simp only [hitems, tally_cons, Item.isLease, Item.isLeaving] at hleased ⊢
    grind
  · intro number
    have honce := h.once number
    simp only [entries, hitems, tally_cons, Item.isLeaseOf] at honce ⊢
    grind
  · intro id
    have hdistinct := h.distinct id
    simp only [copies, hitems, Item.isSlab, tally_cons, List.map_append, List.count_append,
      List.map_singleton, List.count_singleton] at hdistinct ⊢
    grind
  · intro other hother
    rcases List.mem_append.mp hother with hother | hother
    · exact h.freeSize other hother
    · rw [List.mem_singleton.mp hother]
      exact h.heldSize slab (by rw [hitems]; simp)
  · intro other hother
    exact h.heldSize other (by rw [hitems]; simp at hother ⊢; exact .inr hother)

theorem settle (h : l.Sound) {number : Nat} {rest : Multiset Item}
    (hitems : l.items = .leaving number ::ₘ rest) {returned rolledBack : List Nat}
    (hsettled : ∀ k, returned.count k + rolledBack.count k =
      l.returned.count k + l.rolledBack.count k + if number = k then 1 else 0) :
    Sound
      { l with
        leased := sizeSub l.leased 1
        returned
        rolledBack
        items := rest } := by
  refine ⟨h.positive, h.noWrap, ?_, h.cap, ?_, ?_, ?_, h.freeSize, ?_⟩
  · simpa [hitems, Item.isLease, Item.isOwed] using h.allocated
  · have hleased := h.leased
    simp only [hitems, tally_cons, Item.isLease, Item.isLeaving, sizeSub] at hleased ⊢
    grind
  · intro k
    have honce := h.once k
    have hk := hsettled k
    simp only [entries, hitems, tally_cons, Item.isLeaseOf] at honce ⊢
    grind
  · intro id
    simpa [copies, hitems, Item.isSlab] using h.distinct id
  · intro slab hslab
    exact h.heldSize slab (by rw [hitems]; exact Multiset.mem_cons_of_mem hslab)

end Sound

theorem sound_posting {l l' : Ledger} (h : l.Sound) (hposting : Posting l l') : l'.Sound := by
  cases hposting with
  | none => exact h
  | pop free slab hfree => exact h.pop hfree
  | grow hfits => exact h.grow hfits
  | count rest hitems => exact h.count hitems
  | allocate => exact h.allocate
  | refund number rest hitems => exact h.refund hitems
  | giveBack number slab rest hitems => exact h.giveBack hitems
  | rollBack number rest hitems =>
      refine h.settle hitems ?_
      intro k
      rw [List.count_append, List.count_singleton]
      grind
  | settle number rest hitems =>
      refine h.settle hitems ?_
      intro k
      rw [List.count_append, List.count_singleton]
      grind

end Ledger

end Buffers
end AudioFork
