import Mathlib.Logic.Relation
import AudioFork.Buffers.DryPool
import AudioFork.Buffers.JitterBuffer
import AudioFork.Buffers.Newest
import AudioFork.Buffers.QueueFifo

/-!
# Holding — the slabs of one fork

A fork leases slabs for two buffers, and it does so through few operations.  `Handling` lists them.
Whatever sequence of them a fork runs, the slabs it holds and those left in the pool make the same
number (`Handling.slabs`, when nobody else uses the pool), and it never holds more than its caps ask
for (`Fits.handling`, whatever the others do).  A pool with that many slabs refuses it none
(`Fed.handling`).
-/

namespace AudioFork
namespace Buffers

variable {β : Type} {S : ℕ+}

/-- The two buffers, the pool, and the two flags a fork keeps about it. -/
structure Holding (β : Type) (S : ℕ+) where
  buffer : SendBuffer β S
  jitter : Option (JitterBuffer β S)
  supply : SlabSupply
  degraded : Bool
  poolStarved : Bool

namespace Holding

/-- The slabs held. -/
def leases (h : Holding β S) : Nat :=
  h.buffer.queue.chunks.length + h.jitter.elim 0 fun jitter => jitter.queue.chunks.length

/-- The slabs held and those the pool could still lease. -/
def slabs (h : Holding β S) : Nat := h.leases + h.supply.available

end Holding

/-- One operation on the buffers.  The cap is cut only after the pool has refused a slab. -/
inductive Handling (others : Nat → Nat → Nat) (sendCap emergencyCap : Nat) (h : Holding β S) :
    Holding β S → Prop
  | append (bytes : List β) :
      Handling others sendCap emergencyCap h
        { h with
          buffer := (h.buffer.append others h.supply bytes).2.1
          supply := (h.buffer.append others h.supply bytes).2.2
          poolStarved := (h.buffer.append others h.supply bytes).1.poolExhausted }
  | cut (hstarved : h.poolStarved = true) :
      Handling others sendCap emergencyCap h
        { h with
          buffer := (h.buffer.setCap h.supply emergencyCap).2.1
          supply := (h.buffer.setCap h.supply emergencyCap).2.2
          degraded := true }
  | restore :
      Handling others sendCap emergencyCap h
        { h with
          buffer := (h.buffer.setCap h.supply sendCap).2.1
          supply := (h.buffer.setCap h.supply sendCap).2.2
          degraded := false }
  | consume (bytes : Nat) :
      Handling others sendCap emergencyCap h
        { h with
          buffer := (h.buffer.consume h.supply bytes).1
          supply := (h.buffer.consume h.supply bytes).2 }
  | clear :
      Handling others sendCap emergencyCap h
        { h with
          buffer := (h.buffer.clear h.supply).1
          supply := (h.buffer.clear h.supply).2 }
  | receive {jitter : JitterBuffer β S} (hjitter : h.jitter = some jitter) (bytes : List β) :
      Handling others sendCap emergencyCap h
        { h with
          jitter := some (jitter.append others h.supply bytes).2.1
          supply := (jitter.append others h.supply bytes).2.2 }
  | play {jitter : JitterBuffer β S} (hjitter : h.jitter = some jitter) (bytes : Nat) :
      Handling others sendCap emergencyCap h
        { h with
          jitter := some (jitter.consume h.supply bytes).1
          supply := (jitter.consume h.supply bytes).2 }
  | silence {jitter : JitterBuffer β S} (hjitter : h.jitter = some jitter) :
      Handling others sendCap emergencyCap h
        { h with
          jitter := some (jitter.clear h.supply).1
          supply := (jitter.clear h.supply).2 }
  /-- The marks are no memory. -/
  | mark {jitter jitter' : JitterBuffer β S} (hjitter : h.jitter = some jitter)
      (hqueue : jitter'.queue = jitter.queue) (hcap : jitter'.capBytes = jitter.capBytes) :
      Handling others sendCap emergencyCap h { h with jitter := some jitter' }

section

variable {others : Nat → Nat → Nat} {sendCap emergencyCap jitterCap : Nat} {h h' : Holding β S}

/-! ## Nothing is lost -/

theorem SendBuffer.slabs_append (b : SendBuffer β S) (p : SlabSupply) (bytes : List β) :
    (b.append SlabQueue.alone p bytes).2.1.slabs (b.append SlabQueue.alone p bytes).2.2 =
      b.slabs p := by
  by_cases hskip : bytes = [] ∨ b.capBytes = 0
  · rw [append_skip _ p hskip]
  · rcases not_or.mp hskip with ⟨hbytes, hcap⟩
    rw [append_eq _ p hbytes hcap]
    refine retryLoop_invariant (P := fun b' p' => b'.slabs p' = b.slabs p) ?_ ?_ _ _
      (slabs_capped b p _)
    · intro b' p' read h
      exact (slabs_store b' p' read).trans h
    · intro b' p' n h
      exact (SlabQueue.slabs_consume S b'.queue p' n).trans h

theorem SendBuffer.slabs_setCap (b : SendBuffer β S) (p : SlabSupply) (capBytes : Nat) :
    (b.setCap p capBytes).2.1.slabs (b.setCap p capBytes).2.2 = b.slabs p := by
  unfold setCap
  simp only
  split
  · rfl
  · exact SlabQueue.slabs_consume S b.queue p _

theorem SlabQueue.slabs_clear (q : SlabQueue β) (p : SlabSupply) :
    (q.clear p).1.slabs (q.clear p).2 = q.slabs p := by
  simp [slabs, clear, empty, SlabSupply.release, Nat.add_comm]

theorem JitterBuffer.slabs_append (b : JitterBuffer β S) (p : SlabSupply) (bytes : List β) :
    (b.append SlabQueue.alone p bytes).2.1.queue.slabs (b.append SlabQueue.alone p bytes).2.2 =
      b.queue.slabs p := by
  unfold append
  split
  · rfl
  · exact (SlabQueue.slabs_appendLoop _ p b.ok (Nat.le_refl _)).1

namespace Holding

/-- A change of the send buffer alone. -/
theorem slabs_send (hjitter : h'.jitter = h.jitter)
    (hslabs : h'.buffer.slabs h'.supply = h.buffer.slabs h.supply) : h'.slabs = h.slabs := by
  unfold SendBuffer.slabs SlabQueue.slabs at hslabs
  unfold slabs leases
  rw [hjitter]
  omega

/-- A change of the jitter buffer alone. -/
theorem slabs_jitter {jitter jitter' : JitterBuffer β S} {supply : SlabSupply}
    (hjitter : h.jitter = some jitter)
    (hslabs : jitter'.queue.slabs supply = jitter.queue.slabs h.supply) :
    slabs { h with jitter := some jitter', supply := supply } = h.slabs := by
  unfold SlabQueue.slabs at hslabs
  simp only [slabs, leases, hjitter, Option.elim_some]
  omega

end Holding

/-- With nobody else at the pool, a slab is held or left. -/
theorem Handling.slabs (hstep : Handling SlabQueue.alone sendCap emergencyCap h h') :
    h'.slabs = h.slabs := by
  cases hstep with
  | append bytes => exact Holding.slabs_send rfl (h.buffer.slabs_append h.supply bytes)
  | cut _ => exact Holding.slabs_send rfl (h.buffer.slabs_setCap h.supply _)
  | restore => exact Holding.slabs_send rfl (h.buffer.slabs_setCap h.supply _)
  | consume bytes => exact Holding.slabs_send rfl (SlabQueue.slabs_consume S _ _ bytes)
  | clear => exact Holding.slabs_send rfl (SlabQueue.slabs_clear _ _)
  | receive hjitter bytes => exact Holding.slabs_jitter hjitter (JitterBuffer.slabs_append _ _ bytes)
  | play hjitter bytes => exact Holding.slabs_jitter hjitter (SlabQueue.slabs_consume S _ _ bytes)
  | silence hjitter => exact Holding.slabs_jitter hjitter (SlabQueue.slabs_clear _ _)
  | mark hjitter hqueue _ => exact Holding.slabs_jitter hjitter (by rw [hqueue])

/-! ## Nothing is hoarded -/

/-- What a packed queue of `bytes` bytes may lease: the slabs in between are full, and there is one in
front and one behind. -/
def slabsFor (S : ℕ+) (bytes : Nat) : Nat := (bytes - 2) / (S : Nat) + 2

theorem slabsFor_mono (S : ℕ+) {bytes more : Nat} (h : bytes ≤ more) :
    slabsFor S bytes ≤ slabsFor S more :=
  Nat.add_le_add_right (Nat.div_le_div_right (Nat.sub_le_sub_right h 2)) 2

theorem SlabQueue.leased_le_slabsFor {q : SlabQueue β} {bytes : Nat} (hok : q.Ok S)
    (hpacked : q.Packed) (h : q.size ≤ bytes) : q.chunks.length ≤ slabsFor S bytes :=
  (leased_le hok hpacked).trans (slabsFor_mono S h)

/-- The cap the fork is under. -/
def Holding.cap (sendCap emergencyCap : Nat) (h : Holding β S) : Nat :=
  if h.degraded then emergencyCap else sendCap

/-- Both buffers are packed and within their caps. -/
structure Holding.Fits (sendCap emergencyCap jitterCap : Nat) (h : Holding β S) : Prop where
  packed : h.buffer.queue.Packed
  within : h.buffer.size ≤ h.buffer.capBytes
  capBytes : h.buffer.capBytes = h.cap sendCap emergencyCap
  playback : ∀ jitter, h.jitter = some jitter →
    jitter.queue.Packed ∧ jitter.size ≤ jitter.capBytes ∧ jitter.capBytes = jitterCap

theorem SlabQueue.packed_empty : (SlabQueue.empty : SlabQueue β).Packed :=
  fun _ hn => absurd hn List.not_mem_nil

theorem SendBuffer.size_consume_le (b : SendBuffer β S) (p : SlabSupply) (bytes : Nat) :
    (b.consume p bytes).1.size ≤ b.size := by
  rw [size_eq, size_eq, content_consume, List.length_drop]
  exact Nat.sub_le _ _

theorem JitterBuffer.size_consume_le (b : JitterBuffer β S) (p : SlabSupply) (bytes : Nat) :
    (b.consume p bytes).1.size ≤ b.size := by
  rw [size_eq, size_eq, content_consume, List.length_drop]
  exact Nat.sub_le _ _

theorem SendBuffer.append_fits (others : Nat → Nat → Nat) {b : SendBuffer β S} (p : SlabSupply)
    (bytes : List β) (h : b.size ≤ b.capBytes) :
    (b.append others p bytes).2.1.size ≤ b.capBytes := by
  by_cases hcap : b.capBytes = 0
  · rw [append_skip others p (Or.inr hcap)]
    exact h
  · rw [size_eq] at h ⊢
    exact (append_suffix others p bytes hcap h).2.2

theorem SendBuffer.setCap_fits (b : SendBuffer β S) (p : SlabSupply) (capBytes : Nat)
    (h : b.queue.Packed) :
    (b.setCap p capBytes).2.1.queue.Packed ∧ (b.setCap p capBytes).2.1.size ≤ capBytes := by
  unfold setCap
  simp only
  split
  · rename_i hfits
    exact ⟨h, hfits⟩
  · refine ⟨h.consume p _, ?_⟩
    -- what is dropped is what the cap is too small for
    show SendBuffer.size (consume { b with capBytes := capBytes } p (b.size - capBytes)).1 ≤ capBytes
    rw [size_eq, content_consume, List.length_drop, ← size_eq]
    show b.size - (b.size - capBytes) ≤ capBytes
    omega

theorem JitterBuffer.append_size_le (others : Nat → Nat → Nat) {b : JitterBuffer β S}
    (p : SlabSupply) (bytes : List β) (h : b.size ≤ b.capBytes) :
    (b.append others p bytes).2.1.size ≤ b.capBytes := by
  unfold append
  split
  · exact h
  · rcases SlabQueue.append_spec others p (bytes.take b.room) b.ok with ⟨hle, hlist, hok⟩
    rw [List.length_take] at hle
    have hsize : (b.queue.append S others p (bytes.take b.room)).2.1.size ≤ b.size + b.room := by
      rw [hok.size_eq, hlist, List.length_append, List.length_take, List.length_take]
      have hbefore : b.queue.toList.length = b.size := b.ok.size_eq.symm
      omega
    have hfull : b.size + b.room ≤ b.capBytes := by
      unfold room size at *
      omega
    exact hsize.trans hfull

theorem JitterBuffer.append_fits (others : Nat → Nat → Nat) {b : JitterBuffer β S} (p : SlabSupply)
    (bytes : List β) (hpacked : b.queue.Packed) (h : b.size ≤ b.capBytes) :
    (b.append others p bytes).2.1.queue.Packed ∧
      (b.append others p bytes).2.1.size ≤ b.capBytes ∧
      (b.append others p bytes).2.1.capBytes = b.capBytes := by
  have hroom := append_size_le others p bytes h
  unfold append at hroom ⊢
  split at hroom
  · rename_i hskip
    rw [if_pos hskip]
    exact ⟨hpacked, h, rfl⟩
  · rename_i hopen
    rw [if_neg hopen]
    exact ⟨hpacked.appendLoop _ p _, hroom, rfl⟩

namespace Holding.Fits

/-- A change of the playback side alone. -/
theorem hear (hfits : h.Fits sendCap emergencyCap jitterCap) {jitter : JitterBuffer β S}
    {supply : SlabSupply} (hpacked : jitter.queue.Packed) (hwithin : jitter.size ≤ jitter.capBytes)
    (hcap : jitter.capBytes = jitterCap) :
    Fits sendCap emergencyCap jitterCap { h with jitter := some jitter, supply := supply } := by
  refine ⟨hfits.packed, hfits.within, hfits.capBytes, ?_⟩
  rintro _ ⟨⟩
  exact ⟨hpacked, hwithin, hcap⟩

theorem handling (hfits : h.Fits sendCap emergencyCap jitterCap)
    (hstep : Handling others sendCap emergencyCap h h') :
    h'.Fits sendCap emergencyCap jitterCap := by
  cases hstep with
  | append bytes =>
      have hcap := SendBuffer.capBytes_append others h.buffer h.supply bytes
      refine ⟨SendBuffer.packed_append others h.supply bytes hfits.packed, ?_,
        hcap.trans hfits.capBytes, hfits.playback⟩
      rw [hcap]
      exact SendBuffer.append_fits others h.supply bytes hfits.within
  | cut _ =>
      have hcap := SendBuffer.capBytes_setCap h.buffer h.supply emergencyCap
      rcases h.buffer.setCap_fits h.supply emergencyCap hfits.packed with ⟨hpacked, hwithin⟩
      exact ⟨hpacked, hwithin.trans_eq hcap.symm, hcap, hfits.playback⟩
  | restore =>
      have hcap := SendBuffer.capBytes_setCap h.buffer h.supply sendCap
      rcases h.buffer.setCap_fits h.supply sendCap hfits.packed with ⟨hpacked, hwithin⟩
      exact ⟨hpacked, hwithin.trans_eq hcap.symm, hcap, hfits.playback⟩
  | consume bytes =>
      exact ⟨hfits.packed.consume h.supply bytes,
        (h.buffer.size_consume_le h.supply bytes).trans hfits.within, hfits.capBytes,
        hfits.playback⟩
  | clear => exact ⟨SlabQueue.packed_empty, Nat.zero_le _, hfits.capBytes, hfits.playback⟩
  | receive hjitter bytes =>
      rcases hfits.playback _ hjitter with ⟨hpacked, hwithin, hcap⟩
      rcases JitterBuffer.append_fits others h.supply bytes hpacked hwithin with
        ⟨hpacked', hwithin', hcap'⟩
      exact hfits.hear hpacked' (hwithin'.trans_eq hcap'.symm) (hcap'.trans hcap)
  | play hjitter bytes =>
      rcases hfits.playback _ hjitter with ⟨hpacked, hwithin, hcap⟩
      exact hfits.hear (hpacked.consume h.supply bytes)
        ((JitterBuffer.size_consume_le _ h.supply bytes).trans hwithin) hcap
  | silence hjitter =>
      exact hfits.hear SlabQueue.packed_empty (Nat.zero_le _) (hfits.playback _ hjitter).2.2
  | mark hjitter hqueue hcap =>
      rcases hfits.playback _ hjitter with ⟨hpacked, hwithin, hcap'⟩
      refine hfits.hear (hqueue ▸ hpacked) ?_ (hcap.trans hcap')
      unfold JitterBuffer.size
      rw [hqueue, hcap]
      exact hwithin

theorem send_le (hfits : h.Fits sendCap emergencyCap jitterCap) :
    h.buffer.queue.chunks.length ≤ slabsFor S (h.cap sendCap emergencyCap) :=
  SlabQueue.leased_le_slabsFor h.buffer.ok hfits.packed (hfits.within.trans_eq hfits.capBytes)

theorem playback_le (hfits : h.Fits sendCap emergencyCap jitterCap) :
    (h.jitter.elim 0 fun jitter => jitter.queue.chunks.length) ≤ slabsFor S jitterCap := by
  cases hjitter : h.jitter with
  | none => exact Nat.zero_le _
  | some jitter =>
      rcases hfits.playback jitter hjitter with ⟨hpacked, hwithin, hcap⟩
      exact hcap ▸ SlabQueue.leased_le_slabsFor jitter.ok hpacked hwithin

end Holding.Fits

/-! ## Nothing is refused -/

namespace SendBuffer

/-- A pool that could fill the cap takes every frame that fits under it. -/
theorem leftover_ample {b : SendBuffer β S} {p : SlabSupply} {read : List β} {capBytes : Nat}
    (hpacked : b.queue.Packed) (hslabs : slabsFor S capBytes ≤ b.slabs p)
    (hfits : b.content.length + read.length ≤ capBytes) :
    b.leftover SlabQueue.alone p read = [] := by
  by_contra hleft
  have hsome : 1 ≤ (b.leftover SlabQueue.alone p read).length := List.length_pos_iff.mpr hleft
  have hlength := length_append_leftover SlabQueue.alone b p read
  unfold slabsFor at hslabs
  have hone : 1 ≤ b.slabs p := Nat.le_trans (Nat.succ_le_succ (Nat.zero_le _)) hslabs
  have hfull := store_full hpacked hone hleft
  -- the slabs but one are full, the last holds a byte, and a byte is left over
  have hmany : (b.slabs p - 1) * (S : Nat) ≤ capBytes - 2 := by omega
  have hfew : b.slabs p - 1 ≤ (capBytes - 2) / (S : Nat) := (Nat.le_div_iff_mul_le S.pos).mpr hmany
  omega

theorem append_ample {b : SendBuffer β S} {p : SlabSupply} (bytes : List β)
    (hpacked : b.queue.Packed) (hslabs : slabsFor S b.capBytes ≤ b.slabs p) :
    (b.append SlabQueue.alone p bytes).1.poolExhausted = false := by
  by_cases hskip : bytes = [] ∨ b.capBytes = 0
  · rw [append_skip _ p hskip]
  · rcases not_or.mp hskip with ⟨hbytes, hcap⟩
    have hnewest := length_newest b bytes
    have hfits : (b.capped p (b.newest bytes).length).2.1.content.length + (b.newest bytes).length ≤
        b.capBytes := by
      rcases capped_spec b p (b.newest bytes).length with ⟨hdropped, hcontent⟩
      rw [hcontent, List.length_drop]
      omega
    have hread : b.newest bytes ≠ [] := by
      have hpos := List.length_pos_iff.mpr hbytes
      refine List.length_pos_iff.mp ?_
      omega
    have hleft := leftover_ample (packed_capped p _ hpacked)
      (hslabs.trans_eq (slabs_capped b p _).symm) hfits
    rw [append_eq _ p hbytes hcap, retryLoop_stored _ _ hread hleft]

end SendBuffer

namespace Holding

/-- The pool has refused the fork nothing. -/
def Fed (h : Holding β S) : Prop := h.degraded = false ∧ h.poolStarved = false

theorem Fed.cap_eq (hfed : h.Fed) : h.cap sendCap emergencyCap = sendCap := by
  unfold cap
  rw [hfed.1]
  rfl

/-- A fork that nothing was refused holds what its two caps take. -/
theorem Fits.leases_le (hfits : h.Fits sendCap emergencyCap jitterCap) (hfed : h.Fed) :
    h.leases ≤ slabsFor S sendCap + slabsFor S jitterCap := by
  have hsend := hfits.send_le
  rw [hfed.cap_eq] at hsend
  exact Nat.add_le_add hsend hfits.playback_le

/-- With that many slabs to hold, nothing will be refused. -/
theorem Fed.handling (hfed : h.Fed) (hfits : h.Fits sendCap emergencyCap jitterCap)
    (hslabs : slabsFor S sendCap + slabsFor S jitterCap ≤ h.slabs)
    (hstep : Handling SlabQueue.alone sendCap emergencyCap h h') : h'.Fed := by
  cases hstep with
  | append bytes =>
      refine ⟨hfed.1, SendBuffer.append_ample bytes hfits.packed ?_⟩
      rw [hfits.capBytes, hfed.cap_eq]
      have hplayback := hfits.playback_le
      unfold slabs leases at hslabs
      unfold SendBuffer.slabs SlabQueue.slabs
      omega
  | cut hstarved =>
      rw [hfed.2] at hstarved
      cases hstarved
  | restore => exact ⟨rfl, hfed.2⟩
  | _ => exact hfed

end Holding

end

end Buffers
end AudioFork
