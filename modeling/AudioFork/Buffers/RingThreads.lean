import AudioFork.Buffers.SpscRing
import AudioFork.Lib.RingWindow
import AudioFork.Lib.Runs

/-!
# RingThreads — the byte ring between its two threads

`SpscByteRing` models a ring between two calls.  Here one producer and one consumer run `Push` and
`Pop` step by step: each loads its own index, then the other's, copies byte by byte, and publishes its
index.  Indices are 64-bit counters that wrap; a cell is found by masking them.  Steps interleave in
any order, and a step that is not the next one of its thread does nothing.

The histories `accepted` and `popped` tell what the calls returned.  The ring of `SpscRing` is what
this one looks like from outside (`represents_step`).
-/

namespace AudioFork
namespace Buffers

open Lib

variable {β : Type}

/-- Where the producer is. -/
inductive Producer (β : Type)
  | idle
  /-- `Push` with its own index loaded. -/
  | sawHead (frame : List β) (head : BitVec 64)
  /-- In `CopyIn`, `done` bytes into the frame. -/
  | copying (frame : List β) (head : BitVec 64) (done : Nat)
  deriving DecidableEq, Repr

/-- Where the consumer is. -/
inductive Consumer (β : Type)
  | idle
  /-- `Pop` into `room` bytes, with its own index loaded. -/
  | sawTail (room : Nat) (tail : BitVec 64)
  /-- In `CopyOut`, with `dest` copied so far. -/
  | copying (count : Nat) (tail : BitVec 64) (dest : List β)
  deriving DecidableEq, Repr

structure RingThreads (β : Type) where
  storage : List β
  mask : BitVec 64
  head : BitVec 64
  tail : BitVec 64
  producer : Producer β
  consumer : Consumer β
  /-- The frames for which `Push` published, in order. -/
  accepted : List (List β)
  /-- What `Pop` returned, in order. -/
  popped : List β
  deriving DecidableEq, Repr

inductive RingStep (β : Type)
  | push (frame : List β)
  | loadTail
  | write
  | publish
  | pop (room : Nat)
  | loadHead
  | read
  | release
  deriving DecidableEq, Repr

namespace RingThreads

def create [Inhabited β] (minCapacity : Nat) : Option (RingThreads β) :=
  (SpscByteRing.create minCapacity : Option (SpscByteRing β)).map fun ring =>
    { storage := List.replicate ring.capacity default
      mask := BitVec.ofNat 64 (ring.capacity - 1)
      head := 0
      tail := 0
      producer := .idle
      consumer := .idle
      accepted := []
      popped := [] }

/-- `index & mask_`. -/
def cell (r : RingThreads β) (index : BitVec 64) : Nat := (index &&& r.mask).toNat

/-- The cell of byte `j` of a copy that starts at `index`: `CopyIn` and `CopyOut` copy up to the end of
the storage first and the rest from its beginning. -/
def copyCell (r : RingThreads β) (index : BitVec 64) (j : Nat) : Nat :=
  let first := r.storage.length - r.cell index
  if j < first then r.cell index + j else j - first

/-- `storage_.size() - (head - tail)`. -/
def freeBytes (r : RingThreads β) (head tail : BitVec 64) : Nat :=
  (BitVec.ofNat 64 r.storage.length - (head - tail)).toNat

def step (r : RingThreads β) : RingStep β → RingThreads β
  | .push frame =>
      match r.producer with
      | .idle => { r with producer := .sawHead frame r.head }
      | _ => r
  | .loadTail =>
      match r.producer with
      | .sawHead frame head =>
          if frame.length > r.freeBytes head r.tail then
            { r with producer := .idle }
          else
            { r with producer := .copying frame head 0 }
      | _ => r
  | .write =>
      match r.producer with
      | .copying frame head done =>
          match frame[done]? with
          | some byte =>
              { r with
                storage := r.storage.set (r.copyCell head done) byte
                producer := .copying frame head (done + 1) }
          | none => r
      | _ => r
  | .publish =>
      match r.producer with
      | .copying frame head done =>
          if done = frame.length then
            { r with
              head := head + BitVec.ofNat 64 frame.length
              producer := .idle
              accepted := r.accepted ++ [frame] }
          else
            r
      | _ => r
  | .pop room =>
      match r.consumer with
      | .idle => { r with consumer := .sawTail room r.tail }
      | _ => r
  | .loadHead =>
      match r.consumer with
      | .sawTail room tail =>
          { r with consumer := .copying (min room (r.head - tail).toNat) tail [] }
      | _ => r
  | .read =>
      match r.consumer with
      | .copying count tail dest =>
          if dest.length < count then
            match r.storage[r.copyCell tail dest.length]? with
            | some byte => { r with consumer := .copying count tail (dest ++ [byte]) }
            | none => r
          else
            r
      | _ => r
  | .release =>
      match r.consumer with
      | .copying count tail dest =>
          if dest.length = count then
            { r with
              tail := tail + BitVec.ofNat 64 count
              consumer := .idle
              popped := r.popped ++ dest }
          else
            r
      | _ => r

/-! ## What can be seen of a ring -/

/-- The cells that are published and not yet released, oldest first. -/
def unreleased (r : RingThreads β) : List Nat :=
  (List.range (r.head - r.tail).toNat).map fun i => r.cell (r.tail + BitVec.ofNat 64 i)

/-- The bytes currently published. -/
def published (r : RingThreads β) : List β := r.unreleased.filterMap fun c => r.storage[c]?

/-- The cell the producer writes next. -/
def writeCell (r : RingThreads β) : Option Nat :=
  match r.producer with
  | .copying frame head done => if done < frame.length then some (r.copyCell head done) else none
  | _ => none

/-- The cell the consumer reads next. -/
def readCell (r : RingThreads β) : Option Nat :=
  match r.consumer with
  | .copying count tail dest =>
      if dest.length < count then some (r.copyCell tail dest.length) else none
  | _ => none

end RingThreads

/-! ## Counters that wrap -/

theorem toNat_index_sub {a b : Nat} (hle : a ≤ b) (hlt : b - a < 2 ^ 64) :
    (BitVec.ofNat 64 b - BitVec.ofNat 64 a).toNat = b - a := by
  rw [BitVec.toNat_sub, BitVec.toNat_ofNat, BitVec.toNat_ofNat]
  omega

theorem toNat_index_mask {k : Nat} (hk : k ≤ 31) (a : Nat) :
    (BitVec.ofNat 64 a &&& BitVec.ofNat 64 (2 ^ k - 1)).toNat = a % 2 ^ k := by
  have hdvd : 2 ^ k ∣ 2 ^ 64 := Nat.pow_dvd_pow 2 (by omega)
  have hsmall : 2 ^ k - 1 < 2 ^ 64 := by
    have hle := Nat.le_of_dvd (by decide) hdvd
    omega
  rw [BitVec.toNat_and, BitVec.toNat_ofNat, BitVec.toNat_ofNat, Nat.mod_eq_of_lt hsmall,
    Nat.and_two_pow_sub_one_eq_mod, Nat.mod_mod_of_dvd _ hdvd]

theorem roundUp_eq_pow (minCapacity : Nat) :
    ∀ rounds a, ∃ k, k ≤ a + rounds ∧ SpscByteRing.roundUp minCapacity rounds (2 ^ a) = 2 ^ k := by
  intro rounds
  induction rounds with
  | zero => exact fun a => ⟨a, Nat.le_refl _, rfl⟩
  | succ rounds ih =>
      intro a
      unfold SpscByteRing.roundUp
      split
      · rcases ih (a + 1) with ⟨k, hk, hround⟩
        exact ⟨k, by omega, by rw [← Nat.pow_succ, hround]⟩
      · exact ⟨a, by omega, rfl⟩

/-- `Create` yields powers of two. -/
theorem capacity_eq_pow {minCapacity : Nat} {ring : SpscByteRing β}
    (h : SpscByteRing.create minCapacity = some ring) :
    ring.bytes = [] ∧ ∃ k, k ≤ 31 ∧ ring.capacity = 2 ^ k := by
  unfold SpscByteRing.create at h
  split at h
  · cases h
  · cases h
    exact ⟨rfl, by simpa using roundUp_eq_pow minCapacity 31 0⟩

namespace RingThreads

/-! ## Invariant -/

/-- The accepted bytes. -/
def stream (r : RingThreads β) : List β := r.accepted.flatten

/-- What the producer knows.  `head_` counts the bytes accepted so far, `tail_` those released. -/
def ProducerOk (r : RingThreads β) : Prop :=
  match r.producer with
  | .idle => True
  | .sawHead _ head => head = r.head
  | .copying frame head done =>
      -- the snapshot of `tail` may be old by now, but the consumer has only freed more since
      head = r.head ∧ done ≤ frame.length ∧
        r.stream.length + frame.length ≤ r.popped.length + r.storage.length ∧
        Window r.storage (r.stream ++ frame) r.popped.length (r.stream.length + done)

/-- What the consumer knows. -/
def ConsumerOk (r : RingThreads β) : Prop :=
  match r.consumer with
  | .idle => True
  | .sawTail _ tail => tail = r.tail
  | .copying count tail dest =>
      tail = r.tail ∧ r.popped.length + count ≤ r.stream.length ∧ dest.length ≤ count ∧
        dest = (r.stream.drop r.popped.length).take dest.length

/-- Whatever the producer has published since, the consumer's snapshot is good. -/
theorem ConsumerOk.published {r r' : RingThreads β} (h : r.ConsumerOk)
    (hconsumer : r'.consumer = r.consumer) (htail : r'.tail = r.tail)
    (hpopped : r'.popped = r.popped) {more : List β} (hstream : r'.stream = r.stream ++ more) :
    r'.ConsumerOk := by
  unfold ConsumerOk at h ⊢
  rw [hconsumer, htail, hpopped, hstream]
  split
  · trivial
  · rename_i heq
    rw [heq] at h
    exact h
  · rename_i count tail dest heq
    rw [heq] at h
    rcases h with ⟨htail, hcount, hdest, hread⟩
    refine ⟨htail, ?_, hdest, ?_⟩
    · rw [List.length_append]
      omega
    · rw [List.drop_append_of_le_length (by omega), List.take_append_of_le_length]
      · exact hread
      · rw [List.length_drop]
        omega

/-- Whatever the consumer has released since, the producer's snapshot is good. -/
theorem ProducerOk.released {r r' : RingThreads β} (h : r.ProducerOk)
    (hproducer : r'.producer = r.producer) (hhead : r'.head = r.head)
    (hstream : r'.stream = r.stream) (hstorage : r'.storage = r.storage)
    (hpopped : r.popped.length ≤ r'.popped.length) : r'.ProducerOk := by
  unfold ProducerOk at h ⊢
  rw [hproducer, hhead, hstream, hstorage]
  split
  · trivial
  · rename_i heq
    rw [heq] at h
    exact h
  · rename_i frame head done heq
    rw [heq] at h
    rcases h with ⟨hhead, hdone, hroom, hwindow⟩
    exact ⟨hhead, hdone, by omega, hwindow.narrow hpopped (Nat.le_refl _)⟩

structure Sound (r : RingThreads β) : Prop where
  capacity : ∃ k, k ≤ 31 ∧ r.storage.length = 2 ^ k
  mask : r.mask = BitVec.ofNat 64 (r.storage.length - 1)
  head : r.head = BitVec.ofNat 64 r.stream.length
  tail : r.tail = BitVec.ofNat 64 r.popped.length
  popped : r.popped <+: r.stream
  bounded : r.stream.length ≤ r.popped.length + r.storage.length
  window : Window r.storage r.stream r.popped.length r.stream.length
  producer : r.ProducerOk
  consumer : r.ConsumerOk

namespace Sound

variable {r : RingThreads β}

theorem pos (h : r.Sound) : 0 < r.storage.length := by
  rcases h.capacity with ⟨k, -, hk⟩
  rw [hk]
  exact Nat.two_pow_pos k

theorem small (h : r.Sound) : r.storage.length ≤ 2 ^ 31 := by
  rcases h.capacity with ⟨k, hle, hk⟩
  rw [hk]
  exact Nat.pow_le_pow_right (by decide) hle

theorem fill (h : r.Sound) : (r.head - r.tail).toNat = r.stream.length - r.popped.length := by
  have hsmall := h.small
  have hbounded := h.bounded
  rw [h.head, h.tail]
  exact toNat_index_sub h.popped.length_le (by omega)

theorem cell_eq (h : r.Sound) (i : Nat) : r.cell (BitVec.ofNat 64 i) = i % r.storage.length := by
  rcases h.capacity with ⟨k, hle, hk⟩
  unfold cell
  rw [h.mask, hk]
  exact toNat_index_mask hle i

theorem copyCell_eq (h : r.Sound) (i : Nat) {j : Nat} (hj : j < r.storage.length) :
    r.copyCell (BitVec.ofNat 64 i) j = (i + j) % r.storage.length := by
  have hlt : i % r.storage.length < r.storage.length := Nat.mod_lt i h.pos
  have hsum : (i + j) % r.storage.length = (i % r.storage.length + j) % r.storage.length :=
    (Nat.mod_add_mod i r.storage.length j).symm
  unfold copyCell
  rw [h.cell_eq i, hsum]
  generalize i % r.storage.length = offset at hlt ⊢
  simp only
  split
  · rw [Nat.mod_eq_of_lt (by omega)]
  · -- past the end of the storage the copy goes on at its beginning
    rw [Nat.mod_eq_sub_mod (by omega), Nat.mod_eq_of_lt (by omega)]
    omega

theorem unreleased_eq (h : r.Sound) :
    r.unreleased = (List.range (r.stream.length - r.popped.length)).map fun i =>
      (r.popped.length + i) % r.storage.length := by
  unfold unreleased
  rw [h.fill]
  refine List.map_congr_left ?_
  intro i _
  rw [h.tail, ← BitVec.ofNat_add, h.cell_eq]

theorem published_eq (h : r.Sound) : r.published = r.stream.drop r.popped.length := by
  have hle := h.popped.length_le
  unfold published
  rw [h.unreleased_eq, List.filterMap_map]
  refine (h.window.read (by omega)).trans ?_
  exact List.take_of_length_le (Nat.le_of_eq List.length_drop)

theorem split (h : r.Sound) : r.popped ++ r.published = r.stream := by
  rcases h.popped with ⟨rest, hrest⟩
  rw [h.published_eq, ← hrest, List.drop_left]

theorem freeBytes_eq (h : r.Sound) :
    r.freeBytes r.head r.tail = r.storage.length - (r.stream.length - r.popped.length) := by
  have hsmall := h.small
  have hbounded := h.bounded
  have hfill := h.fill
  unfold freeBytes
  rw [BitVec.toNat_sub, hfill, BitVec.toNat_ofNat]
  omega

/-! ## Steps -/

/-- A step that moves the producer and nothing else. -/
theorem moveProducer (h : r.Sound) {p : Producer β} (hp : { r with producer := p }.ProducerOk) :
    Sound { r with producer := p } :=
  ⟨h.capacity, h.mask, h.head, h.tail, h.popped, h.bounded, h.window, hp, h.consumer⟩

theorem moveConsumer (h : r.Sound) {c : Consumer β} (hc : { r with consumer := c }.ConsumerOk) :
    Sound { r with consumer := c } :=
  ⟨h.capacity, h.mask, h.head, h.tail, h.popped, h.bounded, h.window, h.producer, hc⟩

/-- The producer's own index is still what it loaded. -/
theorem sawHead (h : r.Sound) {frame : List β} {head : BitVec 64}
    (hproducer : r.producer = .sawHead frame head) : head = r.head := by
  have hknows := h.producer
  unfold ProducerOk at hknows
  rw [hproducer] at hknows
  exact hknows

/-- What a producer in `CopyIn` knows. -/
theorem copyingIn (h : r.Sound) {frame : List β} {head : BitVec 64} {done : Nat}
    (hproducer : r.producer = .copying frame head done) :
    head = r.head ∧ done ≤ frame.length ∧
      r.stream.length + frame.length ≤ r.popped.length + r.storage.length ∧
      Window r.storage (r.stream ++ frame) r.popped.length (r.stream.length + done) := by
  have hknows := h.producer
  unfold ProducerOk at hknows
  rw [hproducer] at hknows
  exact hknows

/-- What a consumer in `CopyOut` knows. -/
theorem copyingOut (h : r.Sound) {count : Nat} {tail : BitVec 64} {dest : List β}
    (hconsumer : r.consumer = .copying count tail dest) :
    tail = r.tail ∧ r.popped.length + count ≤ r.stream.length ∧ dest.length ≤ count ∧
      dest = (r.stream.drop r.popped.length).take dest.length := by
  have hknows := h.consumer
  unfold ConsumerOk at hknows
  rw [hconsumer] at hknows
  exact hknows

theorem push (h : r.Sound) (frame : List β) : (r.step (.push frame)).Sound := by
  unfold step
  simp only
  split
  · exact h.moveProducer rfl
  · exact h

theorem loadTail (h : r.Sound) : (r.step .loadTail).Sound := by
  unfold step
  simp only
  split
  · rename_i frame head hproducer
    have hhead := h.sawHead hproducer
    split
    · exact h.moveProducer trivial
    · rename_i hfits
      rw [hhead, h.freeBytes_eq] at hfits
      have hbounded := h.bounded
      have hle := h.popped.length_le
      refine h.moveProducer ⟨hhead, Nat.zero_le _, ?_, ?_⟩
      · show r.stream.length + frame.length ≤ r.popped.length + r.storage.length
        omega
      · exact (Window.append_iff (Nat.le_refl _) frame).mpr h.window
  · exact h

theorem write (h : r.Sound) : (r.step .write).Sound := by
  unfold step
  simp only
  split
  · rename_i frame head done hproducer
    rcases h.copyingIn hproducer with ⟨hhead, hdone, hroom, hwindow⟩
    split
    · rename_i byte hbyte
      have hlt : done < frame.length := (List.getElem?_eq_some_iff.mp hbyte).1
      have hle := h.popped.length_le
      have hcell : r.copyCell head done = (r.stream.length + done) % r.storage.length := by
        rw [hhead, h.head]
        exact h.copyCell_eq _ (by omega)
      have hnext : (r.stream ++ frame)[r.stream.length + done]? = some byte := by
        rw [List.getElem?_append_right (Nat.le_add_right _ _), Nat.add_sub_cancel_left, hbyte]
      -- the cell is free: the copy stays within a round of the oldest unreleased byte
      have hwritten := hwindow.write hnext (by omega) (by omega)
      rw [hcell]
      refine ⟨?_, ?_, h.head, h.tail, h.popped, ?_, ?_, ?_, h.consumer⟩
      · simpa only [List.length_set] using h.capacity
      · simpa only [List.length_set] using h.mask
      · show r.stream.length ≤ r.popped.length + (r.storage.set _ byte).length
        rw [List.length_set]
        exact h.bounded
      · have hbase : r.stream.length ≤ r.stream.length + done + 1 := by omega
        exact (Window.append_iff (Nat.le_refl _) frame).mp (hwritten.narrow (Nat.le_refl _) hbase)
      · refine ⟨hhead, hlt, ?_, hwritten⟩
        show _ ≤ r.popped.length + (r.storage.set _ byte).length
        rw [List.length_set]
        exact hroom
    · exact h
  · exact h

theorem publish (h : r.Sound) : (r.step .publish).Sound := by
  unfold step
  simp only
  split
  · rename_i frame head done hproducer
    rcases h.copyingIn hproducer with ⟨hhead, -, hroom, hwindow⟩
    split
    · rename_i hdone
      rw [hdone] at hwindow
      let r' : RingThreads β :=
        { r with
          head := head + BitVec.ofNat 64 frame.length
          producer := .idle
          accepted := r.accepted ++ [frame] }
      have hstream : r'.stream = r.stream ++ frame := by simp [r', stream]
      have hlength : r'.stream.length = r.stream.length + frame.length := by
        rw [hstream, List.length_append]
      show r'.Sound
      refine ⟨h.capacity, h.mask, ?_, h.tail, ?_, ?_, ?_, trivial,
        h.consumer.published rfl rfl rfl hstream⟩
      · show head + BitVec.ofNat 64 frame.length = _
        rw [hlength, hhead, h.head, BitVec.ofNat_add]
      · rw [hstream]
        exact h.popped.trans (List.prefix_append _ _)
      · rw [hlength]
        exact hroom
      · rw [hlength, hstream]
        exact hwindow
    · exact h
  · exact h

theorem pop (h : r.Sound) (room : Nat) : (r.step (.pop room)).Sound := by
  unfold step
  simp only
  split
  · exact h.moveConsumer rfl
  · exact h

theorem loadHead (h : r.Sound) : (r.step .loadHead).Sound := by
  unfold step
  simp only
  split
  · rename_i room tail hconsumer
    have htail : tail = r.tail := by
      have hknows := h.consumer
      unfold ConsumerOk at hknows
      rw [hconsumer] at hknows
      exact hknows
    have hle := h.popped.length_le
    refine h.moveConsumer ⟨htail, ?_, Nat.zero_le _, rfl⟩
    show r.popped.length + min room (r.head - tail).toNat ≤ r.stream.length
    rw [htail, h.fill]
    omega
  · exact h

theorem read (h : r.Sound) : (r.step .read).Sound := by
  unfold step
  simp only
  split
  · rename_i count tail dest hconsumer
    rcases h.copyingOut hconsumer with ⟨htail, hcount, hdest, hread⟩
    split
    · rename_i hlt
      have hbounded := h.bounded
      have hcell : r.copyCell tail dest.length =
          (r.popped.length + dest.length) % r.storage.length := by
        rw [htail, h.tail]
        exact h.copyCell_eq _ (by omega)
      have hfound := h.window (r.popped.length + dest.length) (Nat.le_add_right _ _) (by omega)
      split
      · rename_i byte hbyte
        rw [hcell, hfound] at hbyte
        refine h.moveConsumer ⟨htail, hcount, ?_, ?_⟩
        · rw [List.length_append]
          exact hlt
        · show dest ++ [byte] = (r.stream.drop r.popped.length).take (dest ++ [byte]).length
          rw [List.length_append, List.length_singleton, List.take_add_one, ← hread,
            List.getElem?_drop, hbyte]
          rfl
      · exact h
    · exact h
  · exact h

theorem release (h : r.Sound) : (r.step .release).Sound := by
  unfold step
  simp only
  split
  · rename_i count tail dest hconsumer
    rcases h.copyingOut hconsumer with ⟨htail, hcount, -, hread⟩
    split
    · rename_i hall
      let r' : RingThreads β :=
        { r with
          tail := tail + BitVec.ofNat 64 count
          consumer := .idle
          popped := r.popped ++ dest }
      have hlength : r'.popped.length = r.popped.length + count := by
        show (r.popped ++ dest).length = _
        rw [List.length_append, hall]
      have hbounded := h.bounded
      show r'.Sound
      refine ⟨h.capacity, h.mask, h.head, ?_, ?_, ?_, ?_,
        h.producer.released rfl rfl rfl rfl (by omega), trivial⟩
      · show tail + BitVec.ofNat 64 count = _
        rw [hlength, htail, h.tail, BitVec.ofNat_add]
      · rcases h.popped with ⟨rest, hrest⟩
        have hdrop : r.stream.drop r.popped.length = rest := by rw [← hrest, List.drop_left]
        show r.popped ++ dest <+: r.stream
        rw [← hrest, hread, hdrop]
        exact (List.prefix_append_right_inj _).mpr (List.take_prefix _ _)
      · rw [hlength]
        exact Nat.le_trans hbounded (by show _ ≤ _ + r.storage.length; omega)
      · rw [hlength]
        exact h.window.narrow (Nat.le_add_right _ _) (Nat.le_refl _)
    · exact h
  · exact h

end Sound

theorem sound_step {r : RingThreads β} (h : r.Sound) (s : RingStep β) : (r.step s).Sound := by
  cases s with
  | push frame => exact h.push frame
  | loadTail => exact h.loadTail
  | write => exact h.write
  | publish => exact h.publish
  | pop room => exact h.pop room
  | loadHead => exact h.loadHead
  | read => exact h.read
  | release => exact h.release

theorem sound_create [Inhabited β] {minCapacity : Nat} {r : RingThreads β}
    (h : create minCapacity = some r) : r.Sound := by
  unfold create at h
  rcases Option.map_eq_some_iff.mp h with ⟨ring, hring, rfl⟩
  have hlength : (List.replicate ring.capacity (default : β)).length = ring.capacity :=
    List.length_replicate
  refine ⟨?_, ?_, rfl, rfl, List.prefix_refl _, Nat.zero_le _, Window.nothing _ _ _, trivial, trivial⟩
  · rw [hlength]
    exact (capacity_eq_pow hring).2
  · rw [hlength]

/-! ## Refinement of the bounded FIFO -/

/-- What a step of the two threads is to the ring as a whole. -/
inductive RingCall (β : Type)
  | none
  | push (frame : List β)
  | pop (count : Nat)
  deriving DecidableEq, Repr

/-- A `Push` takes effect where it publishes, a `Pop` where it releases. -/
def call (r : RingThreads β) : RingStep β → RingCall β
  | .publish =>
      match r.producer with
      | .copying frame _ done => if done = frame.length then .push frame else .none
      | _ => .none
  | .release =>
      match r.consumer with
      | .copying count _ dest => if dest.length = count then .pop count else .none
      | _ => .none
  | _ => .none

/-- The FIFO a ring stands for. -/
def Represents (r : RingThreads β) (a : SpscByteRing β) : Prop :=
  a.capacity = r.storage.length ∧ a.bytes = r.published

theorem represents_create [Inhabited β] {minCapacity : Nat} {r : RingThreads β}
    (h : create minCapacity = some r) :
    ∃ a, SpscByteRing.create minCapacity = some a ∧ r.Represents a := by
  have hsound := sound_create h
  unfold create at h
  rcases Option.map_eq_some_iff.mp h with ⟨a, ha, rfl⟩
  refine ⟨a, ha, List.length_replicate.symm, ?_⟩
  rw [hsound.published_eq, (capacity_eq_pow ha).1]
  rfl

theorem call_push {r : RingThreads β} {s : RingStep β} {frame : List β}
    (h : r.call s = .push frame) :
    s = .publish ∧ ∃ head, r.producer = .copying frame head frame.length := by
  unfold call at h
  split at h
  · split at h
    · rename_i hproducer
      split at h
      · rename_i hdone
        cases h
        rw [hdone] at hproducer
        exact ⟨rfl, _, hproducer⟩
      · cases h
    · cases h
  · split at h
    · split at h
      · cases h
      · cases h
    · cases h
  · cases h

theorem call_pop {r : RingThreads β} {s : RingStep β} {count : Nat} (h : r.call s = .pop count) :
    s = .release ∧ ∃ tail dest, r.consumer = .copying count tail dest ∧ dest.length = count := by
  unfold call at h
  split at h
  · split at h
    · split at h
      · cases h
      · cases h
    · cases h
  · split at h
    · rename_i hconsumer
      split at h
      · rename_i hall
        cases h
        exact ⟨rfl, _, _, hconsumer, hall⟩
      · cases h
    · cases h
  · cases h

theorem step_publish {r : RingThreads β} {frame : List β} {head : BitVec 64}
    (hproducer : r.producer = .copying frame head frame.length) :
    r.step .publish =
      { r with
        head := head + BitVec.ofNat 64 frame.length
        producer := .idle
        accepted := r.accepted ++ [frame] } := by
  unfold step
  simp only [hproducer, if_true]

theorem step_release {r : RingThreads β} {count : Nat} {tail : BitVec 64} {dest : List β}
    (hconsumer : r.consumer = .copying count tail dest) (hall : dest.length = count) :
    r.step .release =
      { r with
        tail := tail + BitVec.ofNat 64 count
        consumer := .idle
        popped := r.popped ++ dest } := by
  unfold step
  simp only [hconsumer, hall, if_true]

theorem represents_publish {r : RingThreads β} (h : r.Sound) {a : SpscByteRing β}
    (ha : r.Represents a) {frame : List β} {head : BitVec 64}
    (hproducer : r.producer = .copying frame head frame.length) :
    (a.push frame).1 = true ∧ (r.step .publish).Represents (a.push frame).2 := by
  have hnext := sound_step h .publish
  have hstep := step_publish hproducer
  rcases h.copyingIn hproducer with ⟨-, -, hroom, -⟩
  have hle := h.popped.length_le
  have hfits : frame.length ≤ a.capacity - a.bytes.length := by
    rw [ha.1, ha.2, h.published_eq, List.length_drop]
    omega
  have hpush : a.push frame = (true, (a.push frame).2) := by
    unfold SpscByteRing.push
    rw [dif_pos hfits]
  have hbytes := SpscByteRing.push_accepted (congrArg Prod.fst hpush)
  refine ⟨congrArg Prod.fst hpush, ?_, ?_⟩
  · rw [hstep]
    unfold SpscByteRing.push
    rw [dif_pos hfits]
    exact ha.1
  · rw [hbytes, hnext.published_eq, ha.2, h.published_eq, hstep]
    simp only [stream, List.flatten_append, List.flatten_cons, List.flatten_nil, List.append_nil]
    exact (List.drop_append_of_le_length hle).symm

theorem represents_release {r : RingThreads β} (h : r.Sound) {a : SpscByteRing β}
    (ha : r.Represents a) {count : Nat} {tail : BitVec 64} {dest : List β}
    (hconsumer : r.consumer = .copying count tail dest) (hall : dest.length = count) :
    (r.step .release).popped = r.popped ++ (a.pop count).1 ∧
      (r.step .release).Represents (a.pop count).2 := by
  have hnext := sound_step h .release
  have hstep := step_release hconsumer hall
  rcases h.copyingOut hconsumer with ⟨-, -, -, hread⟩
  refine ⟨?_, ?_, ?_⟩
  · rw [hstep, SpscByteRing.pop_fst, ha.2, h.published_eq, ← hall, ← hread]
  · rw [hstep]
    exact ha.1
  · show a.bytes.drop count = _
    rw [hnext.published_eq, ha.2, h.published_eq, hstep, List.drop_drop, ← hall]
    simp only [stream, List.length_append]

theorem step_length (r : RingThreads β) (s : RingStep β) :
    (r.step s).storage.length = r.storage.length := by
  cases s with
  | write =>
      unfold step
      simp only
      split
      · split
        · exact List.length_set
        · rfl
      · rfl
  | _ =>
      unfold step
      grind

theorem step_silent {r : RingThreads β} {s : RingStep β} (h : r.call s = .none) :
    (r.step s).accepted = r.accepted ∧ (r.step s).popped = r.popped := by
  cases s with
  | publish =>
      unfold call at h
      unfold step
      simp only at h ⊢
      split
      · rename_i hproducer
        rw [hproducer] at h
        simp only at h
        split
        · rename_i hdone
          rw [if_pos hdone] at h
          cases h
        · exact ⟨rfl, rfl⟩
      · exact ⟨rfl, rfl⟩
  | release =>
      unfold call at h
      unfold step
      simp only at h ⊢
      split
      · rename_i hconsumer
        rw [hconsumer] at h
        simp only at h
        split
        · rename_i hall
          rw [if_pos hall] at h
          cases h
        · exact ⟨rfl, rfl⟩
      · exact ⟨rfl, rfl⟩
  | _ =>
      unfold step
      grind

/-- The steps of the two threads are, seen from outside, calls of the bounded FIFO. -/
theorem represents_step {r : RingThreads β} (h : r.Sound) {a : SpscByteRing β}
    (ha : r.Represents a) (s : RingStep β) :
    match r.call s with
    | .none => (r.step s).Represents a
    | .push frame => (a.push frame).1 = true ∧ (r.step s).Represents (a.push frame).2
    | .pop count =>
        (r.step s).popped = r.popped ++ (a.pop count).1 ∧
          (r.step s).Represents (a.pop count).2 := by
  cases hcall : r.call s with
  | none =>
      rcases step_silent hcall with ⟨haccepted, hpopped⟩
      refine ⟨ha.1.trans (step_length r s).symm, ?_⟩
      rw [ha.2, h.published_eq, (sound_step h s).published_eq]
      unfold stream
      rw [haccepted, hpopped]
  | push frame =>
      rcases call_push hcall with ⟨rfl, head, hproducer⟩
      exact represents_publish h ha hproducer
  | pop count =>
      rcases call_pop hcall with ⟨rfl, tail, dest, hconsumer, hall⟩
      exact represents_release h ha hconsumer hall

/-! ## Whole calls -/

/-- The steps of one `Push` that fits. -/
def pushSteps (frame : List β) : List (RingStep β) :=
  [.push frame, .loadTail] ++ List.replicate frame.length .write ++ [.publish]

/-- The steps of one `Pop` that finds `count` bytes. -/
def popSteps (room count : Nat) : List (RingStep β) :=
  [.pop room, .loadHead] ++ List.replicate count .read ++ [.release]

theorem exec_write {r : RingThreads β} {frame : List β} {head : BitVec 64} {done k : Nat}
    (hproducer : r.producer = .copying frame head done) (hk : done + k ≤ frame.length) :
    (exec step r (List.replicate k .write)).producer = .copying frame head (done + k) ∧
      (exec step r (List.replicate k .write)).accepted = r.accepted := by
  induction k generalizing r done with
  | zero => exact ⟨hproducer, rfl⟩
  | succ k ih =>
      have hbyte : frame[done]? = some frame[done] := List.getElem?_eq_getElem (by omega)
      have hstep : r.step .write =
          { r with
            storage := r.storage.set (r.copyCell head done) frame[done]
            producer := .copying frame head (done + 1) } := by
        unfold step
        simp only [hproducer, hbyte]
      rcases ih (r := r.step .write) (by rw [hstep]) (by omega) with ⟨hat, hsame⟩
      refine ⟨hat.trans (by rw [Nat.add_right_comm, Nat.add_assoc]), hsame.trans (by rw [hstep])⟩

/-- The free space a `Push` computes from its snapshots. -/
theorem loadTail_eq {r : RingThreads β} (h : r.Sound) {frame : List β} {head : BitVec 64}
    (hproducer : r.producer = .sawHead frame head) :
    r.step .loadTail =
      if r.storage.length - (r.head - r.tail).toNat < frame.length then
        { r with producer := .idle }
      else
        { r with producer := .copying frame head 0 } := by
  unfold step
  simp only [hproducer, h.sawHead hproducer]
  rw [h.freeBytes_eq, h.fill]

/-- A producer left to itself finishes its `Push`. -/
theorem exec_push {r : RingThreads β} (h : r.Sound) (hidle : r.producer = .idle) {frame : List β}
    (hfits : frame.length ≤ r.storage.length - (r.head - r.tail).toNat) :
    (exec step r (pushSteps frame)).accepted = r.accepted ++ [frame] := by
  have hpush : r.step (.push frame) = { r with producer := .sawHead frame r.head } := by
    unfold step
    simp only [hidle]
  have hload : (r.step (.push frame)).step .loadTail =
      { r with producer := .copying frame r.head 0 } := by
    rw [loadTail_eq (h.push frame) (congrArg producer hpush), hpush]
    exact if_neg (Nat.not_lt.mpr hfits)
  have hwrites := exec_write (k := frame.length) (congrArg producer hload) (by omega)
  rw [hload, Nat.zero_add] at hwrites
  unfold pushSteps exec
  rw [List.foldl_append, List.foldl_append]
  show (step (exec step ((r.step (.push frame)).step .loadTail) _) .publish).accepted = _
  rw [hload]
  generalize exec step _ _ = last at hwrites ⊢
  rw [step_publish hwrites.1, hwrites.2]

theorem exec_read {r : RingThreads β} (h : r.Sound) {count : Nat} {tail : BitVec 64}
    {dest : List β} {k : Nat} (hconsumer : r.consumer = .copying count tail dest)
    (hk : dest.length + k ≤ count) :
    ∃ copied, (exec step r (List.replicate k .read)).consumer = .copying count tail copied ∧
      copied.length = dest.length + k ∧
      (exec step r (List.replicate k .read)).accepted = r.accepted ∧
      (exec step r (List.replicate k .read)).popped = r.popped ∧
      (exec step r (List.replicate k .read)).Sound := by
  induction k generalizing r dest with
  | zero => exact ⟨dest, hconsumer, rfl, rfl, rfl, h⟩
  | succ k ih =>
      rcases h.copyingOut hconsumer with ⟨htail, hcount, -, -⟩
      have hbounded := h.bounded
      have hcell : r.copyCell tail dest.length < r.storage.length := by
        rw [htail, h.tail, h.copyCell_eq _ (by omega)]
        exact Nat.mod_lt _ h.pos
      have hlt : dest.length < count := by omega
      have hstep : r.step .read =
          { r with
            consumer := .copying count tail (dest ++ [r.storage.get ⟨_, hcell⟩]) } := by
        unfold step
        simp only [hconsumer, hlt, if_true, List.getElem?_eq_getElem hcell]
        rfl
      have hlength : (dest ++ [r.storage.get ⟨_, hcell⟩]).length = dest.length + 1 :=
        List.length_append
      rcases ih (r := r.step .read) h.read (congrArg consumer hstep) (by omega) with
        ⟨copied, hat, hcopied, haccepted, hpopped, hsound⟩
      exact ⟨copied, hat, by omega, haccepted.trans (by rw [hstep]),
        hpopped.trans (by rw [hstep]), hsound⟩

/-- A consumer left to itself finishes its `Pop`. -/
theorem exec_pop {r : RingThreads β} (h : r.Sound) (hidle : r.consumer = .idle) (room : Nat) :
    (exec step r (popSteps room (min room (r.head - r.tail).toNat))).popped =
      r.popped ++ r.published.take room := by
  let count := min room (r.head - r.tail).toNat
  have hpop : r.step (.pop room) = { r with consumer := .sawTail room r.tail } := by
    unfold step
    simp only [hidle]
  have hload : (r.step (.pop room)).step .loadHead =
      { r with consumer := .copying count r.tail [] } := by
    rw [hpop]
    rfl
  rcases exec_read (k := count) ((h.pop room).loadHead) (congrArg consumer hload)
      (Nat.le_of_eq (Nat.zero_add _)) with
    ⟨copied, hat, hcopied, haccepted, hpopped, hsound⟩
  have hall : copied.length = count := hcopied.trans (Nat.zero_add _)
  rw [hload] at hat haccepted hpopped hsound
  unfold popSteps exec
  rw [List.foldl_append, List.foldl_append]
  show (step (exec step ((r.step (.pop room)).step .loadHead)
    (List.replicate count .read)) .release).popped = _
  rw [hload]
  generalize exec step _ _ = last at hat haccepted hpopped hsound ⊢
  rcases hsound.copyingOut hat with ⟨-, -, -, hread⟩
  have hstream : last.stream = r.stream := congrArg List.flatten haccepted
  rw [hstream, hpopped, ← h.published_eq, hall] at hread
  have htake : r.published.take count = r.published.take room := by
    have hsize : r.published.length = (r.head - r.tail).toNat := by
      rw [h.published_eq, List.length_drop, h.fill]
    show r.published.take (min room (r.head - r.tail).toNat) = _
    rw [← hsize, ← List.take_take, List.take_length]
  rw [step_release hat hall, hpopped, hread, htake]

/-! ## Every interleaving -/

/-- A byte on its way out is one of those between the indices. -/
theorem readCell_mem {r : RingThreads β} (h : r.Sound) {c : Nat} (hc : r.readCell = some c) :
    c ∈ r.unreleased := by
  unfold readCell at hc
  split at hc
  · rename_i count tail dest hconsumer
    rcases h.copyingOut hconsumer with ⟨htail, hcount, -, -⟩
    split at hc
    · cases hc
      have hbounded := h.bounded
      rw [htail, h.tail, h.copyCell_eq _ (by omega), h.unreleased_eq, List.mem_map]
      exact ⟨dest.length, List.mem_range.mpr (by omega), rfl⟩
    · cases hc
  · cases hc

/-- A byte on its way in stays within a round of the oldest unreleased one. -/
theorem writeCell_free {r : RingThreads β} (h : r.Sound) {c : Nat} (hc : r.writeCell = some c) :
    c < r.storage.length ∧ c ∉ r.unreleased := by
  unfold writeCell at hc
  split at hc
  · rename_i frame head done hproducer
    rcases h.copyingIn hproducer with ⟨hhead, -, hroom, -⟩
    split at hc
    · rename_i hlt
      cases hc
      have hle := h.popped.length_le
      rw [hhead, h.head, h.copyCell_eq _ (by omega)]
      refine ⟨Nat.mod_lt _ h.pos, ?_⟩
      rw [h.unreleased_eq, List.mem_map]
      rintro ⟨i, hi, heq⟩
      have hbelow := List.mem_range.mp hi
      exact mod_ne_of_lt (by omega) (by omega) heq
    · cases hc
  · cases hc

/-- A frame on its way in fits what is free, whatever the consumer has done since. -/
theorem copying_fits {r : RingThreads β} (h : r.Sound) {frame : List β} {head : BitVec 64}
    {done : Nat} (hproducer : r.producer = .copying frame head done) :
    frame.length ≤ r.storage.length - (r.head - r.tail).toNat := by
  rcases h.copyingIn hproducer with ⟨-, -, hroom, -⟩
  have hle := h.popped.length_le
  rw [h.fill]
  omega

/-- In every interleaving of one producer with one consumer: nothing accepted is lost, reordered or
doubled; a `Push` goes on to copy exactly when its frame fits the free space at its snapshot of `tail_`,
and changes nothing otherwise; the producer's writes stay off the bytes not yet released, the consumer's
reads on them; and the indices are never more than the capacity apart. -/
theorem ring_lossless_fifo [Inhabited β] {minCapacity : Nat} {r₀ r : RingThreads β}
    (hcreate : create minCapacity = some r₀) (hrun : Run step (fun _ _ => True) r₀ r) :
    r.popped ++ r.published = r.accepted.flatten ∧
      (∀ frame head, r.producer = .sawHead frame head →
        r.step .loadTail =
          if r.storage.length - (r.head - r.tail).toNat < frame.length then
            { r with producer := .idle }
          else
            { r with producer := .copying frame head 0 }) ∧
      (∀ frame head done, r.producer = .copying frame head done →
        frame.length ≤ r.storage.length - (r.head - r.tail).toNat) ∧
      (∀ c, r.writeCell = some c → c < r.storage.length ∧ c ∉ r.unreleased) ∧
      (∀ c, r.readCell = some c → c ∈ r.unreleased) ∧
      (r.head - r.tail).toNat ≤ r.storage.length ∧ r.storage.length = r₀.storage.length := by
  have hsound : r.Sound := hrun.invariant (sound_create hcreate) fun _ s h _ => sound_step h s
  refine ⟨hsound.split, ?_, ?_, ?_, ?_, ?_, ?_⟩
  · intro frame head hproducer
    exact loadTail_eq hsound hproducer
  · intro frame head done hproducer
    exact copying_fits hsound hproducer
  · intro c hc
    exact writeCell_free hsound hc
  · intro c hc
    exact readCell_mem hsound hc
  · have hbounded := hsound.bounded
    rw [hsound.fill]
    omega
  · exact hrun.invariant (I := fun a => a.storage.length = r₀.storage.length) rfl
      fun a s hlength _ => (step_length a s).trans hlength

def smallRing : RingThreads UInt8 :=
  { storage := [0, 0, 0, 0]
    mask := 3
    head := 0
    tail := 0
    producer := .idle
    consumer := .idle
    accepted := []
    popped := [] }

/-- A ring of four cells after a `Push` of three bytes and a `Pop` of two, with a second `Push` two
bytes into its frame: the first went to the last cell, the second wrapped to the first, and the
consumer has a `Pop` open on the byte in between. -/
def wrapping : List (RingStep UInt8) :=
  pushSteps [1, 2, 3] ++ popSteps 2 2 ++
    [.push [4, 5, 6], .loadTail, .pop 8, .loadHead, .write, .write]

theorem ring_lossless_fifo_wrapping :
    (exec step smallRing wrapping).writeCell = some 1 ∧
      (exec step smallRing wrapping).readCell = some 2 ∧
      (exec step smallRing wrapping).popped ++ (exec step smallRing wrapping).published =
        [1, 2, 3] ∧
      1 ∉ (exec step smallRing wrapping).unreleased ∧
      2 ∈ (exec step smallRing wrapping).unreleased :=
  have hwrite : (exec step smallRing wrapping).writeCell = some 1 := by decide +kernel
  have hread : (exec step smallRing wrapping).readCell = some 2 := by decide +kernel
  have hcreate : create 3 = some smallRing := by decide +kernel
  have hrun : Run step (fun _ _ => True) smallRing (exec step smallRing wrapping) :=
    .of_exec (by decide +kernel)
  have h := ring_lossless_fifo hcreate hrun
  ⟨hwrite, hread, h.1.trans (by decide +kernel), (h.2.2.2.1 1 hwrite).2, h.2.2.2.2.1 2 hread⟩

end RingThreads

end Buffers
end AudioFork
