import AudioFork.Buffers.RingThreads
import AudioFork.Session.Step
import Mathlib.Logic.Nontrivial.Basic

/-!
# ReadFrame — what `ReadPlayback` does to the frame it is given

`Playback.read` gives the bytes that are played.  The caller passes the live media frame as the
destination, so here the destination is there: `CopyOut` with its two copies, `Pop` into a frame,
and `ReadPlayback` with the discard loop that pops into the same frame again and again.

* `readInto_read` connects it to `Playback.read`: same count, same bytes in front, same state;
* what lies past the count stays, except after a barge-in, where the discarded audio is left in the
  frame although the count is zero.
-/

namespace AudioFork

open Buffers

variable {β : Type} {S : ℕ+}

namespace Buffers

/-! ## Copying into a destination -/

/-- `std::copy` to index `start` of `dest`. -/
def copyTo (dest : List β) (start : Nat) (bytes : List β) : List β :=
  dest.take start ++ bytes ++ dest.drop (start + bytes.length)

/-- Two copies, the second where the first one ended. -/
theorem copyTo_copyTo (dest first second : List β) :
    copyTo (copyTo dest 0 first) first.length second =
      first ++ second ++ dest.drop (first.length + second.length) := by
  simp [copyTo, List.drop_append]

/-- `CopyOut`. -/
def RingThreads.copyOut (r : RingThreads β) (dest : List β) (tail : BitVec 64) (count : Nat) :
    List β :=
  let offset := r.cell tail
  let first := min count (r.storage.length - offset)
  let dest := copyTo dest 0 ((r.storage.drop offset).take first)
  copyTo dest first (r.storage.take (count - first))

/-- Whatever the offset, and whether or not the bytes wrap around the end of the storage, `CopyOut`
writes the oldest `count` bytes to the front of the destination and nothing past them. -/
theorem RingThreads.Sound.copyOut_eq {r : RingThreads β} (h : r.Sound) {dest : List β} {count : Nat}
    (hring : count ≤ r.published.length) :
    r.copyOut dest r.tail count = r.published.take count ++ dest.drop count := by
  have hpublished := h.published_eq
  have hlength : r.published.length = r.stream.length - r.popped.length := by
    rw [hpublished, List.length_drop]
  have hbounded := h.bounded
  have hpopped := h.popped.length_le
  have hlive : r.popped.length + count ≤ r.stream.length := by omega
  have hcopies := h.window.copies hlive (by omega)
  have hoffset : r.popped.length % r.storage.length < r.storage.length := Nat.mod_lt _ h.pos
  rw [RingThreads.copyOut, h.tail, h.cell_eq, hpublished, ← hcopies]
  generalize r.popped.length % r.storage.length = offset at hoffset ⊢
  generalize hfirst : min count (r.storage.length - offset) = first
  have hlenFirst : ((r.storage.drop offset).take first).length = first := by
    rw [List.length_take, List.length_drop]
    omega
  have hlenSecond : (r.storage.take (count - first)).length = count - first := by
    rw [List.length_take]
    omega
  have htwo := copyTo_copyTo dest ((r.storage.drop offset).take first)
    (r.storage.take (count - first))
  rw [hlenFirst, hlenSecond] at htwo
  rw [htwo]
  congr 2
  omega

/-- `Pop` into `dest`: how many bytes, the destination after it, the ring after it. -/
def SpscByteRing.popInto (r : SpscByteRing β) (dest : List β) : Nat × List β × SpscByteRing β :=
  match r.pop dest.length with
  | (bytes, r) => (bytes.length, bytes ++ dest.drop bytes.length, r)

/-- `Pop` of the threaded ring, with nothing else going on, does to the destination what `popInto`
does for the ring it represents. -/
theorem RingThreads.Sound.copyOut_popInto {r : RingThreads β} (h : r.Sound) {a : SpscByteRing β}
    (ha : r.Represents a) (dest : List β) :
    (a.popInto dest).1 = min dest.length (r.head - r.tail).toNat ∧
      (a.popInto dest).2.1 = r.copyOut dest r.tail (min dest.length (r.head - r.tail).toNat) := by
  have hfill : (r.head - r.tail).toNat = r.published.length := by
    rw [h.fill, h.published_eq, List.length_drop]
  rw [hfill, h.copyOut_eq (min_le_right dest.length r.published.length)]
  simp [SpscByteRing.popInto, SpscByteRing.pop, ha.2, List.length_take]

end Buffers

namespace Session

/-! ## ReadPlayback -/

/-- The discard loop: it pops into the caller's frame. -/
def discardInto : Nat → SpscByteRing β → List β → List β × SpscByteRing β
  | 0, ring, dest => (dest, ring)
  | fuel + 1, ring, dest =>
    match ring.popInto dest with
    | (filled, dest, ring) => if filled = 0 then (dest, ring) else discardInto fuel ring dest

/-- `ReadPlayback`: the count it returns, the destination after the call, the session's side of it. -/
def Playback.readInto (p : Playback β S) (dest : List β) : Nat × List β × Playback β S :=
  match p.path with
  | none => (0, dest, p)
  | some path =>
    if dest.isEmpty then
      (0, dest, p)
    else if p.generation ≠ p.mediaGeneration then
      match discardInto (path.ring.size + 1) path.ring dest with
      | (dest, ring) =>
        (0, dest, { p with mediaGeneration := p.generation, path := some { path with ring := ring } })
    else
      match path.ring.popInto dest with
      | (filled, dest, ring) =>
        let p := { p with path := some { path with ring := ring } }
        if filled = 0 then
          (filled, dest, { p with underruns := p.underruns + 1 })
        else
          (filled, dest, { p with bytesPlayed := p.bytesPlayed + filled })

/-- The bytes past the count it returns are what they were. -/
def Playback.KeepsRest (p : Playback β S) (dest : List β) : Prop :=
  (p.readInto dest).2.1.drop (p.readInto dest).1 = dest.drop (p.readInto dest).1

/-! ## The same read -/

theorem popInto_length (ring : SpscByteRing β) (dest : List β) :
    (ring.popInto dest).2.1.length = dest.length := by
  simp [SpscByteRing.popInto, SpscByteRing.pop]

theorem discardInto_snd (fuel : Nat) (ring : SpscByteRing β) (dest : List β) :
    (discardInto fuel ring dest).2 = discard dest.length fuel ring := by
  induction fuel generalizing ring dest with
  | zero => rfl
  | succ fuel ih =>
    have hempty : (ring.popInto dest).1 = 0 ↔ (ring.pop dest.length).1.isEmpty = true := by
      simp [SpscByteRing.popInto]
    simp only [discardInto, discard, hempty]
    split
    · rfl
    · rw [ih, popInto_length]
      rfl

/-- `readInto` returns the count of `Playback.read`, has written its bytes to the front of the
destination, and leaves the session as it does. -/
theorem Playback.readInto_read (p : Playback β S) (dest : List β) :
    (p.readInto dest).1 = (p.read dest.length).1.length ∧
      (p.readInto dest).2.1.take (p.readInto dest).1 = (p.read dest.length).1 ∧
      (p.readInto dest).2.2 = (p.read dest.length).2 := by
  cases hpath : p.path with
  | none => simp [readInto, read, hpath]
  | some path =>
    by_cases hdest : dest = []
    · simp [readInto, read, hpath, hdest]
    · have hlength : dest.length ≠ 0 := by simpa using hdest
      by_cases hstale : p.generation = p.mediaGeneration
      · simp only [readInto, read, hpath, SpscByteRing.popInto, SpscByteRing.pop,
          List.isEmpty_iff, hdest, hlength, hstale, if_false, ne_eq, not_true_eq_false,
          List.length_eq_zero_iff]
        split <;> simp [*]
      · simp [readInto, read, hpath, hdest, hstale, discardInto_snd]

/-! ## What is left of the frame -/

theorem popInto_drop (ring : SpscByteRing β) (dest : List β) :
    (ring.popInto dest).2.1.drop (ring.popInto dest).1 = dest.drop (ring.popInto dest).1 := by
  simp [SpscByteRing.popInto]

theorem Playback.keepsRest_of_current {p : Playback β S} (h : p.generation = p.mediaGeneration)
    (dest : List β) : p.KeepsRest dest := by
  unfold KeepsRest
  cases hpath : p.path with
  | none => simp [readInto, hpath]
  | some path =>
    by_cases hdest : dest = []
    · simp [readInto, hpath, hdest]
    · have hpop := popInto_drop path.ring dest
      simp only [readInto, hpath, List.isEmpty_iff, hdest, if_false, ne_eq, h, not_true_eq_false]
      split <;> exact hpop

theorem discardInto_nil {fuel : Nat} {ring : SpscByteRing β} (h : ring.bytes = [])
    (dest : List β) : (discardInto fuel ring dest).1 = dest := by
  cases fuel with
  | zero => rfl
  | succ fuel => simp [discardInto, SpscByteRing.popInto, SpscByteRing.pop, h]

/-- The loop leaves a byte of the ring at the front of the frame, whatever was there. -/
theorem discardInto_head {fuel : Nat} {ring : SpscByteRing β} (h : ring.bytes ≠ []) {count : Nat}
    (hcount : count ≠ 0) :
    ∃ x, ∀ dest, dest.length = count → (discardInto (fuel + 1) ring dest).1.head? = some x := by
  induction fuel generalizing ring with
  | zero =>
    obtain ⟨x, rest, hbytes⟩ := List.exists_cons_of_ne_nil h
    refine ⟨x, fun dest hdest => ?_⟩
    obtain ⟨n, rfl⟩ := Nat.exists_eq_succ_of_ne_zero hcount
    simp [discardInto, SpscByteRing.popInto, SpscByteRing.pop, hbytes, hdest]
  | succ fuel ih =>
    obtain ⟨x, rest, hbytes⟩ := List.exists_cons_of_ne_nil h
    obtain ⟨n, rfl⟩ := Nat.exists_eq_succ_of_ne_zero hcount
    have hround : ∀ dest : List β, dest.length = n + 1 →
        discardInto (fuel + 1 + 1) ring dest =
          discardInto (fuel + 1) (ring.pop (n + 1)).2 (ring.popInto dest).2.1 := by
      intro dest hdest
      rw [discardInto]
      simp [SpscByteRing.popInto, SpscByteRing.pop, hbytes, hdest]
    by_cases hmore : rest.drop n = []
    · -- the last round that pops something
      refine ⟨x, fun dest hdest => ?_⟩
      have hempty : (ring.pop (n + 1)).2.bytes = [] := by
        simpa [SpscByteRing.pop, hbytes] using hmore
      rw [hround dest hdest, discardInto_nil hempty]
      simp [SpscByteRing.popInto, SpscByteRing.pop, hbytes, hdest]
    · have hleft : (ring.pop (n + 1)).2.bytes ≠ [] := by
        simpa [SpscByteRing.pop, hbytes] using hmore
      obtain ⟨y, hy⟩ := ih hleft
      refine ⟨y, fun dest hdest => ?_⟩
      rw [hround dest hdest]
      exact hy _ (by rw [popInto_length, hdest])

/-- What a read after a barge-in returns. -/
theorem Playback.readInto_stale {p : Playback β S} {path : PlaybackPath β S}
    (hpath : p.path = some path) (h : p.generation ≠ p.mediaGeneration) {dest : List β}
    (hdest : dest ≠ []) :
    (p.readInto dest).1 = 0 ∧
      (p.readInto dest).2.1 = (discardInto (path.ring.size + 1) path.ring dest).1 := by
  simp [readInto, hpath, hdest, h]

/-- A read leaves the rest of every frame of `count` bytes alone exactly when it has nothing to
discard: it knows the current generation, or the ring is empty. -/
theorem Playback.readInto_keepsRest_iff [Nontrivial β] (p : Playback β S) (count : Nat) :
    (∀ dest : List β, dest.length = count → p.KeepsRest dest) ↔
      ∀ path, p.path = some path → count ≠ 0 → p.generation ≠ p.mediaGeneration →
        path.ring.bytes = [] := by
  constructor
  · intro h path hpath hcount hstale
    by_contra hring
    obtain ⟨x, hx⟩ := discardInto_head hring hcount
    -- a frame of some other byte does not survive
    obtain ⟨y, hy⟩ := exists_ne x
    have hlength : (List.replicate count y).length = count := List.length_replicate
    have hdest : List.replicate count y ≠ [] := by simpa using hcount
    obtain ⟨hzero, hframe⟩ := p.readInto_stale hpath hstale hdest
    have hkept := h _ hlength
    rw [KeepsRest, hzero, List.drop_zero, List.drop_zero, hframe] at hkept
    have hhead := hx _ hlength
    rw [hkept, List.head?_replicate, if_neg hcount] at hhead
    exact hy (Option.some.inj hhead)
  · intro h dest hdest
    by_cases hstale : p.generation = p.mediaGeneration
    · exact keepsRest_of_current hstale dest
    · cases hpath : p.path with
      | none => simp [KeepsRest, readInto, hpath]
      | some path =>
        by_cases hnil : dest = []
        · simp [KeepsRest, readInto, hpath, hnil]
        · have hring := h path hpath (by rw [← hdest]; simpa using hnil) hstale
          obtain ⟨hzero, hframe⟩ := p.readInto_stale hpath hstale hnil
          rw [KeepsRest, hzero, hframe, discardInto_nil hring]

open Lib (exec)

/-- A fork that has played four of eight bytes and then lets the rest of them be heard: nothing was
cleared, so what lies past the count stays. -/
theorem readInto_keepsRest_iff_sample :
    let w := exec (step Sample.env) Sample.fork
      [.start, .onConnected 0, .onBinary 0 (List.replicate 8 7), .pump, .readPlayback 4]
    ∀ dest : List UInt8, dest.length = 8 → w.session.playback.KeepsRest dest := by
  intro w
  have : Nontrivial UInt8 := ⟨0, 1, by decide⟩
  refine (Playback.readInto_keepsRest_iff w.session.playback 8).mpr ?_
  intro path _ _ hstale
  exact absurd (by decide +kernel) hstale

/-- The server clears eight bytes that are already in the ring.  The read that discards them returns
zero and has put them into the caller's frame. -/
theorem barge_in_overwrites_frame :
    let w := exec (step Sample.env) Sample.fork
      [.start, .onConnected 0, .onBinary 0 (List.replicate 8 7), .pump, .onText 0 Sample.clearText]
    let frame : List UInt8 := List.replicate 8 1
    (w.session.playback.readInto frame).1 = 0 ∧
      (w.session.playback.readInto frame).2.1 = List.replicate 8 7 ∧
      ¬w.session.playback.KeepsRest frame := by
  unfold Playback.KeepsRest
  decide +kernel

end Session
end AudioFork
