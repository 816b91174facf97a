import AudioFork.Buffers.JitterBuffer
import AudioFork.Buffers.SpscRing
import AudioFork.Ports

/-!
# Playback — audio on its way to the caller

The part of a session between `OnBinary` and `ReadPlayback`: the jitter buffer on the shard side,
the handoff ring to the media thread, and the generation counter by which a barge-in makes the
media thread discard what is already in the ring.  That counter is a `uint64_t` and a `Nat` here: no
run makes 2^64 barge-ins.
-/

namespace AudioFork
namespace Session

open Buffers

variable {β : Type} {S : ℕ+}

/-- The jitter buffer and the ring behind it.  A session has both or neither. -/
structure PlaybackPath (β : Type) (S : ℕ+) where
  jitter : JitterBuffer β S
  ring : SpscByteRing β

structure Playback (β : Type) (S : ℕ+) where
  path : Option (PlaybackPath β S)
  generation : Nat
  mediaGeneration : Nat
  rate : Nat
  channels : Nat
  started : Bool
  receivePaused : Bool
  bytesReceived : Nat
  bytesPlayed : Nat
  underruns : Nat
  bargeIns : Nat
  bufferedBytes : Nat
  bytesDropped : Nat

namespace PlaybackPath

/-- One round of the handover loop of `PumpPlayback`; `none` is its `break`. -/
def transferOnce (handoffBytes : Nat) (path : PlaybackPath β S) (p : SlabSupply) :
    Option (PlaybackPath β S × SlabSupply) :=
  let chunk := path.jitter.peek handoffBytes
  if chunk.isEmpty then
    none
  else
    match path.ring.push chunk with
    | (false, _) => none
    | (true, ring) =>
        match path.jitter.consume p chunk.length with
        | (jitter, p) => some ({ jitter := jitter, ring := ring }, p)

/-- Hand as much as the ring will take: every round takes a byte out of the jitter buffer. -/
def transfer (handoffBytes : Nat) :
    Nat → PlaybackPath β S → SlabSupply → PlaybackPath β S × SlabSupply
  | 0, path, p => (path, p)
  | fuel + 1, path, p =>
      if path.jitter.empty then
        (path, p)
      else
        match path.transferOnce handoffBytes p with
        | none => (path, p)
        | some (path, p) => transfer handoffBytes fuel path p

/-- `PumpPlayback` on the path: the handover, and the reached marks taken. -/
def pumped (handoffBytes : Nat) (path : PlaybackPath β S) (p : SlabSupply) :
    PlaybackPath β S × SlabSupply :=
  match path.transfer handoffBytes path.jitter.size p with
  | (path, p) => ({ path with jitter := path.jitter.takeReachedMarks.2 }, p)

/-- A round of the handover moves a non-empty front run from the jitter buffer to the ring. -/
theorem transferOnce_spec {handoffBytes : Nat} {path path' : PlaybackPath β S} {p p' : SlabSupply}
    (h : path.transferOnce handoffBytes p = some (path', p')) :
    path.jitter.peek handoffBytes ≠ [] ∧
      path.jitter.content = path.jitter.peek handoffBytes ++ path'.jitter.content ∧
      path'.ring.bytes = path.ring.bytes ++ path.jitter.peek handoffBytes ∧
      path'.ring.capacity = path.ring.capacity ∧
      path'.jitter = (path.jitter.consume p (path.jitter.peek handoffBytes).length).1 := by
  unfold transferOnce at h
  simp only at h
  split at h
  · cases h
  · rename_i hchunk
    split at h
    · cases h
    · rename_i ring hpush
      cases h
      have haccepted : (path.ring.push (path.jitter.peek handoffBytes)).1 = true :=
        congrArg Prod.fst hpush
      have hring : (path.ring.push (path.jitter.peek handoffBytes)).2 = ring :=
        congrArg Prod.snd hpush
      refine ⟨by simpa using hchunk, ?_, ?_, ?_, rfl⟩
      · rcases JitterBuffer.peek_prefix path.jitter handoffBytes with ⟨rest, hrest⟩
        rw [JitterBuffer.content_consume, ← hrest, List.drop_left]
      · rw [← hring]
        exact SpscByteRing.push_accepted haccepted
      · rw [← hring]
        exact SpscByteRing.capacity_push _ _

/-- What every round keeps, the handover keeps. -/
theorem transfer_invariant {handoffBytes : Nat} {P : PlaybackPath β S → SlabSupply → Prop}
    (hround : ∀ {path path' : PlaybackPath β S} {p p' : SlabSupply}, P path p →
      path.transferOnce handoffBytes p = some (path', p') → P path' p')
    (fuel : Nat) {path : PlaybackPath β S} {p : SlabSupply} (h : P path p) :
    P (path.transfer handoffBytes fuel p).1 (path.transfer handoffBytes fuel p).2 := by
  induction fuel generalizing path p with
  | zero => exact h
  | succ fuel ih =>
      unfold transfer
      split
      · exact h
      · split
        · exact h
        · rename_i path' p' hnext
          exact ih (hround h hnext)

/-- What the handover leaves behind: the offset of what was written stays, that of what was consumed
only grows. -/
theorem transfer_offsets (handoffBytes fuel : Nat) (path : PlaybackPath β S) (p : SlabSupply) :
    (path.transfer handoffBytes fuel p).1.jitter.writtenOffset = path.jitter.writtenOffset ∧
      path.jitter.consumedOffset ≤
        (path.transfer handoffBytes fuel p).1.jitter.consumedOffset := by
  refine transfer_invariant (P := fun q _ => q.jitter.writtenOffset = path.jitter.writtenOffset ∧
    path.jitter.consumedOffset ≤ q.jitter.consumedOffset) ?_ fuel ⟨rfl, Nat.le_refl _⟩
  rintro q q' p p' ⟨hwritten, hconsumed⟩ hround
  rcases transferOnce_spec hround with ⟨-, -, -, -, hjitter⟩
  rw [hjitter, JitterBuffer.consumedOffset_consume]
  exact ⟨hwritten, hconsumed.trans (Nat.le_add_right _ _)⟩

/-- Nothing to hand over, or no room in the ring for the front run. -/
def stuck (handoffBytes : Nat) (path : PlaybackPath β S) : Bool :=
  path.jitter.empty || (path.jitter.peek handoffBytes).isEmpty ||
    !(path.ring.push (path.jitter.peek handoffBytes)).1

theorem transferOnce_isNone (handoffBytes : Nat) (path : PlaybackPath β S) (p : SlabSupply) :
    (path.transferOnce handoffBytes p).isNone =
      ((path.jitter.peek handoffBytes).isEmpty ||
        !(path.ring.push (path.jitter.peek handoffBytes)).1) := by
  unfold transferOnce
  simp only
  split
  · rename_i hchunk
    simp [hchunk]
  · rename_i hchunk
    cases hpush : path.ring.push (path.jitter.peek handoffBytes) with
    | mk accepted ring => cases accepted <;> simp [hchunk]

theorem stuck_eq (handoffBytes : Nat) (path : PlaybackPath β S) (p : SlabSupply) :
    path.stuck handoffBytes =
      (path.jitter.empty || (path.transferOnce handoffBytes p).isNone) := by
  rw [transferOnce_isNone]
  exact Bool.or_assoc _ _ _

theorem not_stuck_of_transferOnce {handoffBytes : Nat} {path path' : PlaybackPath β S}
    {p p' : SlabSupply} (h : path.transferOnce handoffBytes p = some (path', p')) :
    path.stuck handoffBytes = false := by
  rcases transferOnce_spec h with ⟨hchunk, hcontent, -, -, -⟩
  have hempty : path.jitter.empty = false := by
    rw [Bool.eq_false_iff]
    intro hempty
    rw [JitterBuffer.content_eq_nil_iff_empty, hcontent] at hempty
    exact hchunk (List.append_eq_nil_iff.mp hempty).1
  rw [stuck_eq handoffBytes path p, hempty, h]
  rfl

theorem transfer_stuck {handoffBytes : Nat} {path : PlaybackPath β S} (fuel : Nat) (p : SlabSupply)
    (h : path.stuck handoffBytes = true) : path.transfer handoffBytes fuel p = (path, p) := by
  cases fuel with
  | zero => rfl
  | succ fuel =>
      unfold transfer
      split
      · rfl
      · rename_i hempty
        have hnone : (path.transferOnce handoffBytes p).isNone = true := by
          rw [stuck_eq handoffBytes path p] at h
          simpa [hempty] using h
        rw [Option.isNone_iff_eq_none.mp hnone]

/-- A handover that is not stuck consumes something. -/
theorem transfer_moves {handoffBytes : Nat} {path : PlaybackPath β S} (fuel : Nat) (p : SlabSupply)
    (h : path.stuck handoffBytes = false) :
    path.jitter.consumedOffset <
      (path.transfer handoffBytes (fuel + 1) p).1.jitter.consumedOffset := by
  rw [stuck_eq handoffBytes path p, Bool.or_eq_false_iff] at h
  rcases h with ⟨hempty, hround⟩
  unfold transfer
  rw [if_neg (by simp [hempty])]
  cases hnext : path.transferOnce handoffBytes p with
  | none => simp [hnext] at hround
  | some next =>
      rcases next with ⟨path', p'⟩
      rcases transferOnce_spec hnext with ⟨hchunk, hcontent, -, -, hjitter⟩
      refine Nat.lt_of_lt_of_le ?_ (transfer_offsets handoffBytes fuel path' p').2
      have hpos := List.length_pos_iff.mpr hchunk
      have hfits := congrArg List.length hcontent
      rw [List.length_append] at hfits
      rw [hjitter, JitterBuffer.consumedOffset_consume]
      omega

end PlaybackPath

/-- The discard loop of `ReadPlayback`, one `Pop` of the frame's size a round. -/
def discard (count : Nat) : Nat → SpscByteRing β → SpscByteRing β
  | 0, ring => ring
  | fuel + 1, ring =>
      match ring.pop count with
      | (bytes, ring) => if bytes.isEmpty then ring else discard count fuel ring

/-- With room for a byte the loop empties the ring. -/
theorem discard_bytes {count : Nat} (hcount : count ≠ 0) (fuel : Nat) (ring : SpscByteRing β)
    (h : ring.bytes.length < fuel) : (discard count fuel ring).bytes = [] := by
  induction fuel generalizing ring with
  | zero => exact absurd h (Nat.not_lt_zero _)
  | succ fuel ih =>
      unfold discard
      simp only
      by_cases hbytes : ring.bytes = []
      · rw [if_pos (by simp [hbytes])]
        simp [SpscByteRing.pop, hbytes]
      · -- a `Pop` of a positive size takes something
        rw [if_neg (by simp [List.take_eq_nil_iff, hcount, hbytes])]
        refine ih _ ?_
        have hpos := List.length_pos_iff.mpr hbytes
        simp only [SpscByteRing.pop, List.length_drop]
        omega

/-- `ReadPlayback` into a frame of `count` bytes; returns the bytes written. -/
def Playback.read (p : Playback β S) (count : Nat) : List β × Playback β S :=
  match p.path with
  | none => ([], p)
  | some path =>
      if count = 0 then
        ([], p)
      else if p.generation ≠ p.mediaGeneration then
        ([],
          { p with
            mediaGeneration := p.generation
            path := some { path with ring := discard count (path.ring.size + 1) path.ring } })
      else
        match path.ring.pop count with
        | (filled, ring) =>
            let p := { p with path := some { path with ring := ring } }
            if filled.isEmpty then
              (filled, { p with underruns := p.underruns + 1 })
            else
              (filled, { p with bytesPlayed := p.bytesPlayed + filled.length })

/-- A read that finds another generation than the one it knows empties the ring. -/
theorem Playback.read_stale {p : Playback β S} {path : PlaybackPath β S} {count : Nat}
    (hpath : p.path = some path) (hcount : count ≠ 0) (h : p.generation ≠ p.mediaGeneration) :
    p.read count =
      ([],
        { p with
          mediaGeneration := p.generation
          path := some { path with ring := discard count (path.ring.size + 1) path.ring } }) := by
  unfold Playback.read
  rw [hpath]
  simp only
  rw [if_neg hcount, if_pos h]

/-- Otherwise it takes a frame from it. -/
theorem Playback.read_current {p : Playback β S} {path : PlaybackPath β S} {count : Nat}
    (hpath : p.path = some path) (hcount : count ≠ 0) (h : p.generation = p.mediaGeneration) :
    (p.read count).1 = (path.ring.pop count).1 ∧
      (p.read count).2.path = some { path with ring := (path.ring.pop count).2 } ∧
      (p.read count).2.generation = p.generation ∧
      (p.read count).2.mediaGeneration = p.mediaGeneration := by
  unfold Playback.read
  rw [hpath]
  simp only
  rw [if_neg hcount, if_neg (not_not_intro h)]
  split <;> exact ⟨rfl, rfl, rfl, rfl⟩

/-- A read changes the ring and the counters of the media thread. -/
theorem Playback.read_path (p : Playback β S) (count : Nat) :
    p.path = none ∧ (p.read count).2.path = none ∨
      ∃ path ring, p.path = some path ∧
        (p.read count).2.path = some { path with ring := ring } := by
  cases hpath : p.path with
  | none =>
      refine Or.inl ⟨rfl, ?_⟩
      simp only [Playback.read, hpath]
  | some path =>
      have hring : ∃ ring, (p.read count).2.path = some { path with ring := ring } := by
        simp only [Playback.read, hpath]
        split
        · exact ⟨path.ring, hpath⟩
        · split
          · exact ⟨_, rfl⟩
          · -- an underrun or a frame: only the counters differ
            split <;> exact ⟨_, rfl⟩
      rcases hring with ⟨ring, hring⟩
      exact Or.inr ⟨path, ring, rfl, hring⟩

/-- A read takes from the ring and leaves the jitter buffer alone. -/
theorem Playback.read_jitter {p : Playback β S} {count : Nat} {path' : PlaybackPath β S}
    (h : (p.read count).2.path = some path') :
    ∃ path, p.path = some path ∧ path'.jitter = path.jitter := by
  rcases p.read_path count with ⟨-, hnone⟩ | ⟨path, ring, hpath, hread⟩
  · cases hnone.symm.trans h
  · cases hread.symm.trans h
    exact ⟨path, hpath, rfl⟩

end Session
end AudioFork
