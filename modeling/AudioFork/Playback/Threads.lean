import AudioFork.Session.Liveness
import AudioFork.Session.Moves

/-!
# Threads — the playback path between two threads

Audio for the caller crosses from the shard to the media thread.  `Threads` runs the two threads in
small steps.  On the shard, `OnBinary` and `Pump` end in a handover that pushes one front run at a
time, and a clear first empties the jitter buffer and then bumps the generation.  On the media
thread, `ReadPlayback` loads the generation; if it is the one it knows it pops a frame, otherwise it
stores it and pops until the ring is empty.  A push and a pop of the ring are one step each, and a
push may be refused at any time.

The history of a `Threads` records what the jitter buffer admitted, how much of it lies before the
last clear and before the mark that re-armed playback, and what every read returned.

A session in which the threads take turns is a special case: its runs are runs of `Threads`
(`threads_of_run`).
-/

namespace AudioFork
namespace Playback

open Buffers Session Lib Protocol

variable {β : Type} {S : ℕ+}

/-- Where the shard is. -/
inductive Shard
  | idle
  /-- In the handover loop of `PumpPlayback`. -/
  | pumping
  /-- In `HandleClear`, before the generation is bumped. -/
  | clearing
  deriving DecidableEq, Repr

/-- Where the media thread is.  `floor` is the number of bytes admitted before the last clear that
was complete when the read began. -/
inductive Reader
  | idle
  /-- `ReadPlayback` with the generation loaded. -/
  | loaded (count generation floor : Nat)
  /-- `ReadPlayback` in its discard loop. -/
  | discarding (count floor : Nat)
  deriving DecidableEq, Repr

structure Threads (β : Type) (S : ℕ+) where
  path : PlaybackPath β S
  supply : SlabSupply
  generation : Nat
  mediaGeneration : Nat
  shard : Shard
  reader : Reader
  /-- The bytes the jitter buffer admitted, in order. -/
  admitted : List β
  /-- How many of them were admitted before the last complete clear. -/
  cleared : Nat
  /-- How many of them were admitted before the mark that re-armed playback after the last clear;
  `none` from a clear to that mark. -/
  armed : Option Nat
  /-- The reads so far: the floor of each and the bytes it returned. -/
  reads : List (Nat × List β)

namespace Threads

/-- A session that has just been created. -/
def initial (path : PlaybackPath β S) (supply : SlabSupply) : Threads β S :=
  { path := path
    supply := supply
    generation := 0
    mediaGeneration := 0
    shard := .idle
    reader := .idle
    admitted := []
    cleared := 0
    armed := some 0
    reads := [] }

/-- Everything `ReadPlayback` returned, in order. -/
def returned (t : Threads β S) : List β := t.reads.flatMap Prod.snd

end Threads

inductive Micro (β : Type)
  | onBinary (bytes : List β)
  | pump
  | push
  | pumpEnd
  | clearBuffer
  | bumpGeneration
  | mark (name : Text)
  | readBegin (count : Nat)
  | readStore
  | readPop
  | discardPop
  /-- The pool moves under other hands. -/
  | supplyMoves (supply : SlabSupply)
  deriving DecidableEq, Repr

namespace Threads

/-- The media thread finds the generation it knows. -/
def current (t : Threads β S) : Bool :=
  match t.reader with
  | .loaded _ generation _ => generation == t.mediaGeneration
  | _ => false

/-- Which thread may take which step. -/
def enabled (t : Threads β S) : Micro β → Bool
  | .onBinary bytes => t.shard == .idle && !bytes.isEmpty
  | .pump => t.shard == .idle
  | .push => t.shard == .pumping
  | .pumpEnd => t.shard == .pumping
  | .clearBuffer => t.shard == .idle
  | .bumpGeneration => t.shard == .clearing
  | .mark _ => t.shard == .idle
  | .readBegin count => t.reader == .idle && count != 0
  | .readStore =>
      match t.reader with
      | .loaded _ generation _ => generation != t.mediaGeneration
      | _ => false
  | .readPop => t.current
  | .discardPop =>
      match t.reader with
      | .discarding _ _ => true
      | _ => false
  | .supplyMoves _ => true

/-- One pop of the discard loop; an empty one ends the read with nothing. -/
def discardPop (count floor : Nat) (t : Threads β S) : Threads β S :=
  match t.path.ring.pop count with
  | (bytes, ring) =>
      if bytes.isEmpty then
        { t with path.ring := ring, reader := .idle, reads := t.reads ++ [(floor, [])] }
      else
        { t with path.ring := ring }

def readPop (count floor : Nat) (t : Threads β S) : Threads β S :=
  match t.path.ring.pop count with
  | (filled, ring) =>
      { t with path.ring := ring, reader := .idle, reads := t.reads ++ [(floor, filled)] }

/-- `others` and `handoffBytes` are the pool and the tuning of the session. -/
def step (others : Nat → Nat → Nat) (handoffBytes : Nat) (t : Threads β S) : Micro β → Threads β S
  | .onBinary bytes =>
      match t.path.jitter.append others t.supply bytes with
      | (refused, jitter, supply) =>
          { t with
            path.jitter := jitter
            supply := supply
            shard := .pumping
            admitted := t.admitted ++ bytes.take (bytes.length - refused) }
  | .pump => { t with shard := .pumping }
  | .push =>
      match t.path.transferOnce handoffBytes t.supply with
      | none => t
      | some (path, supply) => { t with path := path, supply := supply }
  -- the marks are taken once the handover has stopped
  | .pumpEnd =>
      { t with path.jitter := t.path.jitter.takeReachedMarks.2, shard := .idle }
  | .clearBuffer =>
      match t.path.jitter.clear t.supply with
      | (jitter, supply) =>
          { t with path.jitter := jitter, supply := supply, shard := .clearing, armed := none }
  | .bumpGeneration =>
      { t with generation := t.generation + 1, shard := .idle, cleared := t.admitted.length }
  -- only the first mark after a clear starts a turn
  | .mark name =>
      { t with
        path.jitter := t.path.jitter.addMark name
        armed := some (t.armed.getD t.admitted.length) }
  | .readBegin count => { t with reader := .loaded count t.generation t.cleared }
  | .readStore =>
      match t.reader with
      | .loaded count generation floor =>
          { t with mediaGeneration := generation, reader := .discarding count floor }
      | _ => t
  | .readPop =>
      match t.reader with
      | .loaded count _ floor => t.readPop count floor
      | _ => t
  | .discardPop =>
      match t.reader with
      | .discarding count floor => t.discardPop count floor
      | _ => t
  | .supplyMoves supply => { t with supply := supply }

section

variable (others : Nat → Nat → Nat) (handoffBytes : Nat) {t : Threads β S}

theorem step_push {path : PlaybackPath β S} {supply : SlabSupply}
    (h : t.path.transferOnce handoffBytes t.supply = some (path, supply)) :
    t.step others handoffBytes .push = { t with path := path, supply := supply } := by
  simp only [step, h]

theorem step_push_stuck (h : t.path.transferOnce handoffBytes t.supply = none) :
    t.step others handoffBytes .push = t := by
  simp only [step, h]

/-- A read that stores the generation has loaded another one than the media thread knew. -/
theorem readStore_cases (h : t.enabled .readStore = true) :
    ∃ count generation floor, t.reader = .loaded count generation floor ∧
      generation ≠ t.mediaGeneration ∧
      t.step others handoffBytes .readStore =
        { t with mediaGeneration := generation, reader := .discarding count floor } := by
  cases hreader : t.reader with
  | loaded count generation floor =>
      refine ⟨count, generation, floor, rfl, ?_, ?_⟩
      · simpa [enabled, hreader] using h
      · simp only [step, hreader]
  | idle => simp [enabled, hreader] at h
  | discarding count floor => simp [enabled, hreader] at h

/-- A read that pops its frame has loaded the generation the media thread knows. -/
theorem readPop_cases (h : t.enabled .readPop = true) :
    ∃ count floor, t.reader = .loaded count t.mediaGeneration floor ∧
      t.step others handoffBytes .readPop = t.readPop count floor := by
  cases hreader : t.reader with
  | loaded count generation floor =>
      obtain rfl : generation = t.mediaGeneration := by
        simpa [enabled, current, hreader] using h
      exact ⟨count, floor, rfl, by simp only [step, hreader]⟩
  | idle => simp [enabled, current, hreader] at h
  | discarding count floor => simp [enabled, current, hreader] at h

theorem discardPop_cases (h : t.enabled .discardPop = true) :
    ∃ count floor, t.reader = .discarding count floor ∧
      t.step others handoffBytes .discardPop = t.discardPop count floor := by
  cases hreader : t.reader with
  | discarding count floor => exact ⟨count, floor, rfl, by simp only [step, hreader]⟩
  | idle => simp [enabled, hreader] at h
  | loaded count generation floor => simp [enabled, hreader] at h

end

end Threads

/-! ## Sessions are runs of it -/

/-- A run of the two threads. -/
def Runs (others : Nat → Nat → Nat) (handoffBytes : Nat) : Threads β S → Threads β S → Prop :=
  Run (Threads.step others handoffBytes) fun t m => t.enabled m = true

/-- The playback path of a session between two calls. -/
structure Matches (handoffBytes : Nat) (t : Threads β S) (w : World β S) : Prop where
  handoff : w.session.tuning.playbackHandoffBytes = handoffBytes
  path : w.session.playback.path = some t.path
  supply : w.supply = t.supply
  generation : w.session.playback.generation = t.generation
  mediaGeneration : w.session.playback.mediaGeneration = t.mediaGeneration
  shard : t.shard = .idle
  reader : t.reader = .idle

section

variable (others : Nat → Nat → Nat) (handoffBytes : Nat) {t : Threads β S}

theorem run_one {m : Micro β} (h : t.enabled m = true) :
    Runs others handoffBytes t (t.step others handoffBytes m) :=
  .tail m .refl h

/-- The handover loop, one push at a time. -/
theorem run_transfer (fuel : Nat) (hshard : t.shard = .pumping) :
    Runs others handoffBytes t
      { t with
        path := (t.path.transfer handoffBytes fuel t.supply).1
        supply := (t.path.transfer handoffBytes fuel t.supply).2 } := by
  refine PlaybackPath.transfer_invariant
    (P := fun path supply => Runs others handoffBytes t { t with path := path, supply := supply })
    ?_ fuel .refl
  intro path path' supply supply' hrun hround
  have hpush := Threads.step_push (t := { t with path := path, supply := supply }) others handoffBytes
    hround
  have hnext := hrun.tail .push (by simp [Threads.enabled, hshard])
  rw [hpush] at hnext
  exact hnext

/-- `PumpPlayback` from its first push to its end. -/
theorem run_pumped (hshard : t.shard = .pumping) :
    Runs others handoffBytes t
      { t with
        path := (t.path.pumped handoffBytes t.supply).1
        supply := (t.path.pumped handoffBytes t.supply).2
        shard := .idle } := by
  have hmoved := run_transfer others handoffBytes t.path.jitter.size hshard
  -- the loop has stopped by itself, so the shard may go on to the marks
  refine hmoved.tail .pumpEnd ?_
  simp [Threads.enabled, hshard]

/-- The discard loop of `ReadPlayback`, one pop at a time.  A loop that has more rounds than the ring
has bytes ends with an empty pop. -/
theorem run_discard {count floor : Nat} (hcount : count ≠ 0) (fuel : Nat)
    (hfuel : t.path.ring.size < fuel) (hreader : t.reader = .discarding count floor) :
    Runs others handoffBytes t
      { t with
        path.ring := Session.discard count fuel t.path.ring
        reader := .idle
        reads := t.reads ++ [(floor, [])] } := by
  induction fuel generalizing t with
  | zero => exact absurd hfuel (Nat.not_lt_zero _)
  | succ fuel ih =>
      have henabled : t.enabled .discardPop = true := by simp [Threads.enabled, hreader]
      have hfirst := run_one others handoffBytes henabled
      have hstep : t.step others handoffBytes .discardPop = t.discardPop count floor := by
        simp [Threads.step, hreader]
      rw [hstep] at hfirst
      unfold Session.discard
      unfold Threads.discardPop at hfirst
      simp only at hfirst ⊢
      split
      · rename_i hempty
        rw [if_pos hempty] at hfirst
        exact hfirst
      · rename_i hmore
        rw [if_neg hmore] at hfirst
        refine hfirst.trans (ih (t := { t with path.ring := (t.path.ring.pop count).2 }) ?_ hreader)
        -- the pop took at least one byte
        have hbytes : t.path.ring.bytes ≠ [] := by
          intro hnil
          simp [SpscByteRing.pop, hnil] at hmore
        have hpos : 0 < t.path.ring.bytes.length := List.length_pos_iff.mpr hbytes
        have hless : (t.path.ring.bytes.drop count).length < t.path.ring.bytes.length := by
          rw [List.length_drop]
          omega
        exact Nat.lt_of_lt_of_le hless (Nat.le_of_lt_succ hfuel)

end

namespace Matches

variable {env : Env β} {handoffBytes : Nat} {t : Threads β S} {v w : World β S}

/-- A move that leaves the playback path alone is at most a move of the pool. -/
theorem aside (h : Matches handoffBytes t w)
    (htuning : v.session.tuning = w.session.tuning)
    (hpath : v.session.playback.path = w.session.playback.path)
    (hgeneration : v.session.playback.generation = w.session.playback.generation)
    (hmedia : v.session.playback.mediaGeneration = w.session.playback.mediaGeneration) :
    ∃ t', Runs env.others handoffBytes t t' ∧ Matches handoffBytes t' v := by
  refine ⟨{ t with supply := v.supply }, run_one env.others handoffBytes (m := .supplyMoves v.supply)
    rfl, ?_⟩
  exact
    { handoff := htuning ▸ h.handoff
      path := hpath.trans h.path
      supply := rfl
      generation := hgeneration.trans h.generation
      mediaGeneration := hmedia.trans h.mediaGeneration
      shard := h.shard
      reader := h.reader }

/-- `PumpPlayback`, entered with the shard at the top of its loop. -/
theorem pumpPlayback (h : Matches handoffBytes { t with shard := .idle } w)
    (hshard : t.shard = .pumping) :
    ∃ t', Runs env.others handoffBytes t t' ∧ Matches handoffBytes t' w.pumpPlayback := by
  refine ⟨_, run_pumped env.others handoffBytes hshard, ?_⟩
  have haudio := World.audio_pumpPlayback (w := w)
  have hpumped : w.pumped t.path = t.path.pumped handoffBytes t.supply := by
    unfold World.pumped
    rw [h.handoff, h.supply]
  have hpath : w.pumpPlayback.session.playback.path =
      w.session.playback.path.map fun path => (w.pumped path).1 := congrArg Audio.path haudio
  rw [h.path, Option.map_some, hpumped] at hpath
  have hsupply := World.supply_pumpPlayback h.path
  rw [hpumped] at hsupply
  exact
    { handoff := (congrArg (fun a => a.tuning.playbackHandoffBytes) haudio).trans h.handoff
      path := hpath
      supply := hsupply
      generation := (congrArg Audio.generation haudio).trans h.generation
      mediaGeneration := (congrArg Audio.mediaGeneration haudio).trans h.mediaGeneration
      shard := rfl
      reader := h.reader }

theorem onBinary (h : Matches handoffBytes t w) {bytes : List β} (hbytes : bytes ≠ []) :
    ∃ t', Runs env.others handoffBytes t t' ∧
      Matches handoffBytes t' (w.receive env t.path bytes).pumpPlayback := by
  have hfirst : Runs env.others handoffBytes t (t.step env.others handoffBytes (.onBinary bytes)) :=
    run_one env.others handoffBytes (by simp [Threads.enabled, h.shard, hbytes])
  have haudio : (w.receive env t.path bytes).audio = _ := World.audio_receive t.path bytes
  have hsupply : (w.receive env t.path bytes).supply =
      (t.path.jitter.append env.others w.supply bytes).2.2 := by
    rcases World.receive_writes env w t.path bytes with ⟨dropped, started, events, -, hwrites⟩
    rw [hwrites]
  have hpath : (w.receive env t.path bytes).session.playback.path =
      some { t.path with jitter := (t.path.jitter.append env.others w.supply bytes).2.1 } :=
    congrArg Audio.path haudio
  rw [h.supply] at hsupply hpath
  have hreceived : Matches handoffBytes
      { t.step env.others handoffBytes (.onBinary bytes) with shard := .idle }
      (w.receive env t.path bytes) :=
    { handoff := (congrArg (fun a => a.tuning.playbackHandoffBytes) haudio).trans h.handoff
      path := hpath
      supply := hsupply
      generation := (congrArg Audio.generation haudio).trans h.generation
      mediaGeneration := (congrArg Audio.mediaGeneration haudio).trans h.mediaGeneration
      shard := rfl
      reader := h.reader }
  have hpumped : ∃ t', Runs env.others handoffBytes
      (t.step env.others handoffBytes (.onBinary bytes)) t' ∧
        Matches handoffBytes t' (w.receive env t.path bytes).pumpPlayback :=
    pumpPlayback hreceived rfl
  rcases hpumped with ⟨t', hrest, hmatches⟩
  exact ⟨t', hfirst.trans hrest, hmatches⟩

theorem handleClear (h : Matches handoffBytes t w) :
    ∃ t', Runs env.others handoffBytes t t' ∧ Matches handoffBytes t' (w.handleClear t.path) := by
  have hfirst : Runs env.others handoffBytes t (t.step env.others handoffBytes .clearBuffer) :=
    run_one env.others handoffBytes (by simp [Threads.enabled, h.shard])
  have haudio : (w.handleClear t.path).audio = _ := World.audio_handleClear t.path
  have hsupply : (w.handleClear t.path).supply = (t.path.jitter.clear w.supply).2 := by
    rcases World.handleClear_writes w t.path with ⟨paused, pauses, hwrites⟩
    rw [hwrites]
  refine ⟨_, hfirst.tail .bumpGeneration rfl, ?_⟩
  have hpath : (w.handleClear t.path).session.playback.path =
      some { t.path with jitter := (t.path.jitter.clear w.supply).1 } :=
    congrArg Audio.path haudio
  rw [h.supply] at hsupply hpath
  exact
    { handoff := (congrArg (fun a => a.tuning.playbackHandoffBytes) haudio).trans h.handoff
      path := hpath
      supply := hsupply
      generation := (congrArg Audio.generation haudio).trans (congrArg (· + 1) h.generation)
      mediaGeneration := (congrArg Audio.mediaGeneration haudio).trans h.mediaGeneration
      shard := rfl
      reader := h.reader }

theorem handleMark (h : Matches handoffBytes t w) (name : Text) :
    ∃ t', Runs env.others handoffBytes t t' ∧ Matches handoffBytes t' (w.handleMark t.path name) := by
  refine ⟨_, run_one env.others handoffBytes (m := .mark name) (by simp [Threads.enabled, h.shard]),
    ?_⟩
  exact
    { handoff := h.handoff
      path := rfl
      supply := h.supply
      generation := h.generation
      mediaGeneration := h.mediaGeneration
      shard := h.shard
      reader := h.reader }

theorem readPlayback (h : Matches handoffBytes t w) (count : Nat) :
    ∃ t', Runs env.others handoffBytes t t' ∧ Matches handoffBytes t' (w.readPlayback count) := by
  by_cases hcount : count = 0
  · -- an empty frame: nothing is read
    subst hcount
    have hsame : (w.session.playback.read 0).2 = w.session.playback := by
      unfold Session.Playback.read
      rw [h.path]
      rfl
    refine ⟨t, .refl, ?_⟩
    unfold World.readPlayback
    rw [hsame]
    exact { h with }
  · have hbegin : Runs env.others handoffBytes t
        { t with reader := .loaded count t.generation t.cleared } :=
      run_one env.others handoffBytes (m := .readBegin count)
        (by simp [Threads.enabled, h.reader, hcount])
    by_cases hstale : t.generation = t.mediaGeneration
    · have hgeneration : w.session.playback.generation = w.session.playback.mediaGeneration := by
        rw [h.generation, h.mediaGeneration, hstale]
      rcases Session.Playback.read_current h.path hcount hgeneration with
        ⟨-, hpath, hgen, hmedia⟩
      refine ⟨_, hbegin.tail .readPop ?_, ?_⟩
      · simp [Threads.enabled, Threads.current, hstale]
      · exact
          { handoff := h.handoff
            path := hpath
            supply := h.supply
            generation := hgen.trans h.generation
            mediaGeneration := hmedia.trans h.mediaGeneration
            shard := h.shard
            reader := rfl }
    · have hgeneration : w.session.playback.generation ≠ w.session.playback.mediaGeneration := by
        rw [h.generation, h.mediaGeneration]
        exact hstale
      have hread := congrArg Prod.snd (Session.Playback.read_stale h.path hcount hgeneration)
      have hstore : Runs env.others handoffBytes t
          { t with
            mediaGeneration := t.generation
            reader := .discarding count t.cleared } := by
        have hnext := Run.tail Micro.readStore hbegin (by simp [Threads.enabled, hstale])
        exact hnext
      refine ⟨_, hstore.trans (run_discard env.others handoffBytes hcount (t.path.ring.size + 1)
        (Nat.lt_succ_self _) rfl), ?_⟩
      unfold World.readPlayback
      rw [hread]
      exact
        { handoff := h.handoff
          path := rfl
          supply := h.supply
          generation := h.generation
          mediaGeneration := h.generation
          shard := h.shard
          reader := rfl }

/-- Every move of a session that stays alive is a run of its playback threads. -/
theorem move (hmove : World.Move env w v) (h : Matches handoffBytes t w)
    (halive : v.session.state ≠ .dead) :
    ∃ t', Runs env.others handoffBytes t t' ∧ Matches handoffBytes t' v := by
  cases hmove with
  | quiet hsame =>
      exact h.aside (congrArg Audio.tuning hsame) (congrArg Audio.path hsame)
        (congrArg Audio.generation hsame) (congrArg Audio.mediaGeneration hsame)
  | drainHandoffRing _ => exact h.aside rfl rfl rfl rfl
  | flushToConnection =>
      unfold World.flushToConnection
      split
      · exact ⟨t, .refl, h⟩
      · exact h.aside rfl rfl rfl rfl
  | restoreCapIfDrained => exact h.aside rfl rfl rfl rfl
  -- the one move that empties the path without a word to the media thread
  | retire => exact absurd (congrArg Lifecycle.state (World.lifecycle_retire w)) halive
  | pushAudio pcm =>
      unfold World.pushAudio
      split
      · exact h.aside rfl rfl rfl rfl
      · exact ⟨t, .refl, h⟩
  | onBinary hbytes hpath _ =>
      obtain rfl := Option.some.inj (hpath.symm.trans h.path)
      exact h.onBinary hbytes
  | pumpPlayback =>
      have hfirst : Runs env.others handoffBytes t { t with shard := .pumping } :=
        run_one env.others handoffBytes (m := .pump) (by simp [Threads.enabled, h.shard])
      have hidle : Matches handoffBytes { t with shard := .idle } w := { h with shard := rfl }
      have hpumped : ∃ t', Runs env.others handoffBytes { t with shard := .pumping } t' ∧
          Matches handoffBytes t' w.pumpPlayback :=
        pumpPlayback (t := { t with shard := .pumping }) hidle rfl
      rcases hpumped with ⟨t', hrest, hmatches⟩
      exact ⟨t', hfirst.trans hrest, hmatches⟩
  | handleClear hpath =>
      obtain rfl := Option.some.inj (hpath.symm.trans h.path)
      exact h.handleClear
  | handleMark name hpath =>
      obtain rfl := Option.some.inj (hpath.symm.trans h.path)
      exact h.handleMark name
  | readPlayback count => exact h.readPlayback count

end Matches

theorem matches_create {params : ForkParams} {tuning : Tuning} {onFinished : Bool}
    {supply : SlabSupply} {w : World β S} {path : PlaybackPath β S}
    (hcreate : World.create params tuning onFinished supply = some w)
    (hpath : w.session.playback.path = some path) :
    Matches tuning.playbackHandoffBytes (.initial path supply) w := by
  rcases World.create_spec hcreate with ⟨ring, path', rate, channels, -, -, -, rfl⟩
  exact
    { handoff := rfl
      path := hpath
      supply := rfl
      generation := rfl
      mediaGeneration := rfl
      shard := rfl
      reader := rfl }

/-- The playback path of a session that is not dead went through a run of the two threads. -/
theorem threads_of_run {env : Env β} {params : ForkParams} {tuning : Tuning} {onFinished : Bool}
    {supply : SlabSupply} {w₀ w : World β S} {path : PlaybackPath β S}
    (hcreate : World.create params tuning onFinished supply = some w₀)
    (hpath : w₀.session.playback.path = some path)
    (hrun : Run (Session.step env) (fun _ _ => True) w₀ w) (halive : w.session.state ≠ .dead) :
    ∃ t, Runs env.others tuning.playbackHandoffBytes (.initial path supply) t ∧
      Matches tuning.playbackHandoffBytes t w := by
  -- carried along the run: a session that is still alive has such a run behind it
  let Traced : World β S → Prop := fun v => v.session.state ≠ .dead →
    ∃ t, Runs env.others tuning.playbackHandoffBytes (.initial path supply) t ∧
      Matches tuning.playbackHandoffBytes t v
  have hmove : ∀ a b : World β S, World.Move env a b → Traced a → Traced b := by
    intro a b hmove ha hb
    rcases ha (mt hmove.dead hb) with ⟨t, hbefore, hmatches⟩
    rcases hmatches.move hmove hb with ⟨t', hafter, hmatches'⟩
    exact ⟨t', hbefore.trans hafter, hmatches'⟩
  have htraced : Traced w := by
    refine hrun.invariant (I := Traced) ?_ ?_
    · exact fun _ => ⟨_, .refl, matches_create hcreate hpath⟩
    · intro v s hv _ hnext
      have hbefore : v.session.state ≠ .dead := fun hdead => hnext (dead_step hdead s)
      exact (moves_step env (intake_alive hbefore s)).preserves hmove hv hnext
  exact htraced halive

end Playback
end AudioFork
