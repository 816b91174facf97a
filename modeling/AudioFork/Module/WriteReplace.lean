import AudioFork.Playback.ReadFrame

/-!
# WriteReplace — playback into the call's frames

The `WRITE_REPLACE` callback of `OnMediaBug`, once per media frame on the media thread.  At the
session's own rate the frame is filled in place; at another rate the callback asks `ReadPlayback` for
the bytes the frame corresponds to, hands whole samples of them to the resampler and copies what
comes out.

The request is the frame's length scaled by the two rates and truncated.  Nothing rounds it to a
sample, so a read can end in the middle of one.
-/

namespace AudioFork
namespace Module

open Buffers Session

variable {β : Type} {S : ℕ+}

/-- What the callback keeps in `ForkBug` for playback. -/
structure PlaybackBug where
  sessionRate : Nat
  /-- The rate the playback resampler was created for; `none` is a null pointer. -/
  resampler : Option Nat
  /-- The size of `playback_scratch`.  A read always comes before a look at its contents. -/
  scratchSamples : Nat
  deriving DecidableEq, Repr

/-- What the resampler does: whether one can be created, and what it makes of some samples. -/
structure ResamplerAnswers (β : Type) where
  created : Bool
  process : List β → List β

/-- `EnsurePlaybackResampler`. -/
def PlaybackBug.ensurePlaybackResampler (bug : PlaybackBug) (created : Bool) (fromRate : Nat) :
    Bool × PlaybackBug :=
  if fromRate = bug.sessionRate then
    (true, { bug with resampler := none })
  else if bug.resampler = some fromRate then
    (true, bug)
  else if created then
    (true, { bug with resampler := some fromRate })
  else
    (false, { bug with resampler := none })

/-- The bytes of playback a frame of `datalen` bytes corresponds to. -/
def PlaybackBug.wanted (bug : PlaybackBug) (datalen rate : Nat) : Nat :=
  max (datalen * rate / bug.sessionRate) 2

/-- What a callback leaves behind.  `taken` is what `ReadPlayback` gave it, `passed` what went on to
the resampler, `replaced` whether the frame was set. -/
structure Replacement (β : Type) (S : ℕ+) where
  bug : PlaybackBug
  playback : Playback β S
  frame : Option (List β)
  taken : List β
  passed : List β
  replaced : Bool

/-- The callback.  It has no value where the source divides by a session rate of zero. -/
def writeReplace (answers : ResamplerAnswers β) (bug : PlaybackBug) (p : Playback β S)
    (frame : Option (List β)) : Option (Replacement β S) :=
  let untouched : Replacement β S :=
    { bug, playback := p, frame, taken := [], passed := [], replaced := false }
  if p.path.isNone then
    some untouched
  else
    match frame with
    | none => some untouched
    | some data =>
      if data.isEmpty then
        some untouched
      else
        match bug.ensurePlaybackResampler answers.created p.rate with
        | (false, bug) => some { untouched with bug }
        | (true, bug) =>
          if bug.resampler.isNone then
            -- rates match: fill in place
            match p.readInto data with
            | (filled, data, p) =>
              some
                { bug, playback := p, frame := some data, taken := data.take filled, passed := [],
                  replaced := decide (0 < filled) }
          else if bug.sessionRate = 0 then
            none
          else
            match p.read (min (bug.wanted data.length p.rate) (bug.scratchSamples * 2)) with
            | (filled, p) =>
              if filled.isEmpty then
                some { untouched with bug, playback := p }
              else
                let passed := filled.take (filled.length / 2 * 2)
                let produced := answers.process passed
                if produced.isEmpty then
                  some { untouched with bug, playback := p, taken := filled, passed }
                else
                  some
                    { bug, playback := p, frame := some (copyTo data 0 (produced.take data.length)),
                      taken := filled, passed, replaced := true }

/-! ## The resampled path -/

/-- With rates that differ, a callback that finds no resampler reads nothing; otherwise it reads one
request, and passes on as many whole samples as that holds. -/
theorem writeReplace_resampled (answers : ResamplerAnswers β) {bug : PlaybackBug}
    {p : Playback β S} (hpath : p.path.isSome) {data : List β} (hdata : data ≠ [])
    (hrate : p.rate ≠ bug.sessionRate) :
    if (bug.ensurePlaybackResampler answers.created p.rate).1 = false then
      ∃ r, writeReplace answers bug p (some data) = some r ∧ r.playback = p ∧ r.taken = [] ∧
        r.passed = []
    else if bug.sessionRate = 0 then
      writeReplace answers bug p (some data) = none
    else
      ∃ r, writeReplace answers bug p (some data) = some r ∧
        (r.taken, r.playback) =
          p.read (min (bug.wanted data.length p.rate) (bug.scratchSamples * 2)) ∧
        r.passed = r.taken.take (r.taken.length / 2 * 2) := by
  have hsome : ¬(p.path.isNone = true) := by simpa using Option.isSome_iff_ne_none.mp hpath
  have hempty : ¬(data.isEmpty = true) := by simpa using hdata
  -- a resampler that is there leaves the other fields of the bug alone
  have hready : ∀ bug', bug.ensurePlaybackResampler answers.created p.rate = (true, bug') →
      bug'.resampler.isNone = false ∧ bug'.sessionRate = bug.sessionRate ∧
        bug'.scratchSamples = bug.scratchSamples := by
    intro bug' h
    unfold PlaybackBug.ensurePlaybackResampler at h
    rw [if_neg hrate] at h
    split at h
    · next hsame =>
      obtain rfl := (Prod.mk.inj h).2
      exact ⟨by rw [hsame]; rfl, rfl, rfl⟩
    · split at h
      · obtain rfl := (Prod.mk.inj h).2
        exact ⟨rfl, rfl, rfl⟩
      · cases (Prod.mk.inj h).1
  simp only [writeReplace, if_neg hsome, if_neg hempty]
  rcases hensure : bug.ensurePlaybackResampler answers.created p.rate with ⟨ok, bug'⟩
  cases ok with
  | false => exact ⟨_, rfl, rfl, rfl, rfl⟩
  | true =>
    obtain ⟨hresampler, hsession, hscratch⟩ := hready bug' hensure
    simp only [hresampler, hsession, hscratch, PlaybackBug.wanted, Bool.true_eq_false,
      Bool.false_eq_true, if_false]
    split
    · rfl
    · split
      · next hfilled =>
        have hnil : (p.read _).1 = [] := List.isEmpty_iff.mp hfilled
        exact ⟨_, rfl, Prod.ext hnil.symm rfl, by simp⟩
      · split <;> exact ⟨_, rfl, rfl, rfl⟩

/-! ## Whole samples -/

/-- Every byte that was taken went to the resampler, and both what was taken and what is left in the
ring is a whole number of samples. -/
structure Replacement.WholeSamples (r : Replacement β S) : Prop where
  taken : 2 ∣ r.taken.length
  passed : r.passed = r.taken
  left : ∀ path, r.playback.path = some path → 2 ∣ path.ring.size

/-- What a read takes and leaves, for the ring it finds. -/
theorem read_sizes {p : Playback β S} {path : PlaybackPath β S} (hpath : p.path = some path)
    (count : Nat) :
    if p.generation = p.mediaGeneration then
      (p.read count).1.length = min count path.ring.size ∧
        ∀ path', (p.read count).2.path = some path' →
          path'.ring.size = path.ring.size - (p.read count).1.length
    else
      (p.read count).1 = [] ∧
        ∀ path', (p.read count).2.path = some path' →
          path'.ring.size = path.ring.size ∨ path'.ring.size = 0 := by
  by_cases hcount : count = 0
  · have hread : p.read count = ([], p) := by simp [Playback.read, hpath, hcount]
    have hsame : ∀ path', p.path = some path' → path' = path := by
      intro path' hpath'
      exact Option.some.inj (hpath'.symm.trans hpath)
    rw [hread]
    split
    · exact ⟨by simp [hcount], fun path' hpath' => by rw [hsame path' hpath']; rfl⟩
    · exact ⟨rfl, fun path' hpath' => .inl (by rw [hsame path' hpath'])⟩
  · split
    · next hcurrent =>
      obtain ⟨htaken, hleft, -, -⟩ := Playback.read_current hpath hcount hcurrent
      have hlength : (p.read count).1.length = min count path.ring.size := by
        rw [htaken, SpscByteRing.pop_fst, List.length_take, SpscByteRing.size]
      refine ⟨hlength, fun path' hpath' => ?_⟩
      obtain rfl := Option.some.inj (hleft.symm.trans hpath')
      rw [hlength]
      simp only [SpscByteRing.size, SpscByteRing.pop, List.length_drop]
      omega
    · next hstale =>
      rw [Playback.read_stale hpath hcount hstale]
      refine ⟨rfl, fun path' hpath' => .inr ?_⟩
      obtain rfl := Option.some.inj hpath'
      have hbytes := discard_bytes hcount _ path.ring (Nat.lt_succ_self path.ring.bytes.length)
      exact List.length_eq_zero_iff.mpr hbytes

/-- Out of a ring of whole samples, a callback moves whole samples as soon as it takes an even number
of bytes. -/
theorem Replacement.wholeSamples_iff {r : Replacement β S} {p : Playback β S}
    {path : PlaybackPath β S} (hpath : p.path = some path) (hring : 2 ∣ path.ring.size) {count : Nat}
    (hread : (r.taken, r.playback) = p.read count)
    (hpassed : r.passed = r.taken.take (r.taken.length / 2 * 2)) :
    r.WholeSamples ↔ 2 ∣ r.taken.length := by
  constructor
  · exact fun h => h.taken
  · intro hdvd
    have hall : r.passed = r.taken := by
      rw [hpassed, Nat.div_mul_cancel hdvd, List.take_length]
    refine ⟨hdvd, hall, fun path' hpath' => ?_⟩
    have hsizes := read_sizes hpath count
    rw [← hread] at hsizes
    split at hsizes
    · rw [hsizes.2 path' hpath']
      exact Nat.dvd_sub hring hdvd
    · -- a stale read takes nothing, and leaves the ring or nothing of it
      rcases hsizes.2 path' hpath' with hsame | hempty
      · rwa [hsame]
      · rw [hempty]
        exact Nat.dvd_zero 2

/-- When a request of the resampled path takes an even number of bytes. -/
theorem dvd_taken_iff (bug : PlaybackBug) {p : Playback β S} {path : PlaybackPath β S}
    (hpath : p.path = some path) (hring : 2 ∣ path.ring.size) (datalen : Nat) :
    2 ∣ (p.read (min (bug.wanted datalen p.rate) (bug.scratchSamples * 2))).1.length ↔
      p.generation ≠ p.mediaGeneration ∨
        2 ∣ datalen * p.rate / bug.sessionRate ∨
        datalen * p.rate / bug.sessionRate = 1 ∨
        bug.scratchSamples * 2 ≤ datalen * p.rate / bug.sessionRate ∨
        path.ring.size ≤ datalen * p.rate / bug.sessionRate := by
  have hsizes := read_sizes hpath (min (bug.wanted datalen p.rate) (bug.scratchSamples * 2))
  split at hsizes
  · next hcurrent =>
    rw [or_iff_right (not_not_intro hcurrent), hsizes.1, PlaybackBug.wanted]
    generalize datalen * p.rate / bug.sessionRate = request
    omega
  · next hstale =>
    rw [hsizes.1]
    exact iff_of_true (Nat.dvd_zero 2) (.inl hstale)

/-- Given a ring of whole samples, a callback at another rate than the session's moves whole samples
exactly when it reads nothing, or its request is even (or below two bytes, where one sample is
asked for), or the scratch or the ring ends the read first. -/
theorem writeReplace_wholeSamples_iff (answers : ResamplerAnswers β) (bug : PlaybackBug)
    (p : Playback β S) (path : PlaybackPath β S) (hpath : p.path = some path) (data : List β)
    (hdata : data ≠ []) (hrate : p.rate ≠ bug.sessionRate) (hring : 2 ∣ path.ring.size) :
    (∃ r, writeReplace answers bug p (some data) = some r ∧ r.WholeSamples) ↔
      (bug.ensurePlaybackResampler answers.created p.rate).1 = false ∨
      bug.sessionRate ≠ 0 ∧
        (p.generation ≠ p.mediaGeneration ∨
          2 ∣ data.length * p.rate / bug.sessionRate ∨
          data.length * p.rate / bug.sessionRate = 1 ∨
          bug.scratchSamples * 2 ≤ data.length * p.rate / bug.sessionRate ∨
          path.ring.size ≤ data.length * p.rate / bug.sessionRate) := by
  have hcall := writeReplace_resampled answers (by rw [hpath]; rfl) hdata hrate
  split at hcall
  · next hnone =>
    -- no resampler: nothing is read
    obtain ⟨r, hr, hplayback, htaken, hpassed⟩ := hcall
    refine iff_of_true ⟨r, hr, by simp [htaken], by rw [htaken, hpassed], ?_⟩ (.inl hnone)
    intro path' hpath'
    rw [hplayback, hpath] at hpath'
    rwa [← Option.some.inj hpath']
  · next hready =>
    rw [or_iff_right hready]
    split at hcall
    · next hzero =>
      -- the division by the session's rate has no value
      refine iff_of_false ?_ (fun h => h.1 hzero)
      rintro ⟨r, hr, -⟩
      rw [hcall] at hr
      cases hr
    · next hsession =>
      obtain ⟨r, hr, hread, hpassed⟩ := hcall
      have hunique : (∃ r', writeReplace answers bug p (some data) = some r' ∧ r'.WholeSamples) ↔
          r.WholeSamples := by
        constructor
        · rintro ⟨r', hr', hwhole⟩
          rwa [Option.some.inj (hr.symm.trans hr')]
        · exact fun hwhole => ⟨r, hr, hwhole⟩
      rw [hunique, and_iff_right hsession, r.wholeSamples_iff hpath hring hread hpassed,
        ← dvd_taken_iff bug hpath hring, ← hread]

/-! ## A request in the middle of a sample -/

namespace Sample

/-- A session at eight kilohertz. -/
def bug : PlaybackBug := { sessionRate := 8000, resampler := none, scratchSamples := 4096 }

def resampler : ResamplerAnswers UInt8 := { created := true, process := id }

/-- A server that declared `rate`, with 512 bytes in the ring. -/
def path : PlaybackPath UInt8 Session.Sample.slabBytes :=
  { jitter := .create 1024
    ring :=
      { capacity := 512
        bytes := List.replicate 512 7
        fits := Nat.le_of_eq List.length_replicate } }

def playback (rate : Nat) : Playback UInt8 Session.Sample.slabBytes :=
  { path := some path
    generation := 0
    mediaGeneration := 0
    rate := rate
    channels := 1
    started := true
    receivePaused := false
    bytesReceived := 512
    bytesPlayed := 0
    underruns := 0
    bargeIns := 0
    bufferedBytes := 0
    bytesDropped := 0 }

end Sample

/-- Twenty milliseconds at eight kilohertz from a server at sixteen: a request of 640 bytes. -/
theorem writeReplace_wholeSamples_wideband :
    ∃ r, writeReplace Sample.resampler Sample.bug (Sample.playback 16000)
      (some (List.replicate 320 0)) = some r ∧ r.WholeSamples :=
  (writeReplace_wholeSamples_iff Sample.resampler Sample.bug (Sample.playback 16000) Sample.path rfl
    (List.replicate 320 0) (by decide +kernel) (by decide) (by decide +kernel)).mpr
    (by decide +kernel)

/-- The same frame from a server at 11025 Hz: a request of 441 bytes, of which 440 are played, and
the next read starts with the second half of a sample. -/
theorem writeReplace_splits_sample :
    ∃ r, writeReplace Sample.resampler Sample.bug (Sample.playback 11025)
      (some (List.replicate 320 0)) = some r ∧ r.taken.length = 441 ∧ r.passed.length = 440 ∧
        ¬r.WholeSamples := by
  refine ⟨(writeReplace Sample.resampler Sample.bug (Sample.playback 11025)
    (some (List.replicate 320 0))).get (by decide +kernel), (Option.some_get _).symm,
    by decide +kernel, by decide +kernel, ?_⟩
  intro hwhole
  exact absurd hwhole.taken (by decide +kernel)

end Module
end AudioFork
