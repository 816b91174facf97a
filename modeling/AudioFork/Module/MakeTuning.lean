import AudioFork.Buffers.SlabPool
import AudioFork.Config.Sanitize
import AudioFork.Lib.WholeFrames
import AudioFork.Session.Alignment

/-!
# MakeTuning — byte limits from a configuration and a format

`MakeTuning` of `mod_audio_fork.cpp` turns the durations of a sanitized configuration into byte
counts of the fork's format.

* The limits keep the order of the durations they come from and none of them is zero, so a pool and
  a fork can be built from every sanitized configuration.
* A limit is a whole number of sample frames only as far as the truncating division allows, and
  `dvd_bytesForDuration_iff` says exactly when.
-/

namespace AudioFork
namespace Module

open Buffers (PoolThreads)
open Session (AlignedTuning ForkSession)

/-- The retry bounds, which MakeTuning also fills in, are not part of `Tuning`.  A sanitized drain
timeout is not negative. -/
def makeTuning (config : ModuleConfig) (format : AudioFormat) : Tuning :=
  let playbackFormat : AudioFormat := { sampleRate := format.sampleRate, channels := 1 }
  { sendCapBytes := format.bytesForDuration config.sendBuffer
    handoffBytes := format.bytesForDuration config.handoffBuffer
    coalesceMaxBytes := format.bytesForDuration config.coalesceMax
    emergencyCapBytes := format.bytesForDuration config.emergencyBuffer
    drainTimeout := config.drainTimeout.toNat
    playbackHighWatermarkBytes := playbackFormat.bytesForDuration config.playbackHighWatermark
    playbackLowWatermarkBytes := playbackFormat.bytesForDuration config.playbackLowWatermark
    playbackHandoffBytes := playbackFormat.bytesForDuration config.coalesceMax }

/-- The formats a fork may have. -/
structure ForkFormat (f : AudioFormat) : Prop where
  rate : 8000 ≤ f.sampleRate ∧ f.sampleRate ≤ 48000
  channels : f.channels = 1 ∨ f.channels = 2

/-! ## Bytes of a duration -/

theorem ForkFormat.bytesPerSecond {f : AudioFormat} (hf : ForkFormat f) :
    16000 ≤ f.bytesPerSecond ∧ f.bytesPerSecond ≤ 192000 := by
  have hrate := hf.rate
  rcases hf.channels with hc | hc <;> simp only [AudioFormat.bytesPerSecond, hc] <;> omega

theorem ForkFormat.mono {f : AudioFormat} (hf : ForkFormat f) :
    ForkFormat { sampleRate := f.sampleRate, channels := 1 } :=
  ⟨hf.rate, .inl rfl⟩

/-- Up to a minute of audio nothing wraps. -/
theorem bytesForDuration_eq {f : AudioFormat} (hf : ForkFormat f) {ms : Int} (h : 0 ≤ ms)
    (hmax : ms ≤ maxBuffer) : f.bytesForDuration ms = f.bytesPerSecond * ms.toNat / 1000 := by
  have hms : ms ≤ 60000 := hmax
  have hcast : ms % 2 ^ 64 = ms := Int.emod_eq_of_lt h (by omega)
  have hproduct : f.bytesPerSecond * ms.toNat ≤ 192000 * 60000 :=
    Nat.mul_le_mul hf.bytesPerSecond.2 (by omega)
  rw [AudioFormat.bytesForDuration, hcast, Nat.mod_eq_of_lt (by omega)]

theorem bytesForDuration_mono {f : AudioFormat} (hf : ForkFormat f) {a b : Int} (ha : 0 ≤ a)
    (hab : a ≤ b) (hb : b ≤ maxBuffer) : f.bytesForDuration a ≤ f.bytesForDuration b := by
  rw [bytesForDuration_eq hf ha (hab.trans hb), bytesForDuration_eq hf (ha.trans hab) hb]
  exact Nat.div_le_div_right (Nat.mul_le_mul_left _ (Int.toNat_le_toNat hab))

theorem bytesForDuration_bounds {f : AudioFormat} (hf : ForkFormat f) {ms : Int}
    (h : minCoalesce ≤ ms) (hmax : ms ≤ maxBuffer) :
    320 ≤ f.bytesForDuration ms ∧ f.bytesForDuration ms ≤ 192 * 60000 := by
  have hmin : (20 : Int) ≤ ms := h
  have hms : ms ≤ 60000 := hmax
  have hrate := hf.bytesPerSecond
  have hlower : 16000 * 20 ≤ f.bytesPerSecond * ms.toNat := Nat.mul_le_mul hrate.1 (by omega)
  have hupper : f.bytesPerSecond * ms.toNat ≤ 192000 * 60000 := Nat.mul_le_mul hrate.2 (by omega)
  rw [bytesForDuration_eq hf (by omega) hmax]
  omega

/-! ## Sanitized configurations build forks -/

/-- How the limits of a tuning are ordered. -/
structure OrderedTuning (t : Tuning) : Prop where
  coalesce : 0 < t.coalesceMaxBytes ∧ t.coalesceMaxBytes ≤ t.handoffBytes
  handoff : t.handoffBytes ≤ t.sendCapBytes
  emergency : 0 < t.emergencyCapBytes ∧ t.emergencyCapBytes ≤ t.sendCapBytes
  playbackHandoff : 0 < t.playbackHandoffBytes
  playbackLow : t.playbackLowWatermarkBytes ≤ t.playbackHighWatermarkBytes
  playbackHigh : 0 < t.playbackHighWatermarkBytes

section Sanitized

variable {c : ModuleConfig} (hc : Sanitized c) {f : AudioFormat} (hf : ForkFormat f)

include hc hf

theorem orderedTuning_makeTuning : OrderedTuning (makeTuning c f) := by
  have hfloor : (0 : Int) ≤ minCoalesce := by decide
  have hhandoffMax := hc.handoff.2.trans hc.send.2
  have hcoalesceMax := hc.coalesce.2.trans hhandoffMax
  have hcoalesce := bytesForDuration_bounds hf hc.coalesce.1 hcoalesceMax
  have hemergency := bytesForDuration_bounds hf hc.emergency.1 (hc.emergency.2.trans hc.send.2)
  have hplayback := bytesForDuration_bounds hf.mono hc.coalesce.1 hcoalesceMax
  have hhigh := bytesForDuration_bounds hf.mono hc.high.1 hc.high.2
  have hpos : 0 < 320 := by decide
  exact
    { coalesce := ⟨hpos.trans_le hcoalesce.1,
        bytesForDuration_mono hf (hfloor.trans hc.coalesce.1) hc.coalesce.2 hhandoffMax⟩
      handoff := bytesForDuration_mono hf (hfloor.trans hc.handoff.1) hc.handoff.2 hc.send.2
      emergency := ⟨hpos.trans_le hemergency.1,
        bytesForDuration_mono hf (hfloor.trans hc.emergency.1) hc.emergency.2 hc.send.2⟩
      playbackHandoff := hpos.trans_le hplayback.1
      playbackLow := bytesForDuration_mono hf.mono hc.low.1 hc.low.2 hc.high.2
      playbackHigh := hpos.trans_le hhigh.1 }

/-- Both rings of a fork stay below the `2 ^ 31` a ring may hold. -/
theorem rings_fit_makeTuning :
    (makeTuning c f).handoffBytes ≤ Buffers.SpscByteRing.maxCapacity ∧
      (makeTuning c f).playbackHandoffBytes ≤ Buffers.SpscByteRing.maxCapacity := by
  have hhandoffMax := hc.handoff.2.trans hc.send.2
  have hhandoff := bytesForDuration_bounds hf hc.handoff.1 hhandoffMax
  have hplayback := bytesForDuration_bounds hf.mono hc.coalesce.1 (hc.coalesce.2.trans hhandoffMax)
  have hmax : Buffers.SpscByteRing.maxCapacity = 2147483648 := rfl
  exact ⟨by rw [hmax]; exact hhandoff.2.trans (by decide),
    by rw [hmax]; exact hplayback.2.trans (by decide)⟩

end Sanitized

theorem spscRing_create_isSome {β : Type} {n : Nat} (hpos : 0 < n)
    (hmax : n ≤ Buffers.SpscByteRing.maxCapacity) :
    ∃ ring, (Buffers.SpscByteRing.create n : Option (Buffers.SpscByteRing β)) = some ring := by
  rw [Buffers.SpscByteRing.create, if_neg (by omega)]
  exact ⟨_, rfl⟩

/-- `Create` returns a session with a playback path when no limit is zero and both rings fit. -/
theorem create_of_ordered {β : Type} {S : ℕ+} {t : Tuning} (h : OrderedTuning t)
    (hrings : t.handoffBytes ≤ Buffers.SpscByteRing.maxCapacity ∧
      t.playbackHandoffBytes ≤ Buffers.SpscByteRing.maxCapacity)
    (params : ForkParams) (onFinished : Bool) :
    ∃ session : ForkSession β S, ForkSession.create params t onFinished = some session ∧
      session.playback.path.isSome := by
  have hcoalesce := h.coalesce
  have hhandoff := h.handoff
  obtain ⟨ring, hring⟩ := spscRing_create_isSome (β := β) (by omega) hrings.1
  obtain ⟨playbackRing, hplayback⟩ := spscRing_create_isSome (β := β) h.playbackHandoff hrings.2
  have hlimits : ¬(t.sendCapBytes = 0 ∨ t.handoffBytes = 0 ∨ t.coalesceMaxBytes = 0) := by omega
  rw [ForkSession.create, if_neg hlimits, hring]
  dsimp only
  rw [if_pos ⟨h.playbackHigh, h.playbackHandoff⟩, hplayback]
  exact ⟨_, rfl, rfl⟩

/-- Every configuration is sanitized, once and for all, to one from which a pool of at least
sixteen slabs and, for every format, a fork with playback are built. -/
theorem sanitized_config_builds_forks {β : Type} {S : ℕ+} (config : ModuleConfig)
    (hslab : config.slabSizeBytes < 2 ^ 59) :
    ∃ c, sanitizeConfig config = some c ∧ sanitizeConfig c = some c ∧
      (∀ threads, ∃ pool,
        PoolThreads.create c.slabSizeBytes c.globalMemoryCapBytes threads = some pool ∧
          16 ≤ pool.maxTotalBytes / pool.slabSizeBytes) ∧
      ∀ format, ForkFormat format →
        OrderedTuning (makeTuning c format) ∧
          ∀ params onFinished, ∃ session : ForkSession β S,
            ForkSession.create params (makeTuning c format) onFinished = some session ∧
              session.playback.path.isSome := by
  obtain ⟨c, hc, hsanitized, hslabEq⟩ := sanitizeConfig_spec config
  refine ⟨c, hc, hsanitized.fixed, ?_, ?_⟩
  · intro threads
    have hmin := hsanitized.slab
    -- below `2 ^ 59` bytes a slab, the sixteen slabs of the floor do not wrap
    have hfloor : c.slabSizeBytes * 16 ≤ c.globalMemoryCapBytes := by
      have hsmall : c.slabSizeBytes * 16 < 2 ^ 64 := by omega
      have hcap := hsanitized.cap
      rwa [Nat.mod_eq_of_lt hsmall] at hcap
    have hvalid : ¬(c.slabSizeBytes = 0 ∨ c.globalMemoryCapBytes < c.slabSizeBytes) := by omega
    rw [PoolThreads.create, if_neg hvalid]
    refine ⟨_, rfl, ?_⟩
    have hpos : 0 < c.slabSizeBytes := by omega
    exact (Nat.le_div_iff_mul_le hpos).mpr (by rw [Nat.mul_comm]; exact hfloor)
  · intro format hformat
    have hordered := orderedTuning_makeTuning hsanitized hformat
    exact ⟨hordered,
      create_of_ordered hordered (rings_fit_makeTuning hsanitized hformat)⟩

/-- The defaults keep their slabs of 64 KiB, and an eight kilohertz mono fork is built from them. -/
theorem sanitized_config_builds_forks_default :
    ∃ c, sanitizeConfig .default = some c ∧ ∃ session : ForkSession UInt8 65536,
      ForkSession.create Session.Sample.params (makeTuning c ⟨8000, 1⟩) false = some session := by
  obtain ⟨c, hc, -, -, hforks⟩ :=
    sanitized_config_builds_forks (β := UInt8) (S := 65536) .default (by decide)
  obtain ⟨session, hsession, -⟩ := (hforks ⟨8000, 1⟩ ⟨by decide, .inl rfl⟩).2 Session.Sample.params false
  exact ⟨c, hc, session, hsession⟩

/-! ## Whole sample frames -/

/-- The audio of `ms` milliseconds falls short of a whole number of sample frames by less than a
byte, so the truncation loses no part of a frame. -/
def WholeDuration (f : AudioFormat) (ms : Int) : Prop :=
  2 * f.channels * (f.sampleRate * ms.toNat % 1000) < 1000

instance (f : AudioFormat) (ms : Int) : Decidable (WholeDuration f ms) :=
  inferInstanceAs (Decidable (_ < _))

theorem dvd_bytesForDuration_iff {f : AudioFormat} (hf : ForkFormat f) {ms : Int} (h : 0 ≤ ms)
    (hmax : ms ≤ maxBuffer) :
    2 * f.channels ∣ f.bytesForDuration ms ↔ WholeDuration f ms := by
  have hbytes : f.bytesPerSecond * ms.toNat = 2 * f.channels * (f.sampleRate * ms.toNat) := by
    rw [AudioFormat.bytesPerSecond, ← Nat.mul_assoc (2 * f.channels), Nat.mul_comm (2 * f.channels),
      Nat.mul_comm 2, Nat.mul_assoc f.sampleRate]
  have hframe : 0 < 2 * f.channels := by
    rcases hf.channels with hc | hc <;> omega
  rw [bytesForDuration_eq hf h hmax, hbytes]
  exact Lib.dvd_mul_div_iff hframe (by decide) _

/-- A frame of more channels loses more to the truncation than a mono one. -/
theorem WholeDuration.mono {f : AudioFormat} (hf : ForkFormat f) {ms : Int}
    (h : WholeDuration f ms) : WholeDuration { sampleRate := f.sampleRate, channels := 1 } ms := by
  have hchannels : 2 * 1 ≤ 2 * f.channels := by
    rcases hf.channels with hc | hc <;> omega
  exact lt_of_le_of_lt (Nat.mul_le_mul_right _ hchannels) h

/-- The limits of a fork are whole sample frames exactly when each of the three durations they come
from is, up to less than a byte, a whole number of frames; the playback chunk is then whole too. -/
theorem limits_whole_frames_iff (config c : ModuleConfig) (hc : sanitizeConfig config = some c)
    (format : AudioFormat) (hf : ForkFormat format) :
    (AlignedTuning (2 * format.channels) (makeTuning c format) ∧
        2 ∣ (makeTuning c format).playbackHandoffBytes) ↔
      WholeDuration format c.sendBuffer ∧ WholeDuration format c.emergencyBuffer ∧
        WholeDuration format c.coalesceMax := by
  have hs := sanitized_of_sanitizeConfig hc
  have hfloor : (0 : Int) ≤ minCoalesce := by decide
  have hcoalescePos := hfloor.trans hs.coalesce.1
  have hcoalesceMax := (hs.coalesce.2.trans hs.handoff.2).trans hs.send.2
  have hsend := dvd_bytesForDuration_iff hf (le_trans (by decide) hs.send.1) hs.send.2
  have hemergency := dvd_bytesForDuration_iff hf (hfloor.trans hs.emergency.1)
    (hs.emergency.2.trans hs.send.2)
  have hcoalesce := dvd_bytesForDuration_iff hf hcoalescePos hcoalesceMax
  have hplayback := dvd_bytesForDuration_iff hf.mono hcoalescePos hcoalesceMax
  constructor
  · rintro ⟨haligned, -⟩
    exact ⟨hsend.mp haligned.sendCap, hemergency.mp haligned.emergencyCap,
      hcoalesce.mp haligned.coalesce⟩
  · rintro ⟨hsendWhole, hemergencyWhole, hcoalesceWhole⟩
    exact ⟨⟨hsend.mpr hsendWhole, hemergency.mpr hemergencyWhole, hcoalesce.mpr hcoalesceWhole⟩,
      hplayback.mpr (hcoalesceWhole.mono hf)⟩

theorem limits_whole_frames_iff_default :
    AlignedTuning 4 (makeTuning .default ⟨16000, 2⟩) ∧
      2 ∣ (makeTuning .default ⟨16000, 2⟩).playbackHandoffBytes :=
  (limits_whole_frames_iff .default .default (by decide) ⟨16000, 2⟩ ⟨by decide, .inr rfl⟩).mpr
    (by decide)

/-- With the default durations an 11025 Hz mono fork sends messages of 2205 bytes and hands playback
over in chunks of as many. -/
theorem default_limits_split_samples :
    sanitizeConfig .default = some .default ∧ ForkFormat ⟨11025, 1⟩ ∧
      (makeTuning .default ⟨11025, 1⟩).coalesceMaxBytes = 2205 ∧
      (makeTuning .default ⟨11025, 1⟩).playbackHandoffBytes = 2205 ∧
      ¬(AlignedTuning (2 * 1) (makeTuning .default ⟨11025, 1⟩) ∧
        2 ∣ (makeTuning .default ⟨11025, 1⟩).playbackHandoffBytes) := by
  refine ⟨by decide, ⟨by decide, .inl rfl⟩, by decide, by decide, ?_⟩
  rintro ⟨-, hdvd⟩
  exact absurd hdvd (by decide)

end Module
end AudioFork
