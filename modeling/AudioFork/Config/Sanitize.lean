import AudioFork.Config
import Mathlib.Order.Lattice
import Mathlib.Data.Int.Order.Basic

/-!
# Sanitize — the module's configuration

`ModuleConfig` and `SanitizeConfig` of `config.cpp`.  Durations are signed millisecond counts, sizes
are `size_t`.  `std::clamp` is undefined when its lower bound exceeds its upper bound; here it then
has no value, so a configuration that is sanitized to something is one whose clamps are all defined.

`Sanitized` is what the function establishes: it holds of every result, and a configuration that
has it is left as it is.
-/

namespace AudioFork

structure TlsOptions where
  caFile : Text
  certFile : Text
  keyFile : Text
  verify : Bool
  deriving DecidableEq, Repr

structure ModuleConfig where
  shardCount : Nat
  sendBuffer : Int
  handoffBuffer : Int
  coalesceMax : Int
  drainTimeout : Int
  playbackHighWatermark : Int
  playbackLowWatermark : Int
  globalMemoryCapBytes : Nat
  emergencyBuffer : Int
  reconnectMin : Int
  reconnectMax : Int
  slabSizeBytes : Nat
  maxForksPerCall : Nat
  tls : TlsOptions
  deriving DecidableEq, Repr

/-- The values an installation without a configuration file starts from. -/
def ModuleConfig.default : ModuleConfig where
  shardCount := 0
  sendBuffer := 10000
  handoffBuffer := 1000
  coalesceMax := 100
  drainTimeout := 2000
  playbackHighWatermark := 10000
  playbackLowWatermark := 2000
  globalMemoryCapBytes := 1536 * 1024 * 1024
  emergencyBuffer := 2000
  reconnectMin := 250
  reconnectMax := 5000
  slabSizeBytes := 64 * 1024
  maxForksPerCall := 4
  tls := { caFile := [], certFile := [], keyFile := [], verify := true }

/-! ## SanitizeConfig -/

def maxShards : Nat := 16
def minBuffer : Int := 100
def maxBuffer : Int := 60000
def minCoalesce : Int := 20

/-- `std::clamp`. -/
def clamp {α : Type} [LinearOrder α] (v lo hi : α) : Option α :=
  if hi < lo then none else some (if v < lo then lo else if hi < v then hi else v)

/-- A certificate without its key, or the reverse, is dropped. -/
def TlsOptions.sanitize (tls : TlsOptions) : TlsOptions :=
  if tls.certFile.isEmpty ≠ tls.keyFile.isEmpty then { tls with certFile := [], keyFile := [] }
  else tls

def sanitizeConfig (config : ModuleConfig) : Option ModuleConfig := do
  let shardCount := min config.shardCount maxShards
  let sendBuffer ← clamp config.sendBuffer minBuffer maxBuffer
  let handoffBuffer ← clamp config.handoffBuffer minCoalesce sendBuffer
  let coalesceMax ← clamp config.coalesceMax minCoalesce handoffBuffer
  let emergencyBuffer ← clamp config.emergencyBuffer minCoalesce sendBuffer
  let drainTimeout := max config.drainTimeout 0
  let playbackHighWatermark ← clamp config.playbackHighWatermark minCoalesce maxBuffer
  let playbackLowWatermark ← clamp config.playbackLowWatermark 0 playbackHighWatermark
  let reconnectMin := max config.reconnectMin 1
  let reconnectMax := max config.reconnectMax reconnectMin
  let slabSizeBytes := max config.slabSizeBytes (4 * 1024)
  -- the product is a `size_t`
  let globalMemoryCapBytes := max config.globalMemoryCapBytes (slabSizeBytes * 16 % 2 ^ 64)
  let maxForksPerCall ← clamp config.maxForksPerCall 1 8
  some
    { shardCount, sendBuffer, handoffBuffer, coalesceMax, drainTimeout, playbackHighWatermark,
      playbackLowWatermark, globalMemoryCapBytes, emergencyBuffer, reconnectMin, reconnectMax,
      slabSizeBytes, maxForksPerCall, tls := config.tls.sanitize }

/-! ## What it establishes -/

structure Sanitized (c : ModuleConfig) : Prop where
  shards : c.shardCount ≤ maxShards
  send : minBuffer ≤ c.sendBuffer ∧ c.sendBuffer ≤ maxBuffer
  handoff : minCoalesce ≤ c.handoffBuffer ∧ c.handoffBuffer ≤ c.sendBuffer
  coalesce : minCoalesce ≤ c.coalesceMax ∧ c.coalesceMax ≤ c.handoffBuffer
  emergency : minCoalesce ≤ c.emergencyBuffer ∧ c.emergencyBuffer ≤ c.sendBuffer
  drain : 0 ≤ c.drainTimeout
  high : minCoalesce ≤ c.playbackHighWatermark ∧ c.playbackHighWatermark ≤ maxBuffer
  low : 0 ≤ c.playbackLowWatermark ∧ c.playbackLowWatermark ≤ c.playbackHighWatermark
  reconnect : 1 ≤ c.reconnectMin ∧ c.reconnectMin ≤ c.reconnectMax
  slab : 4 * 1024 ≤ c.slabSizeBytes
  cap : c.slabSizeBytes * 16 % 2 ^ 64 ≤ c.globalMemoryCapBytes
  forks : 1 ≤ c.maxForksPerCall ∧ c.maxForksPerCall ≤ 8
  tls : c.tls.certFile.isEmpty = c.tls.keyFile.isEmpty

section Clamp

variable {α : Type} [LinearOrder α] {v lo hi : α}

/-- With its bounds in order a clamp has a value, which lies between them. -/
theorem clamp_spec (h : lo ≤ hi) (v : α) : ∃ w, clamp v lo hi = some w ∧ lo ≤ w ∧ w ≤ hi := by
  rw [clamp, if_neg (not_lt.mpr h)]
  refine ⟨_, rfl, ?_⟩
  split
  · exact ⟨le_rfl, h⟩
  · next hlo =>
    split
    · exact ⟨h, le_rfl⟩
    · next hhi => exact ⟨not_lt.mp hlo, not_lt.mp hhi⟩

theorem clamp_of_mem (h : lo ≤ v ∧ v ≤ hi) : clamp v lo hi = some v := by
  rw [clamp, if_neg (not_lt.mpr (h.1.trans h.2)), if_neg (not_lt.mpr h.1), if_neg (not_lt.mpr h.2)]

theorem clamp_eq (h : lo ≤ hi) (v : α) : clamp v lo hi = some (max lo (min v hi)) := by
  rw [clamp, if_neg (not_lt.mpr h)]
  split
  · next hlo => rw [max_eq_left ((min_le_left v hi).trans hlo.le)]
  · next hlo =>
    split
    · next hhi => rw [min_eq_right hhi.le, max_eq_right h]
    · next hhi => rw [min_eq_left (not_lt.mp hhi), max_eq_right (not_lt.mp hlo)]

end Clamp

theorem TlsOptions.sanitize_empty_iff (tls : TlsOptions) :
    tls.sanitize.certFile.isEmpty = tls.sanitize.keyFile.isEmpty := by
  unfold sanitize
  split
  · rfl
  · next h => exact not_ne_iff.mp h

theorem TlsOptions.sanitize_of_paired {tls : TlsOptions}
    (h : tls.certFile.isEmpty = tls.keyFile.isEmpty) : tls.sanitize = tls :=
  if_neg (not_ne_iff.mpr h)

/-- Every clamp of the function has its bounds in order, whatever the configuration: each upper
bound is a field that was clamped from below before. -/
theorem sanitizeConfig_spec (config : ModuleConfig) :
    ∃ r, sanitizeConfig config = some r ∧ Sanitized r ∧
      r.slabSizeBytes = max config.slabSizeBytes (4 * 1024) := by
  have hbuffer : minBuffer ≤ maxBuffer := by decide
  have hplayback : minCoalesce ≤ maxBuffer := by decide
  have hfloor : minCoalesce ≤ minBuffer := by decide
  obtain ⟨send, hsend, hsendLo, hsendHi⟩ := clamp_spec hbuffer config.sendBuffer
  have hsendFloor : minCoalesce ≤ send := hfloor.trans hsendLo
  obtain ⟨handoff, hhandoff, hhandoffLo, hhandoffHi⟩ := clamp_spec hsendFloor config.handoffBuffer
  obtain ⟨coalesce, hcoalesce, hcoalesceB⟩ := clamp_spec hhandoffLo config.coalesceMax
  obtain ⟨emergency, hemergency, hemergencyB⟩ := clamp_spec hsendFloor config.emergencyBuffer
  obtain ⟨high, hhigh, hhighLo, hhighHi⟩ := clamp_spec hplayback config.playbackHighWatermark
  have hhighPos : 0 ≤ high := le_trans (by decide) hhighLo
  obtain ⟨low, hlow, hlowB⟩ := clamp_spec hhighPos config.playbackLowWatermark
  obtain ⟨forks, hforks, hforksB⟩ := clamp_spec (show 1 ≤ 8 by decide) config.maxForksPerCall
  refine ⟨_, by simp only [sanitizeConfig, hsend, hhandoff, hcoalesce, hemergency, hhigh, hlow,
    hforks, Option.bind_eq_bind, Option.bind_some]; rfl, ?_, rfl⟩
  exact
    { shards := min_le_right _ _
      send := ⟨hsendLo, hsendHi⟩
      handoff := ⟨hhandoffLo, hhandoffHi⟩
      coalesce := hcoalesceB
      emergency := hemergencyB
      drain := le_max_right _ _
      high := ⟨hhighLo, hhighHi⟩
      low := hlowB
      reconnect := ⟨le_max_right _ _, le_max_right _ _⟩
      slab := le_max_right _ _
      cap := le_max_right _ _
      forks := hforksB
      tls := config.tls.sanitize_empty_iff }

theorem Sanitized.fixed {c : ModuleConfig} (h : Sanitized c) : sanitizeConfig c = some c := by
  simp only [sanitizeConfig, clamp_of_mem h.send, clamp_of_mem h.handoff, clamp_of_mem h.coalesce,
    clamp_of_mem h.emergency, clamp_of_mem h.high, clamp_of_mem h.low, clamp_of_mem h.forks,
    min_eq_left h.shards, max_eq_left h.drain, max_eq_left h.reconnect.1,
    max_eq_left h.reconnect.2, max_eq_left h.slab, max_eq_left h.cap,
    TlsOptions.sanitize_of_paired h.tls, Option.bind_eq_bind, Option.bind_some]

theorem sanitized_of_sanitizeConfig {config r : ModuleConfig} (h : sanitizeConfig config = some r) :
    Sanitized r := by
  obtain ⟨r', hr', hsanitized, -⟩ := sanitizeConfig_spec config
  obtain rfl : r' = r := Option.some.inj (hr'.symm.trans h)
  exact hsanitized

/-- The two buffers given in seconds are clamped, the emergency buffer under the send buffer. -/
theorem sanitizeConfig_buffers {config r : ModuleConfig} (h : sanitizeConfig config = some r) :
    r.sendBuffer = max minBuffer (min config.sendBuffer maxBuffer) ∧
      r.emergencyBuffer = max minCoalesce (min config.emergencyBuffer r.sendBuffer) := by
  have hsanitized := sanitized_of_sanitizeConfig h
  have hceiling : minCoalesce ≤ r.sendBuffer := hsanitized.emergency.1.trans hsanitized.emergency.2
  simp only [sanitizeConfig, Option.bind_eq_bind, Option.bind_eq_some_iff, Option.some.injEq] at h
  obtain ⟨send, hsend, _, -, _, -, emergency, hemergency, _, -, _, -, _, -, hr⟩ := h
  have hsendBuffer : r.sendBuffer = send := by rw [← hr]
  have hemergencyBuffer : r.emergencyBuffer = emergency := by rw [← hr]
  rw [clamp_eq (by decide), Option.some.injEq] at hsend
  rw [← hsendBuffer, clamp_eq hceiling, Option.some.injEq] at hemergency
  exact ⟨hsendBuffer.trans hsend.symm, hemergencyBuffer.trans hemergency.symm⟩

/-- The defaults pass their own check. -/
example : sanitizeConfig .default = some .default := by decide

end AudioFork
