import AudioFork.Config.Sanitize
import AudioFork.Lib.Decimal

/-!
# LoadConfig — the settings of the configuration file

`LoadConfig` of `mod_audio_fork.cpp` starts from the defaults, lets every `param` of the file set its
field and sanitizes the result.  A value is read by `atoi` as a 32-bit `int`.

The two buffers given in seconds are multiplied by 1000 in that type before anything clamps them.  An
overflow of the product is undefined in C++; the model has the product wrap, as the code that is
generated for it does.  `configured_buffers_iff` says for which seconds the sanitizer gets to see
what was configured.
-/

namespace AudioFork
namespace Module

/-! ## The C library -/

/-- The bytes `isspace` accepts. -/
def isSpace (c : UInt8) : Bool := c = 32 ∨ 9 ≤ c ∧ c ≤ 13

/-- The sign of a numeral and what follows it. -/
def splitSign : Text → Bool × Text
  | 45 :: rest => (true, rest)
  | 43 :: rest => (false, rest)
  | text => (false, text)

/-- `strtol(text, nullptr, 10)`, which stops at the first byte that is no digit and saturates. -/
def strtol (text : Text) : Int :=
  match splitSign (text.dropWhile isSpace) with
  | (negative, rest) =>
      let magnitude : Int := Lib.value (rest.takeWhile fun d => Lib.IsDigit d)
      max (-2 ^ 63) (min (if negative then -magnitude else magnitude) (2 ^ 63 - 1))

def atoi (text : Text) : Int32 := Int32.ofInt (strtol text)

def toLower (c : UInt8) : UInt8 := if 65 ≤ c ∧ c ≤ 90 then c + 32 else c

/-- `!strcasecmp(a, b)`. -/
def strcasecmpEq (a b : Text) : Bool := a.map toLower == b.map toLower

/-! ## The file -/

/-- A `param` element; an attribute may be missing. -/
structure Param where
  name : Option Text
  value : Option Text
  deriving DecidableEq, Repr

/-- What of FreeSWITCH the settings go through. -/
structure SwitchLib where
  switchTrue : Text → Bool

/-- What a parameter sets. -/
inductive Setting
  | shardCount
  | sendBufferSeconds
  | playbackHighWatermarkMs
  | playbackLowWatermarkMs
  | coalesceMaxMs
  | emergencyBufferSeconds
  | globalMemoryCapMb
  | reconnectBackoffMinMs
  | reconnectBackoffMaxMs
  | maxForksPerCall
  | tlsCaFile
  | tlsCertFile
  | tlsKeyFile
  | tlsVerify
  deriving DecidableEq, Repr

namespace Setting

def name : Setting → Text
  | .shardCount => ascii "shard-count"
  | .sendBufferSeconds => ascii "send-buffer-seconds"
  | .playbackHighWatermarkMs => ascii "playback-high-watermark-ms"
  | .playbackLowWatermarkMs => ascii "playback-low-watermark-ms"
  | .coalesceMaxMs => ascii "coalesce-max-ms"
  | .emergencyBufferSeconds => ascii "emergency-buffer-seconds"
  | .globalMemoryCapMb => ascii "global-memory-cap-mb"
  | .reconnectBackoffMinMs => ascii "reconnect-backoff-min-ms"
  | .reconnectBackoffMaxMs => ascii "reconnect-backoff-max-ms"
  | .maxForksPerCall => ascii "max-forks-per-call"
  | .tlsCaFile => ascii "tls-ca-file"
  | .tlsCertFile => ascii "tls-cert-file"
  | .tlsKeyFile => ascii "tls-key-file"
  | .tlsVerify => ascii "tls-verify"

/-- The names in the order in which the loop compares them. -/
def all : List Setting :=
  [.shardCount, .sendBufferSeconds, .playbackHighWatermarkMs, .playbackLowWatermarkMs,
    .coalesceMaxMs, .emergencyBufferSeconds, .globalMemoryCapMb, .reconnectBackoffMinMs,
    .reconnectBackoffMaxMs, .maxForksPerCall, .tlsCaFile, .tlsCertFile, .tlsKeyFile, .tlsVerify]

def set (lib : SwitchLib) (value : Text) (config : ModuleConfig) : Setting → ModuleConfig
  | .shardCount => { config with shardCount := (max (atoi value).toInt 0).toNat }
  -- the product is still an `int`
  | .sendBufferSeconds => { config with sendBuffer := (atoi value * 1000).toInt }
  | .playbackHighWatermarkMs => { config with playbackHighWatermark := (atoi value).toInt }
  | .playbackLowWatermarkMs => { config with playbackLowWatermark := (atoi value).toInt }
  | .coalesceMaxMs => { config with coalesceMax := (atoi value).toInt }
  | .emergencyBufferSeconds => { config with emergencyBuffer := (atoi value * 1000).toInt }
  | .globalMemoryCapMb =>
      { config with
        globalMemoryCapBytes := (max (atoi value).toInt 1).toNat * 1024 * 1024 % 2 ^ 64 }
  | .reconnectBackoffMinMs => { config with reconnectMin := (atoi value).toInt }
  | .reconnectBackoffMaxMs => { config with reconnectMax := (atoi value).toInt }
  | .maxForksPerCall => { config with maxForksPerCall := (max (atoi value).toInt 1).toNat }
  | .tlsCaFile => { config with tls.caFile := value }
  | .tlsCertFile => { config with tls.certFile := value }
  | .tlsKeyFile => { config with tls.keyFile := value }
  | .tlsVerify => { config with tls.verify := lib.switchTrue value }

end Setting

/-- The body of the loop: the first name that matches decides, an unknown one sets nothing. -/
def setParam (lib : SwitchLib) (name value : Text) (config : ModuleConfig) : ModuleConfig :=
  match Setting.all.find? fun setting => strcasecmpEq name setting.name with
  | some setting => setting.set lib value config
  | none => config

def readParam (lib : SwitchLib) (config : ModuleConfig) (param : Param) : ModuleConfig :=
  match param.name, param.value with
  | some name, some value => setParam lib name value config
  | _, _ => config

/-- The `param` elements under `settings`, or `none` when the file cannot be opened.  The two
messages it may log are left out. -/
def loadConfig (lib : SwitchLib) (file : Option (List Param)) : Option ModuleConfig :=
  match file with
  | none => sanitizeConfig .default
  | some params => sanitizeConfig (params.foldl (readParam lib) .default)

/-! ## The buffers given in seconds -/

inductive BufferSetting
  | send
  | emergency
  deriving DecidableEq, Repr

namespace BufferSetting

def setting : BufferSetting → Setting
  | .send => .sendBufferSeconds
  | .emergency => .emergencyBufferSeconds

def key (buffer : BufferSetting) : Text := buffer.setting.name

def read : BufferSetting → ModuleConfig → Int
  | .send, config => config.sendBuffer
  | .emergency, config => config.emergencyBuffer

/-- The bounds of the sanitizer; that above the emergency buffer is the send buffer it leaves. -/
def low : BufferSetting → Int
  | .send => minBuffer
  | .emergency => minCoalesce

def high : BufferSetting → ModuleConfig → Int
  | .send, _ => maxBuffer
  | .emergency, config => config.sendBuffer

/-- The parameter sets this buffer. -/
def Sets (buffer : BufferSetting) (param : Param) : Prop :=
  ∃ name value, param.name = some name ∧ param.value = some value ∧
    strcasecmpEq name buffer.key = true

/-- The file with this buffer set to the text `seconds`. -/
def file (before : List Param) (name seconds : Text) (after : List Param) : List Param :=
  before ++ { name := some name, value := some seconds } :: after

end BufferSetting

/-- The product of `seconds * 1000` is the exact one. -/
def Exact (seconds : Int32) : Prop := (seconds * 1000).toInt = 1000 * seconds.toInt

/-- The seconds whose milliseconds are an `int`. -/
def Fits (seconds : Int32) : Prop := -2147483 ≤ seconds.toInt ∧ seconds.toInt ≤ 2147483

instance (seconds : Int32) : Decidable (Exact seconds) := inferInstanceAs (Decidable (_ = _))

instance (seconds : Int32) : Decidable (Fits seconds) := inferInstanceAs (Decidable (_ ∧ _))

theorem exact_iff_fits (seconds : Int32) : Exact seconds ↔ Fits seconds := by
  have hmul : (seconds * 1000).toInt = (seconds.toInt * 1000).bmod (2 ^ 32) :=
    Int32.toInt_mul seconds 1000
  have hupper : (seconds * 1000).toInt < 2 ^ 31 := Int32.toInt_lt _
  have hlower : -2 ^ 31 ≤ (seconds * 1000).toInt := Int32.le_toInt _
  constructor
  · -- an exact product is an `int` like any other
    intro hexact
    rw [hexact] at hupper hlower
    exact ⟨by omega, by omega⟩
  · rintro ⟨hlow, hhigh⟩
    have hwrap : (seconds.toInt * 1000).bmod (2 ^ 32) = seconds.toInt * 1000 :=
      Int.bmod_eq_of_le (by omega) (by omega)
    calc (seconds * 1000).toInt
        = seconds.toInt * 1000 := hmul.trans hwrap
      _ = 1000 * seconds.toInt := Int.mul_comm _ _

/-! ## Reading the file -/

theorem read_set_self (lib : SwitchLib) (buffer : BufferSetting) (value : Text)
    (config : ModuleConfig) :
    buffer.read (buffer.setting.set lib value config) = (atoi value * 1000).toInt := by
  cases buffer <;> rfl

theorem read_set_other (lib : SwitchLib) {buffer : BufferSetting} {setting : Setting}
    (h : setting ≠ buffer.setting) (value : Text) (config : ModuleConfig) :
    buffer.read (setting.set lib value config) = buffer.read config := by
  cases buffer with
  | send =>
      cases setting with
      | sendBufferSeconds => exact absurd rfl h
      | _ => rfl
  | emergency =>
      cases setting with
      | emergencyBufferSeconds => exact absurd rfl h
      | _ => rfl

/-- The name of a buffer is not one of those compared before it. -/
theorem find_key {buffer : BufferSetting} {name : Text}
    (hname : strcasecmpEq name buffer.key = true) :
    (Setting.all.find? fun setting => strcasecmpEq name setting.name) = some buffer.setting := by
  have hlower : name.map toLower = buffer.key.map toLower := beq_iff_eq.mp hname
  simp only [strcasecmpEq, hlower]
  cases buffer <;> decide

theorem read_setParam_self (lib : SwitchLib) {buffer : BufferSetting} {name : Text}
    (hname : strcasecmpEq name buffer.key = true) (value : Text) (config : ModuleConfig) :
    buffer.read (setParam lib name value config) = (atoi value * 1000).toInt := by
  simp only [setParam, find_key hname]
  exact read_set_self lib buffer value config

/-- A parameter that is not for the buffer leaves it, whatever else it sets. -/
theorem read_setParam_other (lib : SwitchLib) {buffer : BufferSetting} {name : Text}
    (hname : strcasecmpEq name buffer.key = false) (value : Text) (config : ModuleConfig) :
    buffer.read (setParam lib name value config) = buffer.read config := by
  unfold setParam
  split
  · rename_i setting hfind
    apply read_set_other lib
    rintro rfl
    have hmatch := List.find?_some hfind
    rw [BufferSetting.key] at hname
    simp only [hname] at hmatch
    cases hmatch
  · rfl

/-- The parameters that follow see of a buffer only what stood in it before them. -/
theorem read_foldl_congr (lib : SwitchLib) (buffer : BufferSetting) (params : List Param)
    {c c' : ModuleConfig} (h : buffer.read c = buffer.read c') :
    buffer.read (params.foldl (readParam lib) c) =
      buffer.read (params.foldl (readParam lib) c') := by
  induction params generalizing c c' with
  | nil => exact h
  | cons param params ih =>
      refine ih ?_
      unfold readParam
      split
      · rename_i name value _ _
        cases hname : strcasecmpEq name buffer.key with
        | false => rw [read_setParam_other lib hname, read_setParam_other lib hname, h]
        | true => rw [read_setParam_self lib hname, read_setParam_self lib hname]
      · exact h

theorem read_foldl_other (lib : SwitchLib) {buffer : BufferSetting} {params : List Param}
    (hother : ∀ param ∈ params, ¬ buffer.Sets param) (config : ModuleConfig) :
    buffer.read (params.foldl (readParam lib) config) = buffer.read config := by
  induction params generalizing config with
  | nil => rfl
  | cons param params ih =>
      have hparam : buffer.read (readParam lib config param) = buffer.read config := by
        unfold readParam
        split
        · rename_i name value hname hvalue
          apply read_setParam_other lib
          rw [Bool.eq_false_iff]
          intro hkey
          exact hother param List.mem_cons_self ⟨name, value, hname, hvalue, hkey⟩
        · rfl
      calc buffer.read (params.foldl (readParam lib) (readParam lib config param))
          = buffer.read (readParam lib config param) :=
            ih (fun p hp => hother p (List.mem_cons_of_mem _ hp)) _
        _ = buffer.read config := hparam

/-- The last word on the buffer is the file's. -/
theorem read_file (lib : SwitchLib) {buffer : BufferSetting} (before : List Param) {name : Text}
    (hname : strcasecmpEq name buffer.key = true) (seconds : Text) {after : List Param}
    (hafter : ∀ param ∈ after, ¬ buffer.Sets param) (config : ModuleConfig) :
    buffer.read ((BufferSetting.file before name seconds after).foldl (readParam lib) config) =
      (atoi seconds * 1000).toInt := by
  rw [BufferSetting.file, List.foldl_append, List.foldl_cons, read_foldl_other lib hafter]
  exact read_setParam_self lib hname seconds _

/-- The other buffer does not see the seconds. -/
theorem read_file_other (lib : SwitchLib) {buffer : BufferSetting} (before : List Param)
    {name : Text} (hname : strcasecmpEq name buffer.key = false) (a b : Text) (after : List Param)
    (config : ModuleConfig) :
    buffer.read ((BufferSetting.file before name a after).foldl (readParam lib) config) =
      buffer.read ((BufferSetting.file before name b after).foldl (readParam lib) config) := by
  rw [BufferSetting.file, BufferSetting.file, List.foldl_append, List.foldl_append, List.foldl_cons,
    List.foldl_cons]
  apply read_foldl_congr
  exact (read_setParam_other lib hname a _).trans (read_setParam_other lib hname b _).symm

/-! ## What is configured -/

/-- The sanitizer clamps the buffer. -/
theorem read_sanitized {buffer : BufferSetting} {config r : ModuleConfig}
    (h : sanitizeConfig config = some r) :
    buffer.read r = max buffer.low (min (buffer.read config) (buffer.high r)) := by
  rcases sanitizeConfig_buffers h with ⟨hsend, hemergency⟩
  cases buffer with
  | send => exact hsend
  | emergency => exact hemergency

/-- The bounds of a buffer do not depend on the seconds configured for it. -/
theorem high_file (lib : SwitchLib) {buffer : BufferSetting} (before : List Param) {name : Text}
    (hname : strcasecmpEq name buffer.key = true) (a b : Text) (after : List Param)
    {ra rb : ModuleConfig}
    (ha : loadConfig lib (some (BufferSetting.file before name a after)) = some ra)
    (hb : loadConfig lib (some (BufferSetting.file before name b after)) = some rb) :
    buffer.high ra = buffer.high rb := by
  cases buffer with
  | send => rfl
  | emergency =>
      have hother : strcasecmpEq name BufferSetting.send.key = false := by
        have hlower : name.map toLower = BufferSetting.emergency.key.map toLower :=
          beq_iff_eq.mp hname
        rw [strcasecmpEq, hlower]
        decide
      have hsame := read_file_other lib before hother a b after .default
      have hsendA := (sanitizeConfig_buffers ha).1
      have hsendB := (sanitizeConfig_buffers hb).1
      calc ra.sendBuffer
          = rb.sendBuffer := hsendA.trans ((congrArg (fun ms => max minBuffer (min ms maxBuffer))
              hsame).trans hsendB.symm)

theorem loadConfig_some (lib : SwitchLib) (file : Option (List Param)) :
    ∃ r, loadConfig lib file = some r := by
  cases file with
  | none => exact (sanitizeConfig_spec _).imp fun _ h => h.1
  | some params => exact (sanitizeConfig_spec _).imp fun _ h => h.1

/-- With the other settings fixed, a buffer configured in seconds is the clamp of the exact
milliseconds and grows with them, without overflow, exactly for seconds whose milliseconds are an
`int`. -/
theorem configured_buffers_iff (lib : SwitchLib) (buffer : BufferSetting)
    (before after : List Param) (name a b : Text)
    (hname : strcasecmpEq name buffer.key = true) (hafter : ∀ param ∈ after, ¬ buffer.Sets param)
    (hab : atoi a ≤ atoi b) :
    (∃ ra rb,
      loadConfig lib (some (BufferSetting.file before name a after)) = some ra ∧
      loadConfig lib (some (BufferSetting.file before name b after)) = some rb ∧
      buffer.read ra ≤ buffer.read rb ∧
      buffer.read ra = max buffer.low (min (1000 * (atoi a).toInt) (buffer.high ra)) ∧
      buffer.read rb = max buffer.low (min (1000 * (atoi b).toInt) (buffer.high rb)) ∧
      Exact (atoi a) ∧ Exact (atoi b)) ↔
    Fits (atoi a) ∧ Fits (atoi b) := by
  constructor
  · rintro ⟨ra, rb, -, -, -, -, -, hexactA, hexactB⟩
    exact ⟨(exact_iff_fits _).mp hexactA, (exact_iff_fits _).mp hexactB⟩
  · rintro ⟨hfitsA, hfitsB⟩
    have hexactA := (exact_iff_fits _).mpr hfitsA
    have hexactB := (exact_iff_fits _).mpr hfitsB
    obtain ⟨ra, ha⟩ := loadConfig_some lib (some (BufferSetting.file before name a after))
    obtain ⟨rb, hb⟩ := loadConfig_some lib (some (BufferSetting.file before name b after))
    have hreadA : buffer.read ra = max buffer.low (min (1000 * (atoi a).toInt) (buffer.high ra)) := by
      rw [read_sanitized ha, read_file lib before hname a hafter, hexactA]
    have hreadB : buffer.read rb = max buffer.low (min (1000 * (atoi b).toInt) (buffer.high rb)) := by
      rw [read_sanitized hb, read_file lib before hname b hafter, hexactB]
    have hmono : 1000 * (atoi a).toInt ≤ 1000 * (atoi b).toInt :=
      Int.mul_le_mul_of_nonneg_left (Int32.le_iff_toInt_le.mp hab) (by decide)
    refine ⟨ra, rb, ha, hb, ?_, hreadA, hreadB, hexactA, hexactB⟩
    rw [hreadA, hreadB, high_file lib before hname a b after ha hb]
    exact max_le_max le_rfl (min_le_min hmono le_rfl)

namespace Sample

def switchLib : SwitchLib := { switchTrue := fun _ => true }

/-- A file that sets the send buffer alone. -/
def sendFile (seconds : String) : List Param :=
  BufferSetting.file [] (ascii "Send-Buffer-Seconds") (ascii seconds) []

end Sample

theorem configured_buffers_ten_twenty :
    ∃ ra rb,
      loadConfig Sample.switchLib (some (Sample.sendFile "10")) = some ra ∧
      loadConfig Sample.switchLib (some (Sample.sendFile "20")) = some rb ∧
      ra.sendBuffer ≤ rb.sendBuffer := by
  obtain ⟨ra, rb, ha, hb, hle, -⟩ :=
    (configured_buffers_iff Sample.switchLib .send [] [] (ascii "Send-Buffer-Seconds") (ascii "10")
      (ascii "20") (by decide) (by simp) (by decide)).mpr ⟨by decide, by decide⟩
  exact ⟨ra, rb, ha, hb, hle⟩

/-- 2147484 seconds are more than 1 second and give a buffer of 100 ms instead of 60000, where 1
second gives 1000. -/
theorem sendBuffer_shrinks :
    atoi (ascii "1") ≤ atoi (ascii "2147484") ∧
    ∃ ra rb,
      loadConfig Sample.switchLib (some (Sample.sendFile "1")) = some ra ∧
      loadConfig Sample.switchLib (some (Sample.sendFile "2147484")) = some rb ∧
      rb.sendBuffer < ra.sendBuffer ∧
      rb.sendBuffer ≠ max minBuffer (min (1000 * (atoi (ascii "2147484")).toInt) maxBuffer) ∧
      ¬ Exact (atoi (ascii "2147484")) := by
  refine ⟨by decide, _, _, rfl, rfl, ?_, ?_, ?_⟩
  · decide
  · decide
  · rw [exact_iff_fits]
    decide

end Module
end AudioFork
