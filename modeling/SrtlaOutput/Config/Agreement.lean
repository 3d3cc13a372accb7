import Mathlib.Data.List.DropRight
import SrtlaOutput.Config.RoundTrip
import SrtlaOutput.Control.Limits

/-! The settings of the output are read twice: `create_engine_from_settings` writes a text of them
for the engine, and the output keeps its own values for the session. -/

namespace Srtla
open Json Abr

/-! What both read. -/

def isSpaceChar (c : Char) : Bool := c = ' ' || ('\t' ≤ c && c ≤ '\r')

/-- `strtoul` in base 10, where an `unsigned long` has 64 bits: on Linux and macOS, not on Windows,
where it has 32. -/
def strtoul (text : List Char) : Nat :=
  let text := text.dropWhile isSpaceChar
  let digits := if text.head? = some '-' ∨ text.head? = some '+' then text.tail else text
  let n := (digits.takeWhile (·.isDigit)).foldl (fun n c => 10 * n + (c.toNat - '0'.toNat)) 0
  if 2 ^ 64 ≤ n then 2 ^ 64 - 1
  else if text.head? = some '-' then (2 ^ 64 - n) % 2 ^ 64 else n

def afterScheme : List Char → Option (List Char)
  | [] => none
  | c :: cs => if [':', '/', '/'].isPrefixOf (c :: cs) then some (cs.drop 2) else afterScheme cs

def hostAndPort (endpoint : List Char) : List Char × Nat :=
  if endpoint.head? = some '[' then
    if ']' ∈ endpoint then
      let suffix := (endpoint.dropWhile (· ≠ ']')).dropWhile (· ≠ ':')
      ((endpoint.takeWhile (· ≠ ']')).tail,
        if suffix = [] then 5000 else strtoul suffix.tail % 2 ^ 32)
    else (endpoint, 5000)
  else if ':' ∈ endpoint then
    -- the last colon
    (endpoint.rdropWhile (· ≠ ':') |>.dropLast, strtoul (endpoint.rtakeWhile (· ≠ ':')) % 2 ^ 32)
  else (endpoint, 5000)

/-- `none` and the empty string stand for the default URL. -/
def parseEndpoint (url : Option String) : String × Nat :=
  let url := (url.filter (· ≠ "")).getD "srtla://receiver.example:5000"
  let endpoint := (afterScheme url.toList).getD url.toList
  let found := hostAndPort (endpoint.takeWhile fun c => c ≠ '?' && c ≠ '/')
  let host := String.ofList found.1
  if host = "" ∨ 240 < host.utf8ByteSize ∨ '\\' ∈ found.1 ∨ '"' ∈ found.1 ∨ found.2 = 0 ∨
      65535 < found.2 then ("receiver.example", 5000)
  else (host, found.2)

theorem parseEndpoint_port_lt (url : Option String) : (parseEndpoint url).2 < 2 ^ 16 := by
  simp only [parseEndpoint]
  split_ifs with h
  · decide
  · push Not at h
    exact Nat.lt_succ_of_le h.2.2.2.2.2

def parseEnabledLinks (csv : String) : List String :=
  ((csv.toList.splitOn ',').filter (· ≠ [])).map String.ofList

/-- The settings of the output, as far as both read them: the passphrase is what
`passphrase_from_settings` gets from them, and the parts of the URL after a question mark are
in their own settings. -/
structure StreamSettings extends OutputSettings where
  url : String
  streamId : String
  passphrase : String
  latencyMs : Int
  pbkeylen : Int
  scheduler : String
  enabledLinks : String
  deriving DecidableEq, Repr

/-! The engine. -/

def engineSettings (settings : Option StreamSettings) (adapters : List NetworkAdapter) :
    EngineSettings :=
  let limits := settings.map (·.toOutputSettings)
  let maxBitrate := configuredMaxBitrateKbps limits
  { host := (parseEndpoint (settings.map (·.url))).1
    port := (parseEndpoint (settings.map (·.url))).2
    streamId := (settings.map (·.streamId)).getD ""
    latency := (settings.map (·.latencyMs)).getD 2000
    passphrase := (settings.map (·.passphrase)).getD ""
    pbkeylen := (settings.map (·.pbkeylen)).getD 16
    scheduler := (settings.map (·.scheduler)).getD "enhanced"
    enabledLinks := fun id => id ∈ (settings.map (parseEnabledLinks ·.enabledLinks)).getD []
    adapters
    minBitrate := configuredMinBitrateKbps limits maxBitrate
    maxBitrate
    audioBitrate := (settings.map (·.audioBitrate)).getD 128 }

variable {F A : Type} [F64 F]

def engineFromSettings (settings : Option StreamSettings) (adapters : List NetworkAdapter) :
    Option (Engine F A) :=
  srtlaEngineCreate (engineSettings settings adapters).configJson

/-! The output. -/

structure ConfiguredOutput (F A : Type) extends OutputState F A where
  receiverHost : String
  receiverPort : Nat
  streamId : String
  passphrase : String
  latencyMs : Int
  pbkeylen : Int

def sessionLatencyMs (settings : Option StreamSettings) : Int :=
  (settings.map fun s => clampInt (toInt32 s.latencyMs) 120 60000).getD 2000

def sessionPbkeylen (settings : Option StreamSettings) : Int :=
  let pbkeylen := (settings.map (toInt32 ·.pbkeylen)).getD 16
  if pbkeylen ≠ 16 ∧ pbkeylen ≠ 24 ∧ pbkeylen ≠ 32 then 16 else pbkeylen

namespace ConfiguredOutput

/-- What a create and an update store besides the state of the bitrate control. -/
def withSession (d : OutputState F A) (settings : Option StreamSettings) : ConfiguredOutput F A :=
  { d with
    receiverHost := (parseEndpoint (settings.map (·.url))).1
    receiverPort := (parseEndpoint (settings.map (·.url))).2
    streamId := (settings.map (·.streamId)).getD ""
    passphrase := (settings.map (·.passphrase)).getD ""
    latencyMs := sessionLatencyMs settings
    pbkeylen := sessionPbkeylen settings }

def create (settings : Option StreamSettings) (adapters : List NetworkAdapter)
    (videoEncoder : Option VideoEncoder) (audioEncoder : Option AudioEncoder)
    (credentialError : Bool) : ConfiguredOutput F A :=
  withSession
    { (OutputState.create (settings.map (·.toOutputSettings)) none videoEncoder audioEncoder
        credentialError : OutputState F A) with
      engine := engineFromSettings settings adapters }
    settings

/-- `srtla_output_update`, which a running output ignores. -/
def update (d : ConfiguredOutput F A) (settings : Option StreamSettings)
    (adapters : List NetworkAdapter) (credentialError : Bool) : ConfiguredOutput F A :=
  if d.running then d
  else
    withSession
      { d.toOutputState.update (settings.map (·.toOutputSettings)) none credentialError with
        engine := engineFromSettings settings adapters }
      settings

structure EngineAgrees (d : ConfiguredOutput F A) (e : Engine F A) : Prop where
  engine : d.engine = some e
  latencyMs : (e.config.latencyMs : Int) = d.latencyMs
  pbkeylen : (e.config.pbkeylen : Int) = d.pbkeylen
  abr : e.config.abr = some
    { minBps := d.minBitrateKbps.toNat * 1000
      startBps := d.maxBitrateKbps.toNat * 1000
      maxBps := d.maxBitrateKbps.toNat * 1000 }
  limits : e.Limited d.minBitrateKbps d.maxBitrateKbps
  configAudioBps : e.config.audioBps = d.audioBitrateBps
  audioBps : e.audioBps = d.audioBitrateBps

end ConfiguredOutput

/-! The engine's reading. -/

namespace EngineSettings

/-- The numbers that the plugin prints as they stand in the settings. -/
def RawFits (c : EngineSettings) : Prop :=
  (0 ≤ c.latency ∧ c.latency < 2 ^ 32) ∧ 0 ≤ c.pbkeylen ∧ c.pbkeylen < 2 ^ 32

instance (c : EngineSettings) : Decidable c.RawFits := by unfold RawFits; infer_instance

theorem readUnsigned_outside {bits : Nat} {n : Int} (h : ¬(0 ≤ n ∧ n < 2 ^ bits)) :
    readUnsigned (2 ^ bits) (.integer n) = none := by
  apply if_neg
  push_cast
  exact h

theorem read_document_raw {c : EngineSettings} (hport : c.port < 2 ^ 16)
    (hmin : max 1 c.minBitrate * 1000 < 2 ^ 64) (hmax : max 1 c.maxBitrate * 1000 < 2 ^ 64)
    (haudio : max 0 c.audioBitrate * 1000 < 2 ^ 64) :
    EngineConfig.read c.document = if c.RawFits then some c.config else none := by
  split_ifs with h
  · exact read_document ⟨hport, h.1, h.2, hmin, hmax, haudio⟩
  · have hport := readUnsigned_natCast hport
    unfold document EngineConfig.read
    by_cases hlatency : 0 ≤ c.latency ∧ c.latency < 2 ^ 32
    · have hpbkeylen := readUnsigned_outside fun hpbkeylen => h ⟨hlatency, hpbkeylen⟩
      have hlatency := readUnsigned_integer hlatency
      simp (disch := simp [-String.reduceToList]) only [readField_found, readField_skip, hport,
        hlatency, hpbkeylen, readText, String.ofList_toList]
      rfl
    · have hlatency := readUnsigned_outside hlatency
      simp (disch := simp [-String.reduceToList]) only [readField_found, readField_skip, hport,
        hlatency, readText, String.ofList_toList]
      rfl

end EngineSettings

section Settings

variable {settings : Option StreamSettings} {adapters : List NetworkAdapter}

theorem engineFromSettings_eq (hnul : NulFree (engineSettings settings adapters).strings)
    (hread : Readable (engineSettings settings adapters).strings)
    (haudio : ∀ s ∈ settings, s.audioBitrate * 1000 < 2 ^ 63) :
    (engineFromSettings settings adapters : Option (Engine F A)) =
      if (engineSettings settings adapters).RawFits then
        some (createEngineFromSettings (settings.map (·.toOutputSettings))
          (engineSettings settings adapters).config)
      else none := by
  -- the limits and the audio bitrate are clamped before they are printed; the latency and the
  -- key length are not
  have hordered := OutputState.Limits.configured_ordered (settings.map (·.toOutputSettings))
  have hceiling : absoluteMaxBitrateKbps = 30000 := rfl
  have haudioFits : max 0 (engineSettings settings adapters).audioBitrate * 1000 < 2 ^ 64 := by
    cases settings with
    | none =>
      show max 0 (128 : Int) * 1000 < 2 ^ 64
      decide
    | some s =>
      have hs := haudio s rfl
      show max 0 s.audioBitrate * 1000 < 2 ^ 64
      omega
  have hdocument := EngineSettings.read_document_raw (c := engineSettings settings adapters)
    (parseEndpoint_port_lt _) (by simp only [engineSettings]; omega)
    (by simp only [engineSettings]; omega) haudioFits
  rw [engineFromSettings, srtlaEngineCreate, EngineSettings.parse_configJson _ hnul, if_pos hread,
    Option.bind_some, hdocument]
  split_ifs
  · cases settings <;> rfl
  · rfl

def StreamSettings.Supported (s : StreamSettings) : Prop :=
  (120 ≤ s.latencyMs ∧ s.latencyMs ≤ 60000) ∧ (s.pbkeylen = 16 ∨ s.pbkeylen = 24 ∨ s.pbkeylen = 32)

instance (s : StreamSettings) : Decidable s.Supported := by
  unfold StreamSettings.Supported
  infer_instance

theorem toInt32_small {x : Int} (hlo : 0 ≤ x) (hhi : x ≤ 60000) : toInt32 x = x := by
  rw [toInt32, Int.bmod_eq_of_le] <;> omega

theorem sessionLatencyMs_eq_iff {s : StreamSettings} :
    sessionLatencyMs (some s) = s.latencyMs ↔ 120 ≤ s.latencyMs ∧ s.latencyMs ≤ 60000 := by
  have hclamp : 120 ≤ sessionLatencyMs (some s) ∧ sessionLatencyMs (some s) ≤ 60000 :=
    OutputState.Limits.clampInt_mem (by decide) (toInt32 s.latencyMs)
  constructor
  · intro h
    rw [← h]
    exact hclamp
  · intro h
    show clampInt (toInt32 s.latencyMs) 120 60000 = s.latencyMs
    rw [toInt32_small (by omega) h.2, clampInt, if_neg (by omega), if_neg (by omega)]

theorem sessionPbkeylen_eq_iff {s : StreamSettings} :
    sessionPbkeylen (some s) = s.pbkeylen ↔ s.pbkeylen = 16 ∨ s.pbkeylen = 24 ∨ s.pbkeylen = 32 := by
  have hvalue : sessionPbkeylen (some s) =
      if toInt32 s.pbkeylen ≠ 16 ∧ toInt32 s.pbkeylen ≠ 24 ∧ toInt32 s.pbkeylen ≠ 32 then 16
      else toInt32 s.pbkeylen := rfl
  constructor
  · intro h
    rw [hvalue] at h
    split_ifs at h <;> omega
  · intro h
    rw [hvalue, toInt32_small (by omega) (by omega), if_neg (by omega)]

theorem raw_values_agree_iff (settings : Option StreamSettings) (adapters : List NetworkAdapter) :
    ((engineSettings settings adapters).RawFits ∧
      (engineSettings settings adapters).latency = sessionLatencyMs settings ∧
      (engineSettings settings adapters).pbkeylen = sessionPbkeylen settings) ↔
        ∀ s ∈ settings, s.Supported := by
  -- both readings of the raw values are the same exactly where the output corrects nothing
  cases settings with
  | none => simp [engineSettings, EngineSettings.RawFits, sessionLatencyMs, sessionPbkeylen]
  | some s =>
    simp only [Option.mem_some_iff, forall_eq', StreamSettings.Supported]
    rw [← sessionLatencyMs_eq_iff, ← sessionPbkeylen_eq_iff]
    constructor
    · rintro ⟨-, hlatency, hpbkeylen⟩
      exact ⟨hlatency.symm, hpbkeylen.symm⟩
    · rintro ⟨hlatency, hpbkeylen⟩
      refine ⟨?_, hlatency.symm, hpbkeylen.symm⟩
      rw [sessionLatencyMs_eq_iff] at hlatency
      rw [sessionPbkeylen_eq_iff] at hpbkeylen
      show (0 ≤ s.latencyMs ∧ s.latencyMs < 2 ^ 32) ∧ 0 ≤ s.pbkeylen ∧ s.pbkeylen < 2 ^ 32
      omega

theorem configuredAudioBitrateBps_eq {limits : Option OutputSettings}
    (haudio : ∀ s ∈ limits, s.audioBitrate * 1000 < 2 ^ 63) :
    (max 0 ((limits.map (·.audioBitrate)).getD 128) * 1000).toNat =
      configuredAudioBitrateBps limits := by
  cases limits with
  | none => rfl
  | some s =>
    have hs := haudio s rfl
    show (max 0 s.audioBitrate * 1000).toNat = (max 0 s.audioBitrate).toNat * 1000 % 2 ^ 64
    omega

structure ConfiguredOutput.Holds (d : ConfiguredOutput F A) (settings : Option StreamSettings)
    (adapters : List NetworkAdapter) : Prop where
  engine : d.engine = engineFromSettings settings adapters
  latencyMs : d.latencyMs = sessionLatencyMs settings
  pbkeylen : d.pbkeylen = sessionPbkeylen settings
  maxBitrateKbps : d.maxBitrateKbps = configuredMaxBitrateKbps (settings.map (·.toOutputSettings))
  minBitrateKbps : d.minBitrateKbps =
    configuredMinBitrateKbps (settings.map (·.toOutputSettings)) d.maxBitrateKbps
  audioBitrateBps : d.audioBitrateBps =
    configuredAudioBitrateBps (settings.map (·.toOutputSettings))

theorem ConfiguredOutput.withSession_holds {d : OutputState F A}
    (hengine : d.engine = engineFromSettings settings adapters)
    (hmax : d.maxBitrateKbps = configuredMaxBitrateKbps (settings.map (·.toOutputSettings)))
    (hmin : d.minBitrateKbps =
      configuredMinBitrateKbps (settings.map (·.toOutputSettings)) d.maxBitrateKbps)
    (haudio : d.audioBitrateBps = configuredAudioBitrateBps (settings.map (·.toOutputSettings))) :
    (ConfiguredOutput.withSession d settings).Holds settings adapters :=
  ⟨hengine, rfl, rfl, hmax, hmin, haudio⟩

theorem ConfiguredOutput.Holds.agrees_iff {d : ConfiguredOutput F A} (h : d.Holds settings adapters)
    (hnul : NulFree (engineSettings settings adapters).strings)
    (hread : Readable (engineSettings settings adapters).strings)
    (haudio : ∀ s ∈ settings, s.audioBitrate * 1000 < 2 ^ 63) :
    (∃ e, d.EngineAgrees e) ↔ ∀ s ∈ settings, s.Supported := by
  have hengine := h.engine.trans (engineFromSettings_eq hnul hread haudio)
  refine Iff.trans ?_ (raw_values_agree_iff settings adapters)
  constructor
  · rintro ⟨e, he⟩
    rw [he.engine] at hengine
    split_ifs at hengine with hfits
    obtain rfl := Option.some.inj hengine
    have hlatency := he.latencyMs.trans h.latencyMs
    have hpbkeylen := he.pbkeylen.trans h.pbkeylen
    refine ⟨hfits, hlatency ▸ (Int.toNat_of_nonneg hfits.1.1).symm,
      hpbkeylen ▸ (Int.toNat_of_nonneg hfits.2.1).symm⟩
  · rintro ⟨hfits, hlatency, hpbkeylen⟩
    rw [if_pos hfits] at hengine
    have hordered := OutputState.Limits.configured_ordered (settings.map (·.toOutputSettings))
    have hlimited := OutputState.Limits.createEngine_limited (F := F) (A := A)
      (settings.map (·.toOutputSettings)) (engineSettings settings adapters).config
    have haudioBps : (max 0 (((settings.map (·.toOutputSettings)).map (·.audioBitrate)).getD 128) *
        1000).toNat = d.audioBitrateBps := by
      rw [h.audioBitrateBps]
      apply configuredAudioBitrateBps_eq
      intro limits hlimits
      obtain ⟨s, hs, rfl⟩ := Option.map_eq_some_iff.mp hlimits
      exact haudio s hs
    refine ⟨_, hengine, ?_, ?_, ?_, ?_, haudioBps, haudioBps⟩
    · exact ((Int.toNat_of_nonneg hfits.1.1).trans hlatency).trans h.latencyMs.symm
    · exact ((Int.toNat_of_nonneg hfits.2.1).trans hpbkeylen).trans h.pbkeylen.symm
    · have hmin : (max 1 (configuredMinBitrateKbps (settings.map (·.toOutputSettings))
          (configuredMaxBitrateKbps (settings.map (·.toOutputSettings)))) * 1000).toNat =
          d.minBitrateKbps.toNat * 1000 := by
        rw [h.minBitrateKbps, h.maxBitrateKbps]
        omega
      have hmax : (max 1 (configuredMaxBitrateKbps (settings.map (·.toOutputSettings))) *
          1000).toNat = d.maxBitrateKbps.toNat * 1000 := by
        rw [h.maxBitrateKbps]
        omega
      rw [← hmin, ← hmax]
      rfl
    · rw [h.minBitrateKbps, h.maxBitrateKbps]
      exact hlimited

end Settings

/-- Engine and output read the same configuration exactly where the latency and the key length
need no correction. -/
theorem config_agrees_iff (settings : Option StreamSettings) (adapters : List NetworkAdapter)
    (hnul : NulFree (engineSettings settings adapters).strings)
    (hread : Readable (engineSettings settings adapters).strings)
    (haudio : ∀ s ∈ settings, s.audioBitrate * 1000 < 2 ^ 63) :
    (∀ (videoEncoder : Option VideoEncoder) (audioEncoder : Option AudioEncoder)
      (credentialError : Bool),
        (∃ e, (ConfiguredOutput.create settings adapters videoEncoder audioEncoder credentialError :
          ConfiguredOutput F A).EngineAgrees e) ↔ ∀ s ∈ settings, s.Supported) ∧
    ∀ (d : ConfiguredOutput F A) (credentialError : Bool), d.running = false →
      ((∃ e, (d.update settings adapters credentialError).EngineAgrees e) ↔
        ∀ s ∈ settings, s.Supported) := by
  constructor
  · intro videoEncoder audioEncoder credentialError
    have hheld : (ConfiguredOutput.create settings adapters videoEncoder audioEncoder credentialError :
        ConfiguredOutput F A).Holds settings adapters := by
      apply ConfiguredOutput.withSession_holds
      · dsimp only
      · rfl
      · rfl
      · rfl
    exact hheld.agrees_iff hnul hread haudio
  · intro d credentialError hstopped
    have hheld : (d.update settings adapters credentialError).Holds settings adapters := by
      unfold ConfiguredOutput.update OutputState.update
      rw [hstopped, if_neg Bool.false_ne_true, if_neg Bool.false_ne_true]
      apply ConfiguredOutput.withSession_holds
      · dsimp only
      · rfl
      · rfl
      · rfl
    exact hheld.agrees_iff hnul hread haudio

def sessionFor (latencyMs pbkeylen : Int) : StreamSettings where
  maxBitrate := 8000
  minBitrate := 500
  bitrate := none
  autoBitrate := none
  audioBitrate := 160
  sharedEncoder := false
  url := "srtla://receiver.example:7000"
  streamId := "live/1"
  passphrase := "pass"
  latencyMs
  pbkeylen
  scheduler := "enhanced"
  enabledLinks := "eth0/2"

def firstAdapter : NetworkAdapter := { id := "eth0/2", label := "eth0", address := "192.0.2.1" }

theorem config_agrees_supported :
    (∃ e, (ConfiguredOutput.create (some (sessionFor 2000 24)) [firstAdapter] none none false :
      ConfiguredOutput ℚ Ipv4).EngineAgrees e) ∧
    ∃ e, ((ConfiguredOutput.create none [] none none false : ConfiguredOutput ℚ Ipv4).update
      (some (sessionFor 2000 24)) [firstAdapter] false).EngineAgrees e := by
  have h := config_agrees_iff (F := ℚ) (A := Ipv4) (some (sessionFor 2000 24)) [firstAdapter]
    (by decide) (by decide) (by decide)
  exact ⟨(h.1 none none false).mpr (by decide),
    (h.2 (.create none [] none none false) false rfl).mpr (by decide)⟩

def outputFor (latencyMs pbkeylen : Int) : ConfiguredOutput ℚ Ipv4 :=
  .create (some (sessionFor latencyMs pbkeylen)) [firstAdapter] none none false

theorem outputFor_engine (latencyMs pbkeylen : Int) :
    (outputFor latencyMs pbkeylen).engine.map
        (fun e => (e.config.latencyMs, e.config.pbkeylen)) =
      if (0 ≤ latencyMs ∧ latencyMs < 2 ^ 32) ∧ 0 ≤ pbkeylen ∧ pbkeylen < 2 ^ 32 then
        some (latencyMs.toNat, pbkeylen.toNat)
      else none := by
  -- the strings do not depend on the numbers
  have hnul : NulFree (engineSettings (some (sessionFor 0 0)) [firstAdapter]).strings := by decide
  have hread : Readable (engineSettings (some (sessionFor 0 0)) [firstAdapter]).strings := by decide
  have haudio : ∀ s ∈ some (sessionFor latencyMs pbkeylen), s.audioBitrate * 1000 < 2 ^ 63 := by
    rintro s ⟨rfl⟩
    show (160 : Int) * 1000 < 2 ^ 63
    decide
  have hengine : (outputFor latencyMs pbkeylen).engine =
      engineFromSettings (some (sessionFor latencyMs pbkeylen)) [firstAdapter] := by
    simp only [outputFor, ConfiguredOutput.create, ConfiguredOutput.withSession]
  have hread : engineFromSettings (some (sessionFor latencyMs pbkeylen)) [firstAdapter] = _ :=
    engineFromSettings_eq (F := ℚ) (A := Ipv4) hnul hread haudio
  rw [hengine, hread]
  have hraw : (engineSettings (some (sessionFor latencyMs pbkeylen)) [firstAdapter]).RawFits ↔
      (0 ≤ latencyMs ∧ latencyMs < 2 ^ 32) ∧ 0 ≤ pbkeylen ∧ pbkeylen < 2 ^ 32 := Iff.rfl
  split_ifs with h hfits hfits
  · rfl
  · exact absurd (hraw.mp h) hfits
  · exact absurd (hraw.mpr hfits) h
  · rfl

/-- A latency below the range, a key length of 0, and a latency that is no number for the engine. -/
theorem raw_values_differ :
    ((outputFor 50 16).engine.map (·.config.latencyMs) = some 50 ∧
      (outputFor 50 16).latencyMs = 120) ∧
    ((outputFor 2000 0).engine.map (·.config.pbkeylen) = some 0 ∧
      (outputFor 2000 0).pbkeylen = 16) ∧
    ((outputFor (-1) 16).engine = none ∧ (outputFor (-1) 16).latencyMs = 120) ∧
    ¬∃ e, (outputFor 50 16).EngineAgrees e := by
  have hlow := outputFor_engine 50 16
  have hkey := outputFor_engine 2000 0
  have hnegative := outputFor_engine (-1) 16
  rw [if_pos (by decide)] at hlow hkey
  rw [if_neg (by decide), Option.map_eq_none_iff] at hnegative
  obtain ⟨e, he, hvalues⟩ := Option.map_eq_some_iff.mp hlow
  obtain ⟨e', he', hvalues'⟩ := Option.map_eq_some_iff.mp hkey
  have hlatency : e.config.latencyMs = 50 := congrArg Prod.fst hvalues
  have hpbkeylen : e'.config.pbkeylen = 0 := congrArg Prod.snd hvalues'
  have hstored : (outputFor 50 16).latencyMs = 120 := rfl
  refine ⟨⟨?_, hstored⟩, ⟨?_, rfl⟩, ⟨hnegative, rfl⟩, ?_⟩
  · rw [he, Option.map_some, hlatency]
  · rw [he', Option.map_some, hpbkeylen]
  · rintro ⟨e'', hagrees⟩
    have hsame : e'' = e := Option.some.inj (hagrees.engine.symm.trans he)
    have hequal := hagrees.latencyMs
    rw [hsame, hlatency, hstored] at hequal
    omega

end Srtla
