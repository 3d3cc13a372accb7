import SrtlaOutput.Config.Escape
import SrtlaOutput.Engine.Ipv4

/-! The texts of the plugin as JSON documents, and the values that the engine reads from them. -/

namespace Srtla
open Json

/-! The documents. -/

def linkDocument (enabledLinks : Option (String → Bool)) (adapter : NetworkAdapter) : Value :=
  .object [
    ("id".toList, .integer (stableLinkId adapter.id).toNat),
    ("label".toList, .string (adapter.label ++ " / " ++ adapter.address).toList),
    ("address".toList, .string adapter.address.toList),
    ("enabled".toList, .bool (enabledLinks.any (· adapter.id)))]

def linksDocument (enabledLinks : Option (String → Bool)) (adapters : List NetworkAdapter) : Value :=
  .array (adapters.map (linkDocument enabledLinks))

namespace EngineSettings

def document (c : EngineSettings) : Value :=
  .object [
    ("receiver_host".toList, .string c.host.toList),
    ("receiver_port".toList, .integer c.port),
    ("stream_id".toList, .string c.streamId.toList),
    ("latency_ms".toList, .integer c.latency),
    ("passphrase".toList, .string c.passphrase.toList),
    ("pbkeylen".toList, .integer c.pbkeylen),
    ("scheduler".toList, .string c.scheduler.toList),
    ("links".toList, linksDocument (some c.enabledLinks) c.adapters),
    ("abr".toList, .object [
      ("min_bps".toList, .integer (max 1 c.minBitrate * 1000)),
      ("start_bps".toList, .integer (max 1 c.maxBitrate * 1000)),
      ("max_bps".toList, .integer (max 1 c.maxBitrate * 1000))]),
    ("audio_bps".toList, .integer (max 0 c.audioBitrate * 1000))]

end EngineSettings

/-! The texts are those of the documents. -/

theorem linkJson_eq (enabledLinks : Option (String → Bool)) (adapter : NetworkAdapter) :
    linkJson enabledLinks adapter = utf8 (write escapeText (linkDocument enabledLinks adapter)) := by
  simp only [linkJson, linkDocument, bytesOf, jsonEscape_utf8, decimalBytes, ← utf8_append]
  apply congrArg utf8
  simp only [write_object, writeMembers_cons, writeMembers_singleton, write_integer, write_string,
    write_bool, List.append_assoc, List.cons_append]
  rfl

theorem links_foldl (enabledLinks : Option (String → Bool)) (a : NetworkAdapter)
    (adapters : List NetworkAdapter) (links : List UInt8) :
    (a :: adapters).foldl (fun links adapter =>
        (if links.isEmpty then links else links ++ bytesOf ",") ++ linkJson enabledLinks adapter) links =
      (if links.isEmpty then links else links ++ bytesOf ",") ++
        utf8 (writeItems escapeText ((a :: adapters).map (linkDocument enabledLinks))) := by
  induction adapters generalizing a links with
  | nil => rw [List.foldl_cons, List.foldl_nil, linkJson_eq, List.map_singleton, writeItems]
  | cons b adapters ih =>
    have hhead : ∀ bytes : List UInt8, (bytes ++ linkJson enabledLinks a).isEmpty = false := by
      intro bytes
      simp [linkJson_eq, linkDocument, write_object, utf8, String.utf8EncodeChar_ne_nil]
    have htext : utf8 (writeItems escapeText ((a :: b :: adapters).map (linkDocument enabledLinks))) =
        linkJson enabledLinks a ++ (bytesOf "," ++
          utf8 (writeItems escapeText ((b :: adapters).map (linkDocument enabledLinks)))) := by
      rw [List.map_cons, List.map_cons, writeItems_cons, utf8_append, ← linkJson_eq]
      rfl
    rw [List.foldl_cons, ih, hhead, if_neg Bool.false_ne_true, htext]
    simp only [List.append_assoc]

theorem enumerateLinksJson_eq (enabledLinks : Option (String → Bool)) (adapters : List NetworkAdapter) :
    enumerateLinksJson enabledLinks adapters =
      utf8 (write escapeText (linksDocument enabledLinks adapters)) := by
  rw [linksDocument, write_array]
  cases adapters with
  | nil => rfl
  | cons a adapters =>
    rw [enumerateLinksJson, links_foldl, List.isEmpty_nil, if_pos rfl, List.nil_append]
    simp only [bytesOf, ← utf8_append]
    rfl

namespace EngineSettings

theorem configJson_eq (c : EngineSettings) : c.configJson = utf8 (write escapeText c.document) := by
  unfold configJson document
  simp only [bytesOf, jsonEscape_utf8, decimalBytes, enumerateLinksJson_eq, ← utf8_append]
  apply congrArg utf8
  simp only [write_object, writeMembers_cons, writeMembers_singleton, write_integer, write_string,
    List.append_assoc, List.cons_append]
  simp (disch := decide) only [quote, escapeText_plain]
  simp only [String.reduceToList, List.cons_append, List.nil_append]

end EngineSettings

/-! The strings of the documents. -/

def adapterStrings (adapters : List NetworkAdapter) : List String :=
  adapters.flatMap fun a => [a.label, a.address]

theorem linksDocument_whole (enabledLinks : Option (String → Bool)) (adapters : List NetworkAdapter) :
    (linksDocument enabledLinks adapters).whole = true := by
  induction adapters with
  | nil => rfl
  | cons a adapters ih => exact ih

section Strings

-- what holds of the characters that stand in a string as they are holds of the names
variable {q : Char → Bool} (hq : ∀ c, unescaped c = true → q c = true)
include hq

theorem name_all {name : String} (h : name.toList.all unescaped = true) : name.toList.all q = true :=
  List.all_eq_true.mpr fun c hc => hq c (List.all_eq_true.mp h c hc)

theorem linkDocument_strings (enabledLinks : Option (String → Bool)) (adapter : NetworkAdapter) :
    (linkDocument enabledLinks adapter).strings (·.all q) =
      (adapter.label.toList.all q && adapter.address.toList.all q) := by
  simp (disch := decide) only [linkDocument, Value.strings, memberStrings, name_all hq,
    String.toList_append, List.all_append, Bool.and_true, Bool.true_and]
  rw [Bool.and_assoc, Bool.and_self]

theorem linksDocument_strings (enabledLinks : Option (String → Bool)) (adapters : List NetworkAdapter) :
    (linksDocument enabledLinks adapters).strings (·.all q) = true ↔
      ∀ s ∈ adapterStrings adapters, s.toList.all q = true := by
  induction adapters with
  | nil => simp [linksDocument, Value.strings, itemStrings, adapterStrings]
  | cons a adapters ih =>
    rw [linksDocument, Value.strings] at ih ⊢
    rw [List.map_cons, itemStrings, Bool.and_eq_true_iff, ih, linkDocument_strings hq]
    simp [adapterStrings, and_assoc]

namespace EngineSettings

def strings (c : EngineSettings) : List String :=
  [c.host, c.streamId, c.passphrase, c.scheduler] ++ adapterStrings c.adapters

theorem document_strings (c : EngineSettings) :
    c.document.strings (·.all q) = true ↔ ∀ s ∈ c.strings, s.toList.all q = true := by
  have hlinks := linksDocument_strings hq (some c.enabledLinks) c.adapters
  unfold document
  simp (disch := decide) only [Value.strings, memberStrings, name_all hq, Bool.and_true, Bool.true_and]
  simp only [Bool.and_eq_true, hlinks, strings]
  simp

end EngineSettings

end Strings

/-! What the engine makes of the texts. -/

def NulFree (strings : List String) : Prop := ∀ s ∈ strings, '\x00' ∉ s.toList

instance (strings : List String) : Decidable (NulFree strings) := List.decidableBAll _ _

/-- No string has a control character but tabs, line feeds and carriage returns. -/
def Readable (strings : List String) : Prop := ∀ s ∈ strings, clean s.toList = true

instance (strings : List String) : Decidable (Readable strings) := List.decidableBAll _ _

theorem unescaped_cleanChar (c : Char) (h : unescaped c = true) : cleanChar c = true := by
  simp only [unescaped, Bool.and_eq_true, decide_eq_true_eq] at h
  simp [cleanChar, h]

theorem unescaped_notNul (c : Char) (h : unescaped c = true) : (escapeChar c).all notNul = true :=
  escapeChar_notNul (notNul_of (by decide) h)

theorem NulFree.all {strings : List String} (h : NulFree strings) :
    ∀ s ∈ strings, s.toList.all (fun c => (escapeChar c).all notNul) = true := by
  intro s hs
  rw [List.all_eq_true]
  intro c hc
  apply escapeChar_notNul
  rw [notNul, decide_eq_true_eq]
  rintro rfl
  exact h s hs hc

theorem parse_linksJson (enabledLinks : Option (String → Bool)) {adapters : List NetworkAdapter}
    (hnul : NulFree (adapterStrings adapters)) :
    parse (received (enumerateLinksJson enabledLinks adapters)) =
      if Readable (adapterStrings adapters) then some (linksDocument enabledLinks adapters) else none := by
  have hwhole := linksDocument_whole enabledLinks adapters
  have hstrings := (linksDocument_strings unescaped_notNul enabledLinks adapters).mpr hnul.all
  rw [enumerateLinksJson_eq, received_write hwhole hstrings, parse_write escapeText_reads hwhole]
  exact if_congr (linksDocument_strings unescaped_cleanChar enabledLinks adapters) rfl rfl

namespace EngineSettings

theorem document_whole (c : EngineSettings) : c.document.whole = true := by
  have hlinks := linksDocument_whole (some c.enabledLinks) c.adapters
  simp only [document, Value.whole, membersWhole, hlinks, Bool.and_self]

theorem parse_configJson (c : EngineSettings) (hnul : NulFree c.strings) :
    parse (received c.configJson) = if Readable c.strings then some c.document else none := by
  have hstrings := (document_strings unescaped_notNul c).mpr hnul.all
  rw [configJson_eq, received_write c.document_whole hstrings,
    parse_write escapeText_reads c.document_whole]
  exact if_congr (document_strings unescaped_cleanChar c) rfl rfl

end EngineSettings

/-! The values that are read. -/

theorem readUnsigned_natCast {bound n : Nat} (h : n < bound) :
    readUnsigned bound (.integer n) = some n :=
  if_pos ⟨Int.natCast_nonneg n, Int.ofNat_lt.mpr h⟩

theorem readUnsigned_integer {bits : Nat} {n : Int} (h : 0 ≤ n ∧ n < 2 ^ bits) :
    readUnsigned (2 ^ bits) (.integer n) = some n.toNat := by
  apply if_pos
  push_cast
  exact h

section Fields

variable {α : Type} {ms : JsonMembers} {key : List Char} {name : String} {v : Value}
  {default : Option α} {read : Value → Option α}

theorem readField_nil : readField [] name default read = default := rfl

theorem readField_skip (h : String.ofList key ≠ name) :
    readField ((key, v) :: ms) name default read = readField ms name default read := by
  simp [readField, jsonField, h]

theorem readField_found (hkey : String.ofList key = name)
    (h : ∀ m ∈ ms, String.ofList m.1 ≠ name) :
    readField ((key, v) :: ms) name default read = read v := by
  have hrest : ms.filter (fun m => String.ofList m.1 = name) = [] := by
    rw [List.filter_eq_nil_iff]
    intro m hm
    simpa using h m hm
  simp [readField, jsonField, hkey, hrest]

end Fields

theorem read_link {id : Nat} (h : id < 2 ^ 64) (label address : String) (enabled : Bool) :
    EngineLinkConfig.read (.object [
      ("id".toList, .integer id),
      ("label".toList, .string label.toList),
      ("address".toList, .string address.toList),
      ("enabled".toList, .bool enabled)]) = some { id := .ofNat id, label, address, enabled } := by
  have hid := readUnsigned_natCast h
  unfold EngineLinkConfig.read
  simp (disch := simp [-String.reduceToList]) only [readField_found, readField_skip, readField_nil,
    hid, readText, readBool, String.ofList_toList]
  rfl

theorem read_linksDocument (enabledLinks : Option (String → Bool)) (adapters : List NetworkAdapter) :
    readList EngineLinkConfig.read (linksDocument enabledLinks adapters) =
      some (enumerateLinks enabledLinks adapters) := by
  rw [linksDocument, readList]
  induction adapters with
  | nil => rfl
  | cons a adapters ih =>
    have hlink := read_link (stableLinkId a.id).toNat_lt (a.label ++ " / " ++ a.address) a.address
      (enabledLinks.any (· a.id))
    rw [UInt64.ofNat_toNat] at hlink
    rw [List.map_cons, List.mapM_cons, linkDocument, hlink, ih]
    rfl

theorem read_abr {minBps startBps maxBps : Int} (hmin : 0 ≤ minBps ∧ minBps < 2 ^ 64)
    (hstart : 0 ≤ startBps ∧ startBps < 2 ^ 64) (hmax : 0 ≤ maxBps ∧ maxBps < 2 ^ 64) :
    Abr.AbrConfig.read (.object [
      ("min_bps".toList, .integer minBps),
      ("start_bps".toList, .integer startBps),
      ("max_bps".toList, .integer maxBps)]) =
        some { minBps := minBps.toNat, startBps := startBps.toNat, maxBps := maxBps.toNat } := by
  have hmin := readUnsigned_integer hmin
  have hstart := readUnsigned_integer hstart
  have hmax := readUnsigned_integer hmax
  unfold Abr.AbrConfig.read
  simp (disch := simp [-String.reduceToList]) only [readField_found, readField_skip, hmin, hstart, hmax]
  rfl

namespace EngineSettings

structure Fits (c : EngineSettings) : Prop where
  port : c.port < 2 ^ 16
  latency : 0 ≤ c.latency ∧ c.latency < 2 ^ 32
  pbkeylen : 0 ≤ c.pbkeylen ∧ c.pbkeylen < 2 ^ 32
  minBitrate : max 1 c.minBitrate * 1000 < 2 ^ 64
  maxBitrate : max 1 c.maxBitrate * 1000 < 2 ^ 64
  audioBitrate : max 0 c.audioBitrate * 1000 < 2 ^ 64

def config (c : EngineSettings) : EngineConfig where
  receiverHost := c.host
  receiverPort := .ofNat c.port
  streamId := c.streamId
  latencyMs := c.latency.toNat
  passphrase := c.passphrase
  pbkeylen := c.pbkeylen.toNat
  scheduler := c.scheduler
  links := enumerateLinks (some c.enabledLinks) c.adapters
  abr := some
    { minBps := (max 1 c.minBitrate * 1000).toNat
      startBps := (max 1 c.maxBitrate * 1000).toNat
      maxBps := (max 1 c.maxBitrate * 1000).toNat }
  audioBps := (max 0 c.audioBitrate * 1000).toNat

theorem read_document {c : EngineSettings} (h : c.Fits) :
    EngineConfig.read c.document = some c.config := by
  have hport := readUnsigned_natCast h.port
  have hlatency := readUnsigned_integer h.latency
  have hpbkeylen := readUnsigned_integer h.pbkeylen
  have haudio := readUnsigned_integer ⟨by omega, h.audioBitrate⟩
  have hlinks := read_linksDocument (some c.enabledLinks) c.adapters
  have habr := read_abr ⟨by omega, h.minBitrate⟩ ⟨by omega, h.maxBitrate⟩ ⟨by omega, h.maxBitrate⟩
  unfold document EngineConfig.read
  simp (disch := simp [-String.reduceToList]) only [readField_found, readField_skip, hport, hlatency,
    hpbkeylen, haudio, hlinks, habr, readText, String.ofList_toList]
  rfl

end EngineSettings

/-! The two calls. -/

section Calls

variable (F A : Type) [F64 F] [IpAddr A]

/-- `srtla_engine_create` gets back the strings of the settings, and makes an engine of them. -/
structure ConfigRestored (c : EngineSettings) : Prop where
  parsed : parse (received c.configJson) = some c.document
  created : c.Fits → (srtlaEngineCreate c.configJson : Option (Engine F A)) = some (.create c.config)

/-- `srtla_engine_update_adapters` gets back the strings of the adapters, and goes on with them. -/
structure LinksRestored (enabledLinks : Option (String → Bool)) (adapters : List NetworkAdapter) :
    Prop where
  parsed : adaptersArg (enumerateLinksJson enabledLinks adapters) =
    .array (enumerateLinks enabledLinks adapters)
  updated : ∀ e : Engine F A, e.updateAdapters (adaptersArg (enumerateLinksJson enabledLinks adapters)) =
    e.replaceLinks (enumerateLinks enabledLinks adapters)

variable {F A}

omit [IpAddr A] in
theorem srtlaEngineCreate_configJson {c : EngineSettings} (hnul : NulFree c.strings) (h : c.Fits) :
    (srtlaEngineCreate c.configJson : Option (Engine F A)) =
      if Readable c.strings then some (.create c.config) else none := by
  rw [srtlaEngineCreate, c.parse_configJson hnul]
  split_ifs
  · rw [Option.bind_some, EngineSettings.read_document h, Option.map_some]
  · rfl

theorem adaptersArg_linksJson (enabledLinks : Option (String → Bool)) {adapters : List NetworkAdapter}
    (hnul : NulFree (adapterStrings adapters)) :
    adaptersArg (enumerateLinksJson enabledLinks adapters) =
      if Readable (adapterStrings adapters) then .array (enumerateLinks enabledLinks adapters)
      else .invalid := by
  rw [adaptersArg, parse_linksJson enabledLinks hnul]
  split_ifs
  · simp only [read_linksDocument]
  · rfl

theorem adapterStrings_nulFree {c : EngineSettings} (h : NulFree c.strings) :
    NulFree (adapterStrings c.adapters) := fun s hs => h s (List.mem_append_right _ hs)

/-- Strings survive the text exactly where no control character is left without an escape. -/
theorem strings_restored_iff (c : EngineSettings) (hnul : NulFree c.strings)
    (enabledLinks : Option (String → Bool)) :
    (ConfigRestored F A c ↔ Readable c.strings) ∧
      (LinksRestored F A enabledLinks c.adapters ↔ Readable (adapterStrings c.adapters)) := by
  have hlinks := adaptersArg_linksJson enabledLinks (adapterStrings_nulFree hnul)
  refine ⟨⟨?_, ?_⟩, ⟨?_, ?_⟩⟩
  · intro h
    have hparsed := h.parsed
    rw [c.parse_configJson hnul] at hparsed
    by_contra hnot
    rw [if_neg hnot] at hparsed
    cases hparsed
  · intro h
    constructor
    · rw [c.parse_configJson hnul, if_pos h]
    · intro hfits
      rw [srtlaEngineCreate_configJson hnul hfits, if_pos h]
  · intro h
    have hparsed := h.parsed
    rw [hlinks] at hparsed
    by_contra hnot
    rw [if_neg hnot] at hparsed
    cases hparsed
  · intro h
    rw [if_pos h] at hlinks
    refine ⟨hlinks, fun e => ?_⟩
    rw [hlinks]
    rfl

end Calls

def settingsFor (streamId : String) : EngineSettings where
  host := "receiver.example"
  port := 5000
  streamId
  latency := 2000
  passphrase := "pass \"phrase\""
  pbkeylen := 16
  scheduler := "enhanced"
  enabledLinks := fun id => id = "eth0/2"
  adapters := [{ id := "eth0/2", label := "eth0", address := "192.0.2.1" }]
  minBitrate := 500
  maxBitrate := 6000
  audioBitrate := 128

theorem strings_restored_quoted :
    ConfigRestored ℚ Ipv4 (settingsFor "live/\"süd\\\t1\"") ∧
      LinksRestored ℚ Ipv4 none (settingsFor "live/\"süd\\\t1\"").adapters :=
  have h := strings_restored_iff (F := ℚ) (A := Ipv4) (settingsFor "live/\"süd\\\t1\"") (by decide) none
  ⟨h.1.mpr (by decide), h.2.mpr (by decide)⟩

/-- U+0001 in a stream id, as `%01` in a URL brings it in. -/
theorem control_character_rejected :
    NulFree (settingsFor "a\x01b").strings ∧ (settingsFor "a\x01b").Fits ∧
      (srtlaEngineCreate (settingsFor "a\x01b").configJson : Option (Engine ℚ Ipv4)) = none := by
  have hnul : NulFree (settingsFor "a\x01b").strings := by decide
  have hfits : (settingsFor "a\x01b").Fits := by constructor <;> decide
  refine ⟨hnul, hfits, ?_⟩
  rw [srtlaEngineCreate_configJson hnul hfits, if_neg (by decide)]

end Srtla
