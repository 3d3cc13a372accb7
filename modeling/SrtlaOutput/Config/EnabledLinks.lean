import Mathlib.Data.Finset.Basic
import SrtlaOutput.Config.LegacyUrl
import SrtlaOutput.Lib.Separated
import SrtlaOutput.Lib.Utf8

/-! The ids of the enabled links travel as one text. The dock writes it to the profile and to the
settings of an output, and reads it from the profile; the output reads it from its settings. -/

namespace Srtla
open Json Percent Separated Utf8

/-! The ids. -/

def slash : UInt8 := 47
def comma : UInt8 := 44

def isSpaceByte (b : UInt8) : Bool := b = 32 || (9 ≤ b && b ≤ 13)

def isNameByte (b : UInt8) : Bool := b ≠ 0 && b ≠ slash && !isSpaceByte b

/-- What the system lets an interface be called. -/
structure InterfaceName where
  bytes : List UInt8
  ne_nil : bytes ≠ []
  clean : bytes.all isNameByte = true

structure AdapterId where
  name : InterfaceName
  family : ℕ

def AdapterId.bytes (id : AdapterId) : List UInt8 :=
  id.name.bytes ++ slash :: decimalBytes id.family

theorem intText_natCast (n : ℕ) : intText n = Nat.toDigits 10 n := if_neg (by omega)

theorem decimalBytes_digits (n : ℕ) : ∀ b ∈ decimalBytes n, 48 ≤ b ∧ b ≤ 57 := by
  intro b hb
  obtain ⟨c, hc, hb⟩ := List.mem_flatMap.mp hb
  have hdigit : c.isDigit = true := toDigits_isDigit n c (intText_natCast n ▸ hc)
  have hrange : 48 ≤ c.toNat ∧ c.toNat ≤ 57 := by
    simpa [Char.isDigit, UInt32.le_iff_toNat_le] using hdigit
  rw [encode_ascii (by omega), List.mem_singleton] at hb
  rw [UInt8.le_iff_toNat_le, UInt8.le_iff_toNat_le, hb, UInt8.toNat_ofNat', Nat.mod_eq_of_lt (by omega)]
  exact hrange

namespace AdapterId

theorem bytes_ne_nil (id : AdapterId) : id.bytes ≠ [] := by simp [bytes]

theorem mem_bytes_iff {id : AdapterId} {b : UInt8} (hslash : b ≠ slash) (hdigit : b < 48 ∨ 57 < b) :
    b ∈ id.bytes ↔ b ∈ id.name.bytes := by
  constructor
  · intro h
    rcases List.mem_append.mp h with hname | hrest
    · exact hname
    · exfalso
      rcases List.mem_cons.mp hrest with heq | hfamily
      · exact hslash heq
      · obtain ⟨hlow, hhigh⟩ := decimalBytes_digits id.family b hfamily
        exact hdigit.elim (UInt8.not_lt.mpr hlow) (UInt8.not_lt.mpr hhigh)
  · exact List.mem_append_left _

theorem noNul (id : AdapterId) : 0 ∉ id.bytes := by
  rw [mem_bytes_iff (by decide) (by decide)]
  exact fun h => absurd (List.all_eq_true.mp id.name.clean 0 h) (by decide)

theorem comma_mem_iff (id : AdapterId) : comma ∈ id.bytes ↔ comma ∈ id.name.bytes :=
  mem_bytes_iff (by decide) (by decide)

theorem prefix_iff {id : AdapterId} {p : List UInt8} (hp : slash ∉ p) :
    p <+: id.bytes ↔ p <+: id.name.bytes :=
  ⟨prefix_of_prefix_cut hp, fun h => h.trans (List.prefix_append ..)⟩

theorem encoded_iff {P : Char → Prop} (hP : ∀ b : UInt8, b < 0x80 → P (Char.ofUInt8 b))
    (id : AdapterId) : Encoded P id.bytes ↔ Encoded P id.name.bytes := by
  have hslash : slash < 0x80 := by decide
  rw [bytes, Encoded.cut_iff hslash (hP slash hslash), and_iff_left_iff_imp]
  intro _
  apply Encoded.of_ascii hP
  intro b hb
  exact UInt8.lt_of_le_of_lt (decimalBytes_digits id.family b hb).2 (by decide)

end AdapterId

/-! The writers. -/

structure Marks where
  entries : List (AdapterId × Bool)
  distinct : (entries.map fun entry => entry.1.bytes).Nodup

namespace Marks

def enabled (marks : Marks) : List AdapterId := (marks.entries.filter (·.2)).map (·.1)

def ids (marks : Marks) : Finset (List UInt8) := (marks.enabled.map AdapterId.bytes).toFinset

def savedText (marks : Marks) : List UInt8 :=
  marks.entries.foldl (fun enabledLinks entry =>
    if !entry.2 then enabledLinks
    else (if enabledLinks.isEmpty then enabledLinks else enabledLinks ++ [comma]) ++ entry.1.bytes) []

def startedText (marks : Marks) : List UInt8 :=
  marks.entries.foldl (fun enabledLinks entry =>
    if entry.2 then
      (if enabledLinks.isEmpty then enabledLinks else enabledLinks ++ [comma]) ++ entry.1.bytes
    else enabledLinks) []

theorem enabled_ne_nil (marks : Marks) : ∀ word ∈ marks.enabled.map AdapterId.bytes, word ≠ [] := by
  intro word hword
  obtain ⟨id, -, rfl⟩ := List.mem_map.mp hword
  exact id.bytes_ne_nil

theorem startedText_eq (marks : Marks) :
    marks.startedText = [comma].intercalate (marks.enabled.map AdapterId.bytes) := by
  rw [← join_eq marks.enabled_ne_nil, join, enabled, List.foldl_map, List.foldl_map,
    List.foldl_filter]
  rfl

theorem savedText_eq (marks : Marks) : marks.savedText = marks.startedText := by
  unfold savedText startedText
  congr 1
  funext text entry
  cases entry.2 <;> rfl

theorem nodup_enabled (marks : Marks) : (marks.enabled.map AdapterId.bytes).Nodup := by
  rw [enabled, List.map_map]
  exact marks.distinct.sublist (List.filter_sublist.map _)

theorem noNul_startedText (marks : Marks) : 0 ∉ marks.startedText := by
  rw [startedText_eq]
  intro h
  obtain hcomma | ⟨word, hword, hmem⟩ := mem_intercalate h
  · exact absurd hcomma (by decide)
  · obtain ⟨id, -, rfl⟩ := List.mem_map.mp hword
    exact id.noNul hmem

def text (marks : Marks) : CString := ⟨marks.startedText, marks.noNul_startedText⟩

theorem ofBytes_startedText (marks : Marks) : CString.ofBytes marks.startedText = marks.text :=
  CString.ofBytes_bytes marks.text

theorem ofBytes_savedText (marks : Marks) : CString.ofBytes marks.savedText = marks.text := by
  rw [savedText_eq, ofBytes_startedText]

theorem mem_ids {marks : Marks} {id : List UInt8} :
    id ∈ marks.ids ↔ id ∈ marks.enabled.map AdapterId.bytes := List.mem_toFinset

theorem separable_iff (marks : Marks) :
    (∀ word ∈ marks.enabled.map AdapterId.bytes, comma ∉ word) ↔
      ∀ id ∈ marks.enabled, comma ∉ id.name.bytes := by
  simp [AdapterId.comma_mem_iff]

theorem splitOn_text {marks : Marks} {id : AdapterId} {more : List AdapterId}
    (henabled : marks.enabled = id :: more) (h : ∀ id ∈ marks.enabled, comma ∉ id.name.bytes) :
    marks.text.bytes.splitOn comma = id.bytes :: more.map AdapterId.bytes := by
  have htext : marks.text.bytes = [comma].intercalate (marks.enabled.map AdapterId.bytes) :=
    marks.startedText_eq
  have hwords := marks.separable_iff.mpr h
  rw [henabled, List.map_cons] at htext hwords
  rw [htext, List.splitOn_intercalate comma hwords (by simp)]

end Marks

/-- The values that the user has in the section of the plugin in the profile. -/
abbrev ProfileValues := String → Option CString

abbrev ObsStrings := String → Option CString

def saveSelectedLinks (config : Option ProfileValues) (marks : Marks) : Option ProfileValues :=
  config.map fun values => Function.update values "EnabledLinks" (some (.ofBytes marks.savedText))

def toggleOutput (settings : ObsStrings) (marks : Marks) : ObsStrings :=
  Function.update settings "enabled_links" (some (.ofBytes marks.startedText))

theorem saveSelectedLinks_some (values : ProfileValues) (marks : Marks) :
    saveSelectedLinks (some values) marks =
      some (Function.update values "EnabledLinks" (some marks.text)) := by
  rw [saveSelectedLinks, Option.map_some, marks.ofBytes_savedText]

theorem toggleOutput_value (settings : ObsStrings) (marks : Marks) :
    toggleOutput settings marks "enabled_links" = some marks.text := by
  rw [toggleOutput, Function.update_self, marks.ofBytes_startedText]

/-! The readers. -/

theorem length_after_lt {value : List UInt8} (h : comma ∈ value) :
    (after comma value).length < value.length := by
  have hlength := congrArg List.length (eq_before_after h)
  rw [List.length_append, List.length_cons] at hlength
  omega

def linkTokens (value : List UInt8) : List (List UInt8) :=
  let token := before comma value
  let found := if token = [] then [] else [token]
  if _ : comma ∈ value then found ++ linkTokens (after comma value) else found
termination_by value.length
decreasing_by exact length_after_lt ‹_›

theorem linkTokens_eq (value : List UInt8) : linkTokens value = tokens comma value := by
  induction hn : value.length using Nat.strong_induction_on generalizing value with
  | _ n ih =>
    by_cases hmem : comma ∈ value
    · have hshorter := length_after_lt hmem
      rw [linkTokens, dif_pos hmem, ih _ (hn ▸ hshorter) _ rfl]
      have hfirst := tokens_of_not_mem (not_mem_before comma value)
      conv_rhs => rw [eq_before_after hmem, tokens_cut, hfirst]
    · rw [linkTokens, dif_neg hmem, before_of_not_mem hmem, tokens_of_not_mem hmem]

namespace EnabledLinks

/-- `parse_enabled_links`, where `none` is the null pointer. -/
def parseEnabledLinks (csv : Option CString) : Finset (List UInt8) :=
  match csv with
  | none => ∅
  | some csv => (linkTokens csv.bytes).foldl (fun enabled token => insert token enabled) ∅

/-- The links that `create_engine_from_settings` enables. -/
def engineLinks (settings : Option ObsStrings) : Finset (List UInt8) :=
  parseEnabledLinks (settings.map fun strings => (strings "enabled_links").getD .empty)

/-- What `SrtlaDock::loadProfile` marks in the map that it has cleared. -/
def loadMarks (enabledLinks : List UInt8) : List UInt8 → Option Bool :=
  (linkTokens enabledLinks).foldl (fun selected id => Function.update selected id (some true))
    fun _ => none

theorem mem_foldl_insert {enabled : Finset (List UInt8)} {ids : List (List UInt8)} {id : List UInt8} :
    id ∈ ids.foldl (fun enabled token => insert token enabled) enabled ↔ id ∈ enabled ∨ id ∈ ids := by
  induction ids generalizing enabled with
  | nil => simp
  | cons token ids ih =>
    rw [List.foldl_cons, ih, Finset.mem_insert, List.mem_cons]
    tauto

theorem foldl_update {selected : List UInt8 → Option Bool} {ids : List (List UInt8)}
    {id : List UInt8} :
    ids.foldl (fun selected id => Function.update selected id (some true)) selected id =
      if id ∈ ids then some true else selected id := by
  induction ids generalizing selected with
  | nil => rfl
  | cons token ids ih =>
    rw [List.foldl_cons, ih]
    by_cases hmem : id ∈ ids
    · simp [hmem]
    · by_cases hid : id = token
      · simp [hid]
      · simp [hmem, hid]

theorem mem_parseEnabledLinks {csv : CString} {id : List UInt8} :
    id ∈ parseEnabledLinks (some csv) ↔ id ∈ tokens comma csv.bytes := by
  rw [parseEnabledLinks, mem_foldl_insert, linkTokens_eq]
  simp

theorem loadMarks_eq (enabledLinks : List UInt8) (id : List UInt8) :
    loadMarks enabledLinks id = if id ∈ tokens comma enabledLinks then some true else none := by
  rw [loadMarks, foldl_update, linkTokens_eq]

theorem parse_text_iff (marks : Marks) :
    parseEnabledLinks (some marks.text) = marks.ids ↔
      ∀ id ∈ marks.enabled, comma ∉ id.name.bytes := by
  rw [← marks.separable_iff, ← tokens_intercalate_iff marks.enabled_ne_nil, ← marks.startedText_eq,
    Finset.ext_iff]
  simp only [mem_parseEnabledLinks, Marks.mem_ids]
  rfl

end EnabledLinks
end Srtla
