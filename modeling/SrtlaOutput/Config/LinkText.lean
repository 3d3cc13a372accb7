import SrtlaOutput.Config.EnabledLinks
import SrtlaOutput.Config.Escape
import SrtlaOutput.Session.Utf8

/-! Which lists of enabled links come back from the profile and from the settings of an output,
and on which texts both readers find the same links. -/

namespace Srtla
namespace EnabledLinks
open Separated Utf8

/-! The strings of Qt. -/

def bom : List UInt8 := [0xef, 0xbb, 0xbf]

/-- How Qt makes a `QString` of a C string. A `QString` is its UTF-8 text, which `toStdString`
gives back. -/
structure QtDecoder where
  fromUtf8 : List UInt8 → List UInt8
  keeps : Char → Prop
  dropsBom : Bool

/-- Invalid sequences are replaced or left out. It is left open whether noncharacters count among
them, and whether a byte order mark at the front is dropped. -/
structure QtDecoder.Documented (qt : QtDecoder) : Prop where
  keeps_of : ∀ c, ¬Noncharacter c → qt.keeps c
  decoded : ∀ bytes, Encoded qt.keeps (qt.fromUtf8 bytes)
  kept : ∀ bytes, Encoded qt.keeps bytes →
    qt.fromUtf8 bytes =
      if qt.dropsBom = true ∧ bom <+: bytes then bytes.drop bom.length else bytes

def profileString (qt : QtDecoder) (config : Option ProfileValues) (name : String) : List UInt8 :=
  ((config.bind (· name)).map fun value => qt.fromUtf8 value.bytes).getD []

def loadProfile (qt : QtDecoder) (config : Option ProfileValues) : List UInt8 → Option Bool :=
  loadMarks (profileString qt config "EnabledLinks")

/-! What is asked of the texts. -/

structure RoundTrips (qt : QtDecoder) (marks : Marks) : Prop where
  saved_loaded : ∀ values id,
    loadProfile qt (saveSelectedLinks (some values) marks) id = some true ↔ id ∈ marks.ids
  saved_parsed : ∀ values,
    parseEnabledLinks ((saveSelectedLinks (some values) marks).bind (· "EnabledLinks")) = marks.ids
  started_loaded : ∀ settings values id,
    loadProfile qt (some (Function.update values "EnabledLinks"
      (toggleOutput settings marks "enabled_links"))) id = some true ↔ id ∈ marks.ids
  started_parsed : ∀ settings, engineLinks (some (toggleOutput settings marks)) = marks.ids

structure Portable (qt : QtDecoder) (marks : Marks) : Prop where
  separable : ∀ id ∈ marks.enabled, comma ∉ id.name.bytes
  encoded : ∀ id ∈ marks.enabled, Encoded qt.keeps id.name.bytes
  unmarked : qt.dropsBom = true → ∀ id ∈ marks.enabled.head?, ¬bom <+: id.name.bytes

def SameLinks (qt : QtDecoder) (csv : CString) : Prop :=
  ∀ values : ProfileValues, values "EnabledLinks" = some csv → ∀ id,
    loadProfile qt (some values) id = some true ↔ id ∈ parseEnabledLinks (some csv)

structure Unaltered (qt : QtDecoder) (csv : CString) : Prop where
  encoded : Encoded qt.keeps csv.bytes
  unmarked : qt.dropsBom = true → ∀ first rest, csv.bytes.splitOn comma = (bom ++ first) :: rest →
    bom ++ first ∈ rest ∧ (first = [] ∨ first ∈ rest)

/-! The readers. -/

theorem loadProfile_iff (qt : QtDecoder) {values : ProfileValues} {csv : CString}
    (h : values "EnabledLinks" = some csv) (id : List UInt8) :
    loadProfile qt (some values) id = some true ↔ id ∈ tokens comma (qt.fromUtf8 csv.bytes) := by
  rw [loadProfile, profileString, Option.bind_some, h, Option.map_some, Option.getD_some,
    loadMarks_eq]
  split_ifs with hmem <;> simp [hmem]

theorem sameLinks_iff (qt : QtDecoder) (csv : CString) :
    SameLinks qt csv ↔
      ∀ id, id ∈ tokens comma (qt.fromUtf8 csv.bytes) ↔ id ∈ tokens comma csv.bytes := by
  constructor
  · intro h id
    obtain ⟨values, hvalue⟩ : ∃ values : ProfileValues, values "EnabledLinks" = some csv :=
      ⟨fun _ => some csv, rfl⟩
    rw [← loadProfile_iff qt hvalue, h values hvalue, mem_parseEnabledLinks]
  · intro h values hvalue id
    rw [loadProfile_iff qt hvalue, h, mem_parseEnabledLinks]

section Documented
variable {qt : QtDecoder} (hqt : qt.Documented)
include hqt

theorem keeps_ascii {b : UInt8} (hb : b < 0x80) : qt.keeps (Char.ofUInt8 b) :=
  hqt.keeps_of _ (not_noncharacter_of_ascii hb)

theorem encoded_iff_pieces (text : List UInt8) :
    Encoded qt.keeps text ↔ ∀ piece ∈ text.splitOn comma, Encoded qt.keeps piece := by
  have hcomma : comma < 0x80 := by decide
  rw [← Encoded.intercalate_iff hcomma (keeps_ascii hqt hcomma), List.intercalate_splitOn]

theorem fromUtf8_of_unmarked {bytes : List UInt8} (hencoded : Encoded qt.keeps bytes)
    (h : ¬(qt.dropsBom = true ∧ bom <+: bytes)) : qt.fromUtf8 bytes = bytes := by
  rw [hqt.kept bytes hencoded, if_neg h]

theorem fromUtf8_bom (hdrops : qt.dropsBom = true) {text : List UInt8}
    (hencoded : Encoded qt.keeps (bom ++ text)) : qt.fromUtf8 (bom ++ text) = text := by
  rw [hqt.kept _ hencoded, if_pos ⟨hdrops, List.prefix_append ..⟩, List.drop_left]

theorem sameLinks_iff_unaltered (csv : CString) : SameLinks qt csv ↔ Unaltered qt csv := by
  rw [sameLinks_iff]
  have hcomma : comma ∉ bom := by decide
  constructor
  · intro h
    have hencoded : Encoded qt.keeps csv.bytes := by
      rw [encoded_iff_pieces hqt]
      intro piece hpiece
      by_cases hempty : piece = []
      · exact hempty ▸ Encoded.nil
      · have htoken := (h piece).mpr (mem_tokens.mpr ⟨hpiece, hempty⟩)
        exact (encoded_iff_pieces hqt _).mp (hqt.decoded _) piece (mem_tokens.mp htoken).1
    refine ⟨hencoded, fun hdrops first rest hsplit => ?_⟩
    obtain ⟨text, htext, hback⟩ := exists_back_of_splitOn hsplit
    rw [htext] at hencoded h
    rw [fromUtf8_bom hqt hdrops hencoded] at h
    exact (tokens_append_same_iff (by decide) hcomma hback).mp fun id => (h id).symm
  · rintro ⟨hencoded, hunmarked⟩
    by_cases hbom : qt.dropsBom = true ∧ bom <+: csv.bytes
    · obtain ⟨hdrops, text, htext⟩ := hbom
      obtain ⟨first, rest, hsplit⟩ := List.exists_cons_of_ne_nil (List.splitOn_ne_nil comma text)
      rw [← htext] at hencoded hunmarked ⊢
      rw [fromUtf8_bom hqt hdrops hencoded]
      have hsame := (tokens_append_same_iff (by decide) hcomma hsplit).mpr
        (hunmarked hdrops first rest (splitOn_append hcomma hsplit))
      exact fun id => (hsame id).symm
    · rw [fromUtf8_of_unmarked hqt hencoded hbom]
      exact fun _ => Iff.rfl

/-! What the writers write. -/

theorem encoded_text_iff (marks : Marks) :
    Encoded qt.keeps marks.text.bytes ↔
      ∀ id ∈ marks.enabled, Encoded qt.keeps id.name.bytes := by
  have htext : marks.text.bytes = [comma].intercalate (marks.enabled.map AdapterId.bytes) :=
    marks.startedText_eq
  rw [htext, Encoded.intercalate_iff (by decide) (keeps_ascii hqt (by decide)), List.forall_mem_map]
  simp only [AdapterId.encoded_iff fun _ hb => keeps_ascii hqt hb]

theorem unaltered_text_iff {marks : Marks}
    (hseparable : ∀ id ∈ marks.enabled, comma ∉ id.name.bytes) :
    Unaltered qt marks.text ↔ Portable qt marks := by
  constructor
  · intro h
    refine ⟨hseparable, (encoded_text_iff hqt marks).mp h.encoded, fun hdrops id hid hmark => ?_⟩
    obtain ⟨more, henabled⟩ := List.head?_eq_some_iff.mp hid
    obtain ⟨first, hfirst⟩ := (AdapterId.prefix_iff (by decide)).mpr hmark
    have hsplit := Marks.splitOn_text henabled hseparable
    rw [← hfirst] at hsplit
    -- the first id would be a second one too
    have hagain := (h.unmarked hdrops first _ hsplit).1
    have hdistinct := marks.nodup_enabled
    rw [henabled, List.map_cons, List.nodup_cons, ← hfirst] at hdistinct
    exact hdistinct.1 hagain
  · intro h
    refine ⟨(encoded_text_iff hqt marks).mpr h.encoded, fun hdrops first rest hsplit => ?_⟩
    exfalso
    rcases henabled : marks.enabled with _ | ⟨id, more⟩
    · have htext : marks.text.bytes = [] := by
        have heq := marks.startedText_eq
        rwa [henabled] at heq
      rw [htext, List.splitOn_nil] at hsplit
      exact absurd (List.cons.inj hsplit).1 (by simp [bom])
    · rw [Marks.splitOn_text henabled hseparable] at hsplit
      have hmark : bom <+: id.bytes := ⟨first, (List.cons.inj hsplit).1.symm⟩
      rw [AdapterId.prefix_iff (by decide)] at hmark
      exact h.unmarked hdrops id (by simp [henabled]) hmark

theorem load_text_iff (marks : Marks) :
    (∀ id, id ∈ tokens comma (qt.fromUtf8 marks.text.bytes) ↔ id ∈ marks.ids) ↔
      Portable qt marks := by
  have hread : (∀ id ∈ marks.enabled, comma ∉ id.name.bytes) →
      ∀ id, id ∈ tokens comma marks.text.bytes ↔ id ∈ marks.ids := by
    intro hseparable id
    rw [← (parse_text_iff marks).mpr hseparable, mem_parseEnabledLinks]
  constructor
  · intro h
    have hseparable : ∀ id ∈ marks.enabled, comma ∉ id.name.bytes := by
      intro id hid
      rw [← id.comma_mem_iff]
      apply not_mem_of_mem_tokens
      exact (h id.bytes).mpr (Marks.mem_ids.mpr (List.mem_map_of_mem hid))
    rw [← unaltered_text_iff hqt hseparable, ← sameLinks_iff_unaltered hqt, sameLinks_iff]
    exact fun id => (h id).trans (hread hseparable id).symm
  · intro h
    have hsame := h
    rw [← unaltered_text_iff hqt h.separable, ← sameLinks_iff_unaltered hqt, sameLinks_iff] at hsame
    exact fun id => (hsame id).trans (hread h.separable id)

theorem roundTrips_iff_portable (marks : Marks) : RoundTrips qt marks ↔ Portable qt marks := by
  rw [← load_text_iff hqt]
  constructor
  · intro h id
    rw [← h.saved_loaded (fun _ => none) id, saveSelectedLinks_some,
      loadProfile_iff qt (Function.update_self ..)]
  · intro h
    have hparsed : parseEnabledLinks (some marks.text) = marks.ids :=
      (parse_text_iff marks).mpr ((load_text_iff hqt marks).mp h).separable
    refine ⟨fun values id => ?_, fun values => ?_, fun settings values id => ?_, fun settings => ?_⟩
    · rw [saveSelectedLinks_some, loadProfile_iff qt (Function.update_self ..), h]
    · rw [saveSelectedLinks_some, Option.bind_some, Function.update_self, hparsed]
    · rw [toggleOutput_value, loadProfile_iff qt (Function.update_self ..), h]
    · rw [engineLinks, Option.map_some, toggleOutput_value, Option.getD_some, hparsed]

theorem enabledLinks_iff :
    (∀ marks, RoundTrips qt marks ↔ Portable qt marks) ∧
      ∀ csv, SameLinks qt csv ↔ Unaltered qt csv :=
  ⟨roundTrips_iff_portable hqt, sameLinks_iff_unaltered hqt⟩

end Documented

/-! A decoder that replaces invalid sequences. -/

def withoutBom (cs : List Char) : List Char := if cs.head? = some '\ufeff' then cs.tail else cs

def decodingQt : QtDecoder where
  fromUtf8 bytes := utf8 (withoutBom (toStringLossy bytes))
  keeps _ := True
  dropsBom := true

theorem bom_prefix_iff (cs : List Char) : bom <+: utf8 cs ↔ cs.head? = some '\ufeff' := by
  have hbom : bom = String.utf8EncodeChar '\ufeff' := by decide
  constructor
  · rintro ⟨back, hback⟩
    rcases cs with _ | ⟨c, cs⟩
    · cases hback
    · rw [hbom, utf8, List.flatMap_cons] at hback
      rw [← (encode_append_inj hback).1, List.head?_cons]
  · intro h
    obtain ⟨rest, rfl⟩ := List.head?_eq_some_iff.mp h
    rw [hbom, utf8, List.flatMap_cons]
    exact List.prefix_append ..

theorem decodingQt_documented : decodingQt.Documented where
  keeps_of _ _ := trivial
  decoded bytes := ⟨withoutBom (toStringLossy bytes), fun _ _ => trivial, rfl⟩
  kept bytes h := by
    obtain ⟨cs, -, rfl⟩ := h
    have hread : decodingQt.fromUtf8 (cs.flatMap String.utf8EncodeChar) = utf8 (withoutBom cs) :=
      congrArg (fun s => utf8 (withoutBom s)) (toStringLossy_utf8 cs)
    have hmark : bom <+: cs.flatMap String.utf8EncodeChar ↔ cs.head? = some '\ufeff' :=
      bom_prefix_iff cs
    rw [hread, withoutBom]
    by_cases hhead : cs.head? = some '\ufeff'
    · rw [if_pos hhead, if_pos ⟨rfl, hmark.mpr hhead⟩]
      obtain ⟨rest, rfl⟩ := List.head?_eq_some_iff.mp hhead
      rfl
    · rw [if_neg hhead, if_neg fun h => hhead (hmark.mp h.2)]
      rfl

def enabledLink (name : InterfaceName) : Marks where
  entries := [(⟨name, afInet⟩, true)]
  distinct := List.nodup_singleton _

def plainName : InterfaceName := ⟨ascii "eth0", by decide, by decide⟩
def commaName : InterfaceName := ⟨ascii "eth,0", by decide, by decide⟩

/-- The byte is no encoding of a character. -/
def latinName : InterfaceName := ⟨[0xe9], by decide, by decide⟩

theorem enabledLinks_kept :
    RoundTrips decodingQt (enabledLink plainName) ∧
      SameLinks decodingQt (enabledLink plainName).text := by
  have hiff := enabledLinks_iff decodingQt_documented
  have hname : Encoded decodingQt.keeps plainName.bytes := by
    have hascii : plainName.bytes.all (· < 0x80) = true := by decide
    apply Encoded.of_ascii fun _ _ => trivial
    exact fun b hb => of_decide_eq_true (List.all_eq_true.mp hascii b hb)
  constructor
  · rw [hiff.1]
    exact ⟨by decide, by simpa [enabledLink, Marks.enabled] using hname, by decide⟩
  · rw [hiff.2]
    have htext : Encoded decodingQt.keeps (enabledLink plainName).text.bytes := by
      rw [encoded_text_iff decodingQt_documented]
      simpa [enabledLink, Marks.enabled] using hname
    refine ⟨htext, fun _ first rest hsplit => ?_⟩
    have hpieces : (enabledLink plainName).text.bytes.splitOn comma = [ascii "eth0/2"] := by decide
    have hfirst : ascii "eth0/2" = bom ++ first := (List.cons.inj (hpieces.symm.trans hsplit)).1
    have hhead : (ascii "eth0/2").head? = some 0xef := congrArg List.head? hfirst
    exact absurd hhead (by decide)

theorem enabledLinks_lost :
    decodingQt.Documented ∧
      parseEnabledLinks (some (enabledLink commaName).text) = {ascii "eth", ascii "0/2"} ∧
      ¬RoundTrips decodingQt (enabledLink commaName) ∧
      ¬RoundTrips decodingQt (enabledLink latinName) ∧
      ¬SameLinks decodingQt (enabledLink latinName).text := by
  have hqt := decodingQt_documented
  have hinvalid : ¬Encoded decodingQt.keeps latinName.bytes := by
    intro h
    have hvalid := (validUtf8_iff _).mpr h
    simp [latinName, validUtf8, utf8Lead] at hvalid
  refine ⟨hqt, ?_, fun h => ?_, fun h => ?_, fun h => ?_⟩
  · have htokens : tokens comma (enabledLink commaName).text.bytes = [ascii "eth", ascii "0/2"] := by
      decide
    ext id
    rw [mem_parseEnabledLinks, htokens]
    simp
  · have hseparable := ((roundTrips_iff_portable hqt _).mp h).separable
    exact absurd hseparable (by decide)
  · have hencoded := ((roundTrips_iff_portable hqt _).mp h).encoded
    exact hinvalid (hencoded ⟨latinName, afInet⟩ List.mem_cons_self)
  · have hencoded := ((sameLinks_iff_unaltered hqt _).mp h).encoded
    rw [encoded_text_iff hqt] at hencoded
    exact hinvalid (hencoded ⟨latinName, afInet⟩ List.mem_cons_self)

end EnabledLinks
end Srtla
