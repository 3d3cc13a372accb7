import SrtlaOutput.Config.Defs
import SrtlaOutput.Lib.Utf8

/-! What the plugin escapes, seen as characters, and the strings the engine reads back: those
without a control character but for the three that have an escape. -/

namespace Srtla
open Json

/-! Bytes and characters. -/

theorem utf8_append (s t : List Char) : utf8 (s ++ t) = utf8 s ++ utf8 t := List.flatMap_append

theorem utf8EncodeChar_ascii {c : Char} (h : c.toNat < 0x80) : String.utf8EncodeChar c = [byteOf c] :=
  Utf8.encode_ascii h

theorem byteOf_inj {c d : Char} (hc : c.toNat < 0x80) (hd : d.toNat < 0x80) :
    byteOf c = byteOf d ↔ c = d := by
  constructor
  · intro h
    have hnat := congrArg UInt8.toNat h
    rw [byteOf, byteOf, UInt8.toNat_ofNat', UInt8.toNat_ofNat', Nat.mod_eq_of_lt (by omega),
      Nat.mod_eq_of_lt (by omega)] at hnat
    exact Char.toNat_inj.mp hnat
  · exact congrArg byteOf

/-! Escapes. -/

def escapeChar (c : Char) : List Char :=
  if c = '\\' then ['\\', '\\']
  else if c = '"' then ['\\', '"']
  else if c = '\n' then ['\\', 'n']
  else if c = '\r' then ['\\', 'r']
  else if c = '\t' then ['\\', 't']
  else [c]

def escapeText (s : List Char) : List Char := s.flatMap escapeChar

theorem jsonEscapeByte_ascii {c : Char} (h : c.toNat < 0x80) :
    jsonEscapeByte (byteOf c) = utf8 (escapeChar c) := by
  have hinj : ∀ d : Char, d.toNat < 0x80 → (byteOf c = byteOf d ↔ c = d) := fun d hd => byteOf_inj h hd
  rw [jsonEscapeByte, escapeChar]
  simp only [hinj '\\' (by decide), hinj '"' (by decide), hinj '\n' (by decide),
    hinj '\r' (by decide), hinj '\t' (by decide)]
  split_ifs <;> simp [utf8, utf8EncodeChar_ascii, h]

theorem jsonEscapeByte_high {b : UInt8} (h : 0x80 ≤ b) : jsonEscapeByte b = [b] := by
  have hne : ∀ d : Char, d.toNat < 0x80 → b ≠ byteOf d := by
    rintro d hd rfl
    rw [UInt8.le_iff_toNat_le, byteOf, UInt8.toNat_ofNat', Nat.mod_eq_of_lt (by omega)] at h
    exact absurd h (Nat.not_le.mpr hd)
  rw [jsonEscapeByte, if_neg (hne '\\' (by decide)), if_neg (hne '"' (by decide)),
    if_neg (hne '\n' (by decide)), if_neg (hne '\r' (by decide)), if_neg (hne '\t' (by decide))]

theorem jsonEscape_utf8 (s : List Char) : jsonEscape (utf8 s) = utf8 (escapeText s) := by
  induction s with
  | nil => rfl
  | cons c s ih =>
    have hchar : jsonEscape (String.utf8EncodeChar c) = utf8 (escapeChar c) := by
      rcases Nat.lt_or_ge c.toNat 0x80 with h | h
      · rw [utf8EncodeChar_ascii h, ← jsonEscapeByte_ascii h]
        exact List.flatMap_singleton ..
      · have hsame : ∀ bytes : List UInt8, (∀ b ∈ bytes, 0x80 ≤ b) → jsonEscape bytes = bytes := by
          intro bytes hbytes
          induction bytes with
          | nil => rfl
          | cons b bytes ih =>
            rw [jsonEscape, List.flatMap_cons, jsonEscapeByte_high (hbytes b List.mem_cons_self)]
            exact congrArg (b :: ·) (ih fun b' hb' => hbytes b' (List.mem_cons_of_mem b hb'))
        have hne : ∀ d : Char, d.toNat < 0x80 → c ≠ d := by
          rintro d hd rfl
          exact absurd h (Nat.not_le.mpr hd)
        rw [hsame _ (Utf8.encode_high h), escapeChar, if_neg (hne '\\' (by decide)),
          if_neg (hne '"' (by decide)), if_neg (hne '\n' (by decide)), if_neg (hne '\r' (by decide)),
          if_neg (hne '\t' (by decide))]
        exact (List.flatMap_singleton ..).symm
    calc jsonEscape (utf8 (c :: s))
        = jsonEscape (String.utf8EncodeChar c) ++ jsonEscape (utf8 s) := List.flatMap_append
      _ = utf8 (escapeChar c) ++ utf8 (escapeText s) := by rw [hchar, ih]
      _ = utf8 (escapeText (c :: s)) := (utf8_append ..).symm

theorem escapeText_plain {s : List Char} (h : s.all (fun c => escapeChar c == [c]) = true) :
    escapeText s = s := by
  induction s with
  | nil => rfl
  | cons c s ih =>
    obtain ⟨hc, hs⟩ := Bool.and_eq_true_iff.mp h
    rw [escapeText, List.flatMap_cons, eq_of_beq hc]
    exact congrArg (c :: ·) (ih hs)

/-! What is read back. -/

/-- A control character that the plugin escapes, or no control character. -/
def cleanChar (c : Char) : Bool := ' ' ≤ c || c = '\t' || c = '\n' || c = '\r'

def clean (s : List Char) : Bool := s.all cleanChar

theorem escapeChar_cases (c : Char) :
    (∃ e, escapeChar c = ['\\', e] ∧ simpleEscape e = some c ∧ cleanChar c = true) ∨
      escapeChar c = [c] ∧ c ≠ '"' ∧ c ≠ '\\' ∧ (cleanChar c = true ↔ ' ' ≤ c) := by
  unfold escapeChar
  split_ifs with hback hquote hlf hcr htab
  · subst hback
    exact .inl ⟨'\\', rfl, rfl, rfl⟩
  · subst hquote
    exact .inl ⟨'"', rfl, rfl, rfl⟩
  · subst hlf
    exact .inl ⟨'n', rfl, rfl, rfl⟩
  · subst hcr
    exact .inl ⟨'r', rfl, rfl, rfl⟩
  · subst htab
    exact .inl ⟨'t', rfl, rfl, rfl⟩
  · exact .inr ⟨rfl, hquote, hback, by simp [cleanChar, hlf, hcr, htab]⟩

theorem string_escapeChar (c : Char) (cs : List Char) :
    string (escapeChar c ++ cs) =
      if cleanChar c then (string cs).map fun (s, rest) => (c :: s, rest) else none := by
  obtain ⟨e, htext, he, hclean⟩ | ⟨htext, hquote, hback, hclean⟩ := escapeChar_cases c
  · rw [htext, if_pos hclean]
    exact string_escape he cs
  · rw [htext, List.singleton_append, string_plain hquote hback]
    simp only [hclean]

theorem escapeText_reads : Reads escapeText clean := by
  intro s rest
  induction s with
  | nil => rw [escapeText, List.flatMap_nil, List.nil_append, string]; rfl
  | cons c s ih =>
    have happend : escapeText (c :: s) ++ '"' :: rest =
        escapeChar c ++ (escapeText s ++ '"' :: rest) := List.append_assoc ..
    rw [happend, string_escapeChar, ih, clean, clean, List.all_cons]
    cases cleanChar c <;> cases s.all cleanChar <;> rfl

/-! What reaches the parser. -/

theorem utf8_ne_zero {cs : List Char} (h : '\x00' ∉ cs) : ∀ b ∈ utf8 cs, b ≠ 0 := by
  rintro b hb rfl
  obtain ⟨c, hc, hmem⟩ := List.mem_flatMap.mp hb
  have hzero : c = '\x00' := Utf8.eq_of_mem_encode (by decide) hmem
  exact h (hzero ▸ hc)

theorem toStringLossy_utf8 (cs : List Char) : toStringLossy (utf8 cs) = cs := by
  have hdecode : (utf8 cs).toByteArray.utf8Decode? = some cs.toArray := List.utf8Decode?_utf8Encode
  rw [toStringLossy, hdecode]

theorem received_utf8 {cs : List Char} (h : '\x00' ∉ cs) : received (utf8 cs) = cs := by
  have hall : cstr (utf8 cs) = utf8 cs := by
    rw [cstr, List.takeWhile_eq_self_iff]
    intro b hb
    exact decide_eq_true (utf8_ne_zero h b hb)
  rw [received, hall, toStringLossy_utf8]

def notNul (c : Char) : Bool := c ≠ '\x00'

theorem notNul_of {p : Char → Bool} (hnul : p '\x00' = false) {c : Char} (h : p c = true) :
    notNul c = true := by
  rw [notNul, decide_eq_true_eq]
  rintro rfl
  rw [hnul] at h
  cases h

theorem escapeChar_notNul {c : Char} (h : notNul c = true) : (escapeChar c).all notNul = true := by
  obtain ⟨e, htext, he, -⟩ | ⟨htext, -⟩ := escapeChar_cases c
  · have hnot : notNul e = true := notNul_of (p := fun e => (simpleEscape e).isSome) rfl (by simp [he])
    rw [htext, List.all_cons, List.all_cons, hnot]
    rfl
  · rw [htext, List.all_cons, h]
    rfl

theorem received_write {v : Value} (hwhole : v.whole = true)
    (h : v.strings (·.all fun c => (escapeChar c).all notNul) = true) :
    received (utf8 (write escapeText v)) = write escapeText v := by
  have hescape : (fun s => (escapeText s).all notNul) =
      (·.all fun c => (escapeChar c).all notNul) := by
    funext s
    exact List.all_flatMap
  have hdigit : ∀ c : Char, c.isDigit = true → notNul c = true := fun _ => notNul_of (by decide)
  have hpunctuation : punctuation.all notNul = true := by decide
  have hall : (write escapeText v).all notNul = true :=
    all_write (List.all_eq_true.mp hpunctuation) hdigit v hwhole (hescape ▸ h)
  apply received_utf8
  intro hmem
  exact absurd (List.all_eq_true.mp hall _ hmem) (by decide)

end Srtla
