import SrtlaOutput.Lib.Utf8
import SrtlaOutput.Session.Defs

/-! `valid_utf8` accepts the well-formed texts, and reads no byte past the end of its string. -/

namespace Srtla
open Utf8

/-! The loops by their indices. A read is `none` past the end. -/

theorem utf8Lead_width_pos {byte : UInt8} {width bits : ℕ} (h : utf8Lead byte = some (width, bits)) :
    0 < width := by
  unfold utf8Lead at h
  split_ifs at h <;> cases h <;> decide

/-- The loop over the continuation bytes, with `some none` where it returns `false`. -/
def scanContinuation (value : List UInt8) (i width j : ℕ) (codepoint : UInt32) :
    Option (Option UInt32) :=
  if j < width then
    match value[i + j]? with
    | none => none
    | some continuation =>
      if continuation &&& 0xc0 ≠ 0x80 then some none
      else
        scanContinuation value i width (j + 1)
          ((codepoint <<< 6) ||| (continuation &&& 0x3f).toUInt32)
  else some (some codepoint)
termination_by width - j

def scanUtf8 (value : List UInt8) (i : ℕ) : Option Bool :=
  if i < value.length then
    match value[i]? with
    | none => none
    | some byte =>
      match _ : utf8Lead byte with
      | none => some false
      | some (width, bits) =>
        if value.length < i + width then some false
        else
          match scanContinuation value i width 1 (UInt32.ofNat bits) with
          | none => none
          | some none => some false
          | some (some codepoint) =>
            if utf8Rejects width codepoint.toNat then some false else scanUtf8 value (i + width)
  else some true
termination_by value.length - i
decreasing_by
  have hwidth := utf8Lead_width_pos ‹_›
  omega

/-! Bytes. -/

theorem continues_iff (b : UInt8) : b &&& 0xc0 = 0x80 ↔ 0x80 ≤ b.toNat ∧ b.toNat < 0xc0 := by
  rcases b with ⟨b⟩
  revert b
  decide +kernel

theorem toNat_and_low (b : UInt8) : (b &&& 0x3f).toNat = b.toNat % 64 := by
  rw [UInt8.toNat_and]
  exact Nat.and_two_pow_sub_one_eq_mod b.toNat 6

inductive Leads : ℕ → ℕ → Prop
  | one {bits : ℕ} (h : bits < 0x80) : Leads 1 bits
  | two {bits : ℕ} (h : 2 ≤ bits ∧ bits < 0x20) : Leads 2 bits
  | three {bits : ℕ} (h : bits < 0x10) : Leads 3 bits
  | four {bits : ℕ} (h : bits ≤ 4) : Leads 4 bits

theorem utf8Lead_eq_some_iff {byte : UInt8} {width bits : ℕ} :
    utf8Lead byte = some (width, bits) ↔ Leads width bits ∧ byte.toNat = marker width + bits := by
  have h5 : (byte &&& 0x1f).toNat = byte.toNat % 32 := Nat.and_two_pow_sub_one_eq_mod byte.toNat 5
  have h4 : (byte &&& 0x0f).toNat = byte.toNat % 16 := Nat.and_two_pow_sub_one_eq_mod byte.toNat 4
  have h3 : (byte &&& 0x07).toNat = byte.toNat % 8 := Nat.and_two_pow_sub_one_eq_mod byte.toNat 3
  rw [utf8Lead, h5, h4, h3]
  simp only [Bool.and_eq_true, decide_eq_true_eq, UInt8.le_iff_toNat_le, UInt8.reduceToNat]
  constructor
  · intro h
    split_ifs at h <;> cases h
    · exact ⟨.one (by omega), (Nat.zero_add _).symm⟩
    · exact ⟨.two (by omega), by simp only [marker]; omega⟩
    · exact ⟨.three (by omega), by simp only [marker]; omega⟩
    · exact ⟨.four (by omega), by simp only [marker]; omega⟩
  · rintro ⟨hleads, hbyte⟩
    cases hleads with
    | one h =>
      simp only [marker, Nat.zero_add] at hbyte
      rw [if_pos (by omega), hbyte]
    | two h =>
      simp only [marker] at hbyte
      have hbits : byte.toNat % 32 = bits := by omega
      rw [if_neg (by omega), if_pos (by omega), hbits]
    | three h =>
      simp only [marker] at hbyte
      have hbits : byte.toNat % 16 = bits := by omega
      rw [if_neg (by omega), if_neg (by omega), if_pos (by omega), hbits]
    | four h =>
      simp only [marker] at hbyte
      have hbits : byte.toNat % 8 = bits := by omega
      rw [if_neg (by omega), if_neg (by omega), if_neg (by omega), if_pos (by omega), hbits]

theorem utf8Continue_eq_some_iff {bits codepoint : ℕ} {tail : List UInt8} :
    utf8Continue bits tail = some codepoint ↔
      tail = continuation tail.length codepoint ∧ bits = codepoint / 64 ^ tail.length := by
  induction tail generalizing bits with
  | nil => simp [utf8Continue, continuation]
  | cons byte tail ih =>
    have hgroup : byte = UInt8.ofNat (0x80 + codepoint / 64 ^ tail.length % 64) ↔
        byte.toNat = 0x80 + codepoint / 64 ^ tail.length % 64 := by
      rw [← UInt8.toNat_inj, UInt8.toNat_ofNat', Nat.mod_eq_of_lt (by omega)]
    have hdiv : codepoint / 64 ^ (tail.length + 1) = codepoint / 64 ^ tail.length / 64 := by
      rw [Nat.pow_succ, Nat.div_div_eq_div_mul]
    rw [utf8Continue, List.length_cons, continuation, List.cons.injEq, hgroup, hdiv, toNat_and_low]
    split_ifs with hcontinues
    · rw [ne_eq, continues_iff] at hcontinues
      refine iff_of_false not_false ?_
      rintro ⟨⟨hbyte, -⟩, -⟩
      omega
    · rw [not_not, continues_iff] at hcontinues
      rw [ih]
      constructor
      · rintro ⟨htail, hbits⟩
        exact ⟨⟨by omega, htail⟩, by omega⟩
      · rintro ⟨⟨hbyte, htail⟩, hbits⟩
        exact ⟨htail, by omega⟩

theorem utf8Rejects_eq_false_iff {w codepoint : ℕ} :
    utf8Rejects w codepoint = false ↔
      (w = 2 → 0x80 ≤ codepoint) ∧ (w = 3 → 0x800 ≤ codepoint) ∧
        (w = 4 → 0x10000 ≤ codepoint ∧ codepoint ≤ 0x10ffff) ∧
        ¬(0xd800 ≤ codepoint ∧ codepoint ≤ 0xdfff) := by
  simp only [utf8Rejects, Bool.or_eq_false_iff, Bool.and_eq_false_imp, beq_iff_eq,
    decide_eq_false_iff_not, decide_eq_true_eq, not_lt, not_and, and_assoc]

theorem leads_accepted_iff {w codepoint : ℕ} :
    Leads w (codepoint / 64 ^ (w - 1)) ∧ utf8Rejects w codepoint = false ↔
      codepoint.isValidChar ∧ w = width codepoint := by
  -- the checks leave the scalar values, each in its own width
  have hvalid : codepoint.isValidChar ↔
    codepoint < 0xd800 ∨ 0xdfff < codepoint ∧ codepoint < 0x110000 := Iff.rfl
  rw [utf8Rejects_eq_false_iff, hvalid]
  constructor
  · rintro ⟨hleads, htwo, hthree, hfour, hsurrogate⟩
    generalize hbits : codepoint / 64 ^ (w - 1) = bits at hleads
    unfold width
    cases hleads with
    | one h =>
      rw [Nat.pow_zero, Nat.div_one] at hbits
      exact ⟨by omega, (if_pos (by omega)).symm⟩
    | two h =>
      simp only [Nat.reduceSub, Nat.reducePow] at hbits
      have hleast := htwo rfl
      rw [if_neg (by omega), if_pos (by omega)]
      exact ⟨by omega, rfl⟩
    | three h =>
      simp only [Nat.reduceSub, Nat.reducePow] at hbits
      have hleast := hthree rfl
      rw [if_neg (by omega), if_neg (by omega), if_pos (by omega)]
      exact ⟨by omega, rfl⟩
    | four h =>
      have hleast := hfour rfl
      rw [if_neg (by omega), if_neg (by omega), if_neg (by omega)]
      exact ⟨by omega, rfl⟩
  · rintro ⟨hscalar, rfl⟩
    have hsurrogate : ¬(0xd800 ≤ codepoint ∧ codepoint ≤ 0xdfff) := by omega
    unfold width
    split_ifs with h1 h2 h3 <;> simp only [Nat.reduceSub, Nat.reducePow, Nat.div_one]
    · exact ⟨.one (by omega), by omega⟩
    · exact ⟨.two (by omega), by omega⟩
    · exact ⟨.three (by omega), by omega⟩
    · exact ⟨.four (by omega), by omega⟩

theorem utf8Step_iff {byte : UInt8} {tail : List UInt8} :
    (∃ bits codepoint, utf8Lead byte = some (tail.length + 1, bits) ∧
      utf8Continue bits tail = some codepoint ∧ utf8Rejects (tail.length + 1) codepoint = false) ↔
      ∃ c, byte :: tail = String.utf8EncodeChar c := by
  simp only [utf8Lead_eq_some_iff, utf8Continue_eq_some_iff]
  constructor
  · rintro ⟨bits, codepoint, ⟨hleads, hbyte⟩, ⟨htail, rfl⟩, haccepted⟩
    obtain ⟨hvalid, hwidth⟩ := leads_accepted_iff.mp ⟨hleads, haccepted⟩
    refine ⟨Char.ofNatAux codepoint hvalid, ?_⟩
    have hcode : (Char.ofNatAux codepoint hvalid).toNat = codepoint := rfl
    rw [encode_eq, hcode, ← hwidth, Nat.add_sub_cancel, ← htail, ← hbyte, UInt8.ofNat_toNat]
  · rintro ⟨c, hencode⟩
    rw [encode_eq] at hencode
    obtain ⟨hbyte, htail⟩ := List.cons.inj hencode
    have hlength : tail.length = width c.toNat - 1 := by rw [htail, length_continuation]
    have hwidth : tail.length + 1 = width c.toNat := by
      have hpos := width_pos c.toNat
      omega
    have hnat := congrArg UInt8.toNat hbyte
    rw [UInt8.toNat_ofNat', Nat.mod_eq_of_lt (lead_range c).1, ← hwidth, Nat.add_sub_cancel] at hnat
    rw [← hlength] at htail
    obtain ⟨hleads, haccepted⟩ := leads_accepted_iff.mpr ⟨c.valid, hwidth⟩
    exact ⟨_, c.toNat, ⟨hleads, hnat⟩, ⟨htail, rfl⟩, haccepted⟩

theorem validUtf8_cons_iff {byte : UInt8} {rest : List UInt8} :
    validUtf8 (byte :: rest) = true ↔
      ∃ c back, byte :: rest = String.utf8EncodeChar c ++ back ∧ validUtf8 back = true := by
  constructor
  · intro h
    rw [validUtf8] at h
    split at h
    · cases h
    next w bits hlead =>
    split_ifs at h with hshort
    split at h
    · cases h
    next codepoint hcontinue =>
    split_ifs at h with hrejects
    have hlength : (rest.take (w - 1)).length + 1 = w := by
      have hpos := utf8Lead_width_pos hlead
      rw [List.length_take]
      omega
    obtain ⟨c, hencode⟩ := utf8Step_iff.mp
      ⟨bits, codepoint, hlength.symm ▸ hlead, hcontinue, hlength.symm ▸ Bool.eq_false_iff.mpr hrejects⟩
    refine ⟨c, rest.drop (w - 1), ?_, h⟩
    rw [← hencode, List.cons_append, List.take_append_drop]
  · rintro ⟨c, back, hencode, hback⟩
    obtain ⟨byte', tail, htail⟩ := List.exists_cons_of_length_pos (length_encode_pos c)
    rw [htail, List.cons_append] at hencode
    obtain ⟨rfl, rfl⟩ := List.cons.inj hencode
    obtain ⟨bits, codepoint, hlead, hcontinue, haccepted⟩ := utf8Step_iff.mpr ⟨c, htail.symm⟩
    have hlong : ¬(tail ++ back).length < tail.length := by
      rw [List.length_append]
      omega
    rw [validUtf8, hlead]
    simp only [Nat.add_sub_cancel, if_neg hlong, List.take_left', List.drop_left', hcontinue,
      haccepted, hback, Bool.false_eq_true, if_false]

theorem validUtf8_iff (value : List UInt8) : validUtf8 value = true ↔ WellFormed value := by
  constructor
  · intro h
    induction hn : value.length using Nat.strong_induction_on generalizing value with
    | _ n ih =>
      rcases value with _ | ⟨byte, rest⟩
      · exact .nil
      · obtain ⟨c, back, hencode, hback⟩ := validUtf8_cons_iff.mp h
        have hshorter : back.length < n := by
          have hpos := length_encode_pos c
          rw [← hn, hencode, List.length_append]
          omega
        rw [hencode]
        exact (Encoded.encode trivial).append (ih _ hshorter back hback rfl)
  · rintro ⟨scalars, -, rfl⟩
    induction scalars with
    | nil => rw [List.flatMap_nil, validUtf8]
    | cons c scalars ih =>
      obtain ⟨byte, tail, htail⟩ := List.exists_cons_of_length_pos (length_encode_pos c)
      rw [List.flatMap_cons]
      have hcons : String.utf8EncodeChar c ++ scalars.flatMap String.utf8EncodeChar =
          byte :: (tail ++ scalars.flatMap String.utf8EncodeChar) := by rw [htail, List.cons_append]
      rw [hcons]
      exact validUtf8_cons_iff.mpr ⟨c, _, hcons.symm, ih⟩

/-! The loops by their indices are the loops over what is left of the string. -/

theorem toNat_append_bits {codepoint : UInt32} {b : UInt8} (h : codepoint.toNat < 2 ^ 26) :
    ((codepoint <<< 6) ||| (b &&& 0x3f).toUInt32).toNat =
      codepoint.toNat * 64 + (b &&& 0x3f).toNat := by
  have hbits : (b &&& 0x3f).toNat < 2 ^ 6 := by
    rw [toNat_and_low]
    exact Nat.mod_lt _ (by decide)
  have hshift : (codepoint <<< 6).toNat = 2 ^ 6 * codepoint.toNat := by
    have hsix : (6 : UInt32).toNat % 32 = 6 := rfl
    rw [UInt32.toNat_shiftLeft, hsix, Nat.shiftLeft_eq, Nat.mod_eq_of_lt (by omega)]
    exact Nat.mul_comm ..
  rw [UInt32.toNat_or, hshift, UInt8.toNat_toUInt32, ← Nat.two_pow_add_eq_or_of_lt hbits]
  omega

theorem scanContinuation_eq {value : List UInt8} {i width : ℕ} (hfits : i + width ≤ value.length)
    {j : ℕ} {codepoint : UInt32} (hbits : (codepoint.toNat + 1) * 64 ^ (width - j) ≤ 2 ^ 32) :
    scanContinuation value i width j codepoint =
      some ((utf8Continue codepoint.toNat ((value.drop (i + j)).take (width - j))).map
        UInt32.ofNat) := by
  -- no bit of the code is shifted out before the last continuation byte
  induction hleft : width - j generalizing j codepoint with
  | zero =>
    rw [scanContinuation, if_neg (by omega), List.take_zero, utf8Continue, Option.map_some,
      UInt32.ofNat_toNat]
  | succ left ih =>
    have hread : i + j < value.length := by omega
    rw [hleft, Nat.pow_succ] at hbits
    have hfew : codepoint.toNat < 2 ^ 26 := by
      have hone : 1 ≤ 64 ^ left := Nat.one_le_pow _ _ (by decide)
      have hmul : (codepoint.toNat + 1) * 64 ≤ (codepoint.toNat + 1) * (64 ^ left * 64) :=
        Nat.mul_le_mul_left _ (by omega)
      omega
    rw [scanContinuation, if_pos (by omega), List.getElem?_eq_getElem hread,
      List.drop_eq_getElem_cons hread, List.take_succ_cons, utf8Continue]
    simp only
    split_ifs with hcontinues
    · rfl
    · have hgroup : (value[i + j] &&& 0x3f).toNat < 64 := by
        rw [toNat_and_low]
        exact Nat.mod_lt _ (by decide)
      have hroom : (codepoint.toNat * 64 + (value[i + j] &&& 0x3f).toNat + 1) * 64 ^ left ≤
          2 ^ 32 := by
        calc (codepoint.toNat * 64 + (value[i + j] &&& 0x3f).toNat + 1) * 64 ^ left
            ≤ (codepoint.toNat + 1) * 64 * 64 ^ left := Nat.mul_le_mul_right _ (by omega)
          _ = (codepoint.toNat + 1) * (64 ^ left * 64) := by ring
          _ ≤ 2 ^ 32 := hbits
      have hleft' : width - (j + 1) = left := by omega
      rw [ih (by rw [toNat_append_bits hfew, hleft']; exact hroom) hleft', toNat_append_bits hfew,
        Nat.add_assoc]

theorem Leads.lt {w bits : ℕ} (h : Leads w bits) : bits < 0x80 := by
  cases h <;> omega

theorem Leads.room {w bits : ℕ} (h : Leads w bits) : (bits + 1) * 64 ^ (w - 1) ≤ 2 ^ 32 := by
  cases h <;> simp only [Nat.reduceSub, Nat.reducePow] <;> omega

theorem utf8Continue_lt {bits codepoint : ℕ} {tail : List UInt8}
    (hroom : (bits + 1) * 64 ^ tail.length ≤ 2 ^ 32)
    (h : utf8Continue bits tail = some codepoint) : codepoint < 2 ^ 32 := by
  have hdiv := (utf8Continue_eq_some_iff.mp h).2
  have hlt : codepoint < (bits + 1) * 64 ^ tail.length :=
    (Nat.div_lt_iff_lt_mul (Nat.pow_pos (by decide))).mp (by omega)
  exact hlt.trans_le hroom

theorem scanUtf8_eq (value : List UInt8) (i : ℕ) :
    scanUtf8 value i = some (validUtf8 (value.drop i)) := by
  induction hleft : value.length - i using Nat.strong_induction_on generalizing i with
  | _ left ih =>
    rw [scanUtf8]
    split_ifs with hi
    · rw [List.getElem?_eq_getElem hi, List.drop_eq_getElem_cons hi, validUtf8]
      simp only
      split
      next hlead => rw [hlead]
      next w bits hlead =>
      have hpos := utf8Lead_width_pos hlead
      have hleads := (utf8Lead_eq_some_iff.mp hlead).1
      have hrest : (value.drop (i + 1)).length = value.length - (i + 1) := List.length_drop
      rw [hlead]
      simp only
      by_cases hshort : value.length < i + w
      · rw [if_pos hshort, if_pos (by omega)]
      have hbits : (UInt32.ofNat bits).toNat = bits := by
        have hlt := hleads.lt
        rw [UInt32.toNat_ofNat', Nat.mod_eq_of_lt (by omega)]
      rw [if_neg hshort, if_neg (by omega),
        scanContinuation_eq (by omega) (by rw [hbits]; exact hleads.room), hbits]
      rcases hcontinue : utf8Continue bits ((value.drop (i + 1)).take (w - 1)) with _ | codepoint
      · rfl
      have hcode : (UInt32.ofNat codepoint).toNat = codepoint := by
        have htail : ((value.drop (i + 1)).take (w - 1)).length = w - 1 := by
          rw [List.length_take]
          omega
        have hlt := utf8Continue_lt (by rw [htail]; exact hleads.room) hcontinue
        rw [UInt32.toNat_ofNat', Nat.mod_eq_of_lt hlt]
      simp only [Option.map_some, hcode]
      split_ifs with hrejects
      · rfl
      · have hnext : i + 1 + (w - 1) = i + w := by omega
        rw [ih _ (by omega) (i + w) rfl, List.drop_drop, hnext]
    · rw [List.drop_eq_nil_of_le (by omega), validUtf8]

/-- The function is total: no read is past the end. -/
theorem validUtf8_spec (value : List UInt8) :
    ∃ accepted, scanUtf8 value 0 = some accepted ∧ validUtf8 value = accepted ∧
      (accepted = true ↔
        ∃ scalars : List Char, value = scalars.flatMap String.utf8EncodeChar) :=
  ⟨validUtf8 value, scanUtf8_eq value 0, rfl, (validUtf8_iff value).trans wellFormed_iff⟩

end Srtla
