import Mathlib.Algebra.Group.Nat.Defs
import Mathlib.Data.List.Basic
import Mathlib.Tactic.Common

/-! The bytes that encode Unicode scalar values: the shape of one encoding, and where a text of
encodings can be cut. -/

namespace Utf8

def Encoded (P : Char → Prop) (bytes : List UInt8) : Prop :=
  ∃ scalars : List Char, (∀ c ∈ scalars, P c) ∧ bytes = scalars.flatMap String.utf8EncodeChar

def WellFormed (bytes : List UInt8) : Prop := Encoded (fun _ => True) bytes

def Noncharacter (c : Char) : Prop :=
  0xfdd0 ≤ c.toNat ∧ c.toNat ≤ 0xfdef ∨ 0xfffe ≤ c.toNat % 0x10000

def width (code : ℕ) : ℕ :=
  if code ≤ 0x7f then 1 else if code ≤ 0x7ff then 2 else if code ≤ 0xffff then 3 else 4

def marker : ℕ → ℕ
  | 2 => 0xc0
  | 3 => 0xe0
  | 4 => 0xf0
  | _ => 0

/-- The last `k` groups of six bits of a code, a byte each. -/
def continuation : ℕ → ℕ → List UInt8
  | 0, _ => []
  | k + 1, code => UInt8.ofNat (0x80 + code / 64 ^ k % 64) :: continuation k code

theorem not_noncharacter_of_ascii {b : UInt8} (hb : b < 0x80) : ¬Noncharacter (Char.ofUInt8 b) := by
  have hcode : (Char.ofUInt8 b).toNat = b.toNat := rfl
  have hlow : b.toNat < 0x80 := UInt8.lt_iff_toNat_lt.mp hb
  unfold Noncharacter
  omega

/-! One encoding. -/

theorem width_pos (code : ℕ) : 0 < width code := by
  unfold width
  split_ifs <;> decide

theorem length_continuation (k code : ℕ) : (continuation k code).length = k := by
  induction k with
  | zero => rfl
  | succ k ih => rw [continuation, List.length_cons, ih]

theorem high_of_mem_continuation {k code : ℕ} {b : UInt8} (h : b ∈ continuation k code) :
    0x80 ≤ b := by
  induction k with
  | zero => cases h
  | succ k ih =>
    rcases List.mem_cons.mp h with rfl | hrest
    · rw [UInt8.le_iff_toNat_le, UInt8.toNat_ofNat']
      have hlt : code / 64 ^ k % 64 < 64 := Nat.mod_lt _ (by decide)
      rw [Nat.mod_eq_of_lt (by omega)]
      exact Nat.le_add_right 0x80 _
    · exact ih hrest

theorem scalar_range (c : Char) :
    c.toNat < 0xd800 ∨ 0xdfff < c.toNat ∧ c.toNat < 0x110000 := c.valid

theorem encode_eq (c : Char) :
    String.utf8EncodeChar c =
      UInt8.ofNat (marker (width c.toNat) + c.toNat / 64 ^ (width c.toNat - 1)) ::
        continuation (width c.toNat - 1) c.toNat := by
  have hrange := scalar_range c
  have hval : c.val.toNat = c.toNat := rfl
  rw [String.utf8EncodeChar, width]
  simp only [hval]
  obtain ⟨code, hcode⟩ : ∃ code, c.toNat = code := ⟨_, rfl⟩
  rw [hcode] at hrange ⊢
  split_ifs with h1 h2 h3
  · simp [marker, continuation]
  · have hlead : code / 64 % 0x20 + 0xc0 = 0xc0 + code / 64 := by omega
    simp [marker, continuation, hlead, Nat.add_comm]
  · have hlead : code / 4096 % 0x10 + 0xe0 = 0xe0 + code / 4096 := by omega
    simp [marker, continuation, hlead, Nat.add_comm]
  · have hlead : code / 262144 % 0x08 + 0xf0 = 0xf0 + code / 262144 := by omega
    simp [marker, continuation, hlead, Nat.add_comm]

theorem encode_ascii {c : Char} (h : c.toNat < 0x80) :
    String.utf8EncodeChar c = [UInt8.ofNat c.toNat] := by
  have hwidth : width c.toNat = 1 := if_pos (Nat.le_of_lt_succ h)
  rw [encode_eq, hwidth]
  simp only [continuation, marker, Nat.sub_self, Nat.pow_zero, Nat.div_one, Nat.zero_add]

theorem encode_ofUInt8 {b : UInt8} (hb : b < 0x80) :
    String.utf8EncodeChar (Char.ofUInt8 b) = [b] := by
  have hcode : (Char.ofUInt8 b).toNat = b.toNat := rfl
  rw [encode_ascii (hcode ▸ UInt8.lt_iff_toNat_lt.mp hb), hcode, UInt8.ofNat_toNat]

theorem lead_range (c : Char) :
    marker (width c.toNat) + c.toNat / 64 ^ (width c.toNat - 1) < 0x100 ∧
      (0x80 ≤ c.toNat → 0x80 ≤ marker (width c.toNat)) := by
  have hrange := scalar_range c
  unfold width
  split_ifs <;> simp only [marker, Nat.reduceSub, Nat.reducePow] <;> omega

theorem encode_high {c : Char} (h : 0x80 ≤ c.toNat) : ∀ b ∈ String.utf8EncodeChar c, 0x80 ≤ b := by
  obtain ⟨hlt, hmarker⟩ := lead_range c
  intro b hb
  rw [encode_eq] at hb
  rcases List.mem_cons.mp hb with rfl | hrest
  · rw [UInt8.le_iff_toNat_le, UInt8.toNat_ofNat', Nat.mod_eq_of_lt hlt]
    exact Nat.le_trans (hmarker h) (Nat.le_add_right ..)
  · exact high_of_mem_continuation hrest

theorem eq_of_mem_encode {b : UInt8} (hb : b < 0x80) {c : Char}
    (h : b ∈ String.utf8EncodeChar c) : c = Char.ofUInt8 b := by
  have hcode : c.toNat < 0x80 := by
    by_contra hhigh
    exact absurd hb (UInt8.not_lt.mpr (encode_high (Nat.le_of_not_lt hhigh) b h))
  rw [encode_ascii hcode, List.mem_singleton] at h
  have hnat : (Char.ofUInt8 b).toNat = b.toNat := rfl
  apply Char.toNat_inj.mp
  rw [hnat, h, UInt8.toNat_ofNat', Nat.mod_eq_of_lt (by omega)]

theorem length_encode_pos (c : Char) : 0 < (String.utf8EncodeChar c).length := by
  rw [encode_eq, List.length_cons]
  exact Nat.succ_pos _

theorem encode_append_inj {c d : Char} {bytes bytes' : List UInt8}
    (h : String.utf8EncodeChar c ++ bytes = String.utf8EncodeChar d ++ bytes') :
    c = d ∧ bytes = bytes' := by
  -- no encoding begins another one
  have hfirst : ∀ (c : Char) (bytes : List UInt8),
      (String.utf8EncodeChar c ++ bytes).toByteArray.utf8DecodeChar? 0 = some c := by
    intro c bytes
    rw [List.toByteArray_append]
    exact ByteArray.utf8DecodeChar?_utf8EncodeChar_append
  have hcd : c = d := by
    apply Option.some.inj
    rw [← hfirst c bytes, h, hfirst]
  subst hcd
  exact ⟨rfl, List.append_cancel_left h⟩

/-! Texts. -/

theorem wellFormed_iff {bytes : List UInt8} :
    WellFormed bytes ↔ ∃ scalars : List Char, bytes = scalars.flatMap String.utf8EncodeChar := by
  simp [WellFormed, Encoded]

namespace Encoded
variable {P : Char → Prop}

theorem nil : Encoded P [] := ⟨[], by simp, rfl⟩

theorem encode {c : Char} (hc : P c) : Encoded P (String.utf8EncodeChar c) :=
  ⟨[c], by simpa using hc, (List.flatMap_singleton ..).symm⟩

theorem append {front back : List UInt8} (hfront : Encoded P front) (hback : Encoded P back) :
    Encoded P (front ++ back) := by
  obtain ⟨scalars, hscalars, rfl⟩ := hfront
  obtain ⟨scalars', hscalars', rfl⟩ := hback
  refine ⟨scalars ++ scalars', ?_, List.flatMap_append.symm⟩
  intro c hc
  exact (List.mem_append.mp hc).elim (hscalars c) (hscalars' c)

theorem cons {b : UInt8} (hb : b < 0x80) (hP : P (Char.ofUInt8 b)) {rest : List UInt8}
    (hrest : Encoded P rest) : Encoded P (b :: rest) := by
  have hfirst : Encoded P [b] := encode_ofUInt8 hb ▸ encode hP
  exact hfirst.append hrest

theorem of_ascii (hP : ∀ b : UInt8, b < 0x80 → P (Char.ofUInt8 b)) {bytes : List UInt8}
    (h : ∀ b ∈ bytes, b < 0x80) : Encoded P bytes := by
  induction bytes with
  | nil => exact nil
  | cons b bytes ih =>
    have hb := h b List.mem_cons_self
    apply cons hb (hP b hb)
    exact ih fun b' hb' => h b' (List.mem_cons_of_mem b hb')

theorem cut {b : UInt8} (hb : b < 0x80) {front back : List UInt8}
    (h : Encoded P (front ++ b :: back)) : Encoded P front ∧ Encoded P back := by
  obtain ⟨scalars, hscalars, heq⟩ := h
  induction scalars generalizing front with
  | nil => simp at heq
  | cons c scalars ih =>
    obtain ⟨hc, hrest⟩ := List.forall_mem_cons.mp hscalars
    rw [List.flatMap_cons] at heq
    obtain ⟨front', rfl, hafter⟩ | ⟨inside, hencode, hback⟩ :=
      List.append_eq_append_iff.mp heq.symm
    · obtain ⟨hfront, hback⟩ := ih hrest hafter.symm
      exact ⟨(encode hc).append hfront, hback⟩
    · rcases inside with _ | ⟨first, inside⟩
      · -- the encoding ends where the byte stands
        rw [List.append_nil] at hencode
        have hempty : [] ++ b :: back = scalars.flatMap String.utf8EncodeChar := hback
        exact ⟨hencode ▸ encode hc, (ih hrest hempty).2⟩
      · obtain ⟨rfl, rfl⟩ := List.cons.inj hback
        have hmem : b ∈ String.utf8EncodeChar c := by simp [hencode]
        obtain rfl := eq_of_mem_encode hb hmem
        rw [encode_ofUInt8 hb] at hencode
        obtain ⟨rfl, hend⟩ :=
          (List.append_eq_singleton_iff.mp hencode.symm).resolve_right (by simp)
        obtain ⟨-, rfl⟩ := List.cons.inj hend
        exact ⟨nil, scalars, hrest, rfl⟩

variable {sep : UInt8} (hsep : sep < 0x80) (hP : P (Char.ofUInt8 sep))
include hsep hP

theorem cut_iff {front back : List UInt8} :
    Encoded P (front ++ sep :: back) ↔ Encoded P front ∧ Encoded P back :=
  ⟨cut hsep, fun h => h.1.append (cons hsep hP h.2)⟩

theorem intercalate_iff (pieces : List (List UInt8)) :
    Encoded P ([sep].intercalate pieces) ↔ ∀ piece ∈ pieces, Encoded P piece := by
  induction pieces with
  | nil => exact iff_of_true nil (by simp)
  | cons piece pieces ih =>
    rcases pieces with _ | ⟨piece', pieces⟩
    · rw [List.intercalate_singleton, List.forall_mem_singleton]
    · rw [List.intercalate_cons_cons, List.append_assoc, List.singleton_append,
        cut_iff hsep hP, ih, ← List.forall_mem_cons]

end Encoded
end Utf8
