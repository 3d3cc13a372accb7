import Mathlib.Data.List.Basic
import Mathlib.Data.List.TakeWhile

/-! Percent-encoded bytes, and texts with separators in them. What stands for itself in a decoder
is a parameter, so that decoders that disagree about a byte can be compared. -/

namespace Percent

def percent : UInt8 := 37

def hexValue (c : UInt8) : Option UInt8 :=
  if 48 ≤ c ∧ c ≤ 57 then some (c - 48)
  else if 97 ≤ c ∧ c ≤ 102 then some (c - 97 + 10)
  else if 65 ≤ c ∧ c ≤ 70 then some (c - 65 + 10)
  else none

/-- A percent sign without two hexadecimal digits after it stands for itself. -/
def decode (literal : UInt8 → UInt8) : List UInt8 → List UInt8
  | [] => []
  | [a] => [literal a]
  | [a, b] => [literal a, literal b]
  | a :: hi :: lo :: rest =>
    if a = percent then
      match hexValue hi, hexValue lo with
      | some h, some l => (16 * h + l) :: decode literal rest
      | _, _ => literal a :: decode literal (hi :: lo :: rest)
    else literal a :: decode literal (hi :: lo :: rest)

def wellEscaped : List UInt8 → Bool
  | [] => true
  | a :: rest =>
    (a != percent || decide (((rest.take 2).filterMap hexValue).length = 2)) && wellEscaped rest

/-- The bytes below 0x80, which are characters by themselves. -/
def low (bytes : List UInt8) : List UInt8 := bytes.filter (· < 0x80)

/-- A text for some bytes: a plain byte may stand for itself, and every byte may be escaped. -/
inductive Encodes (plain : UInt8 → Prop) : List UInt8 → List UInt8 → Prop
  | nil : Encodes plain [] []
  | kept {b : UInt8} {text bytes : List UInt8} (hb : plain b) (rest : Encodes plain text bytes) :
      Encodes plain (b :: text) (b :: bytes)
  | escaped {hi lo h l : UInt8} {text bytes : List UInt8} (hhi : hexValue hi = some h)
      (hlo : hexValue lo = some l) (rest : Encodes plain text bytes) :
      Encodes plain (percent :: hi :: lo :: text) ((16 * h + l) :: bytes)

def hexDigit (n : UInt8) : UInt8 := if n < 10 then 48 + n else 55 + n

def encode (plain : UInt8 → Bool) (bytes : List UInt8) : List UInt8 :=
  bytes.flatMap fun b =>
    if plain b then [b] else [percent, hexDigit (b / 16), hexDigit (b % 16)]

section Decode
variable {literal : UInt8 → UInt8}

def Literal (a : UInt8) (rest : List UInt8) : Prop :=
  a = percent → ∀ hi lo tail, rest = hi :: lo :: tail → hexValue hi = none ∨ hexValue lo = none

theorem decode_literal {a : UInt8} {rest : List UInt8} (h : Literal a rest) :
    decode literal (a :: rest) = literal a :: decode literal rest := by
  match rest with
  | [] => rfl
  | [_] => rfl
  | hi :: lo :: tail =>
    rw [decode]
    split_ifs with ha
    · rcases h ha hi lo tail rfl with hnone | hnone
      · rw [hnone]
      · rw [hnone]
        cases hexValue hi <;> rfl
    · rfl

theorem decode_cons {a : UInt8} (ha : a ≠ percent) (rest : List UInt8) :
    decode literal (a :: rest) = literal a :: decode literal rest :=
  decode_literal fun h => absurd h ha

theorem decode_escape {hi lo h l : UInt8} (hhi : hexValue hi = some h)
    (hlo : hexValue lo = some l) (rest : List UInt8) :
    decode literal (percent :: hi :: lo :: rest) = (16 * h + l) :: decode literal rest := by
  rw [decode, if_pos rfl, hhi, hlo]

/-- A text is read from the left, one escape or one literal byte at a time. -/
@[elab_as_elim]
theorem decode_induction {P : List UInt8 → Prop} (nil : P [])
    (literal : ∀ a rest, Literal a rest → P rest → P (a :: rest))
    (escape : ∀ hi lo h l rest, hexValue hi = some h → hexValue lo = some l → P rest →
      P (percent :: hi :: lo :: rest)) (text : List UInt8) : P text := by
  induction hlength : text.length using Nat.strongRecOn generalizing text with
  | _ n ih =>
    subst hlength
    match text with
    | [] => exact nil
    | a :: rest =>
      by_cases h : Literal a rest
      · exact literal a rest h (ih rest.length (by simp) rest rfl)
      · unfold Literal at h
        push Not at h
        obtain ⟨rfl, hi, lo, tail, rfl, hhi, hlo⟩ := h
        obtain ⟨h, hh⟩ := Option.ne_none_iff_exists'.mp hhi
        obtain ⟨l, hl⟩ := Option.ne_none_iff_exists'.mp hlo
        apply escape hi lo h l tail hh hl
        apply ih tail.length _ tail rfl
        simp only [List.length_cons]
        omega

theorem Encodes.decode {plain : UInt8 → Prop} {text bytes : List UInt8}
    (hplain : ∀ b, plain b → b ≠ percent ∧ literal b = b) (h : Encodes plain text bytes) :
    decode literal text = bytes := by
  induction h with
  | nil => rfl
  | kept hb _ ih =>
    obtain ⟨hne, hliteral⟩ := hplain _ hb
    rw [decode_cons hne, hliteral, ih]
  | escaped hhi hlo _ ih => rw [decode_escape hhi hlo, ih]

theorem Encodes.not_mem {plain : UInt8 → Prop} {text bytes : List UInt8} {b : UInt8}
    (hplain : ¬ plain b) (hpercent : b ≠ percent) (hhex : hexValue b = none)
    (h : Encodes plain text bytes) : b ∉ text := by
  induction h with
  | nil => exact List.not_mem_nil
  | kept hb _ ih =>
    rw [List.mem_cons, not_or]
    refine ⟨?_, ih⟩
    rintro rfl
    exact hplain hb
  | escaped hhi hlo _ ih =>
    simp only [List.mem_cons, not_or]
    refine ⟨hpercent, ?_, ?_, ih⟩
    · rintro rfl
      rw [hhex] at hhi
      cases hhi
    · rintro rfl
      rw [hhex] at hlo
      cases hlo

theorem hexValue_hexDigit {n : UInt8} (h : n < 16) : hexValue (hexDigit n) = some n := by
  have hall : ∀ k : Fin 16, hexValue (hexDigit (UInt8.ofNat k)) = some (UInt8.ofNat k) := by
    decide
  have hn := hall ⟨n.toNat, UInt8.lt_iff_toNat_lt.mp h⟩
  rwa [UInt8.ofNat_toNat] at hn

theorem digits (b : UInt8) : 16 * (b / 16) + b % 16 = b := by
  apply UInt8.toNat_inj.mp
  have hb := b.toNat_lt
  simp only [UInt8.toNat_add, UInt8.toNat_mul, UInt8.toNat_div, UInt8.toNat_mod, UInt8.reduceToNat]
  omega

theorem encode_encodes (plain : UInt8 → Bool) (bytes : List UInt8) :
    Encodes (plain · = true) (encode plain bytes) bytes := by
  induction bytes with
  | nil => exact .nil
  | cons b bytes ih =>
    rw [encode, List.flatMap_cons]
    split_ifs with hb
    · exact .kept hb ih
    · have hhi : b / 16 < 16 := by
        have hlt := b.toNat_lt
        rw [UInt8.lt_iff_toNat_lt, UInt8.toNat_div]
        exact Nat.div_lt_of_lt_mul hlt
      have hlo : b % 16 < 16 := UInt8.mod_lt _ (by decide)
      have hpair := Encodes.escaped (hexValue_hexDigit hhi) (hexValue_hexDigit hlo) ih
      rwa [digits] at hpair

theorem decode_append {c : UInt8} (hpercent : c ≠ percent) (hhex : hexValue c = none)
    (text rest : List UInt8) :
    decode literal (text ++ c :: rest) = decode literal text ++ literal c :: decode literal rest := by
  induction text using decode_induction with
  | nil => exact decode_cons hpercent rest
  | literal a text h ih =>
    have hstill : Literal a (text ++ c :: rest) := by
      intro ha hi lo tail htail
      match text with
      | [] =>
        left
        rwa [(List.cons.inj htail).1] at hhex
      | [b] =>
        right
        rwa [(List.cons.inj (List.cons.inj htail).2).1] at hhex
      | b :: b' :: text =>
        obtain ⟨rfl, hrest⟩ := List.cons.inj htail
        obtain ⟨rfl, -⟩ := List.cons.inj hrest
        exact h ha _ _ _ rfl
    rw [List.cons_append, decode_literal hstill, decode_literal h, ih]
    rfl
  | escape hi lo h l text hhi hlo ih =>
    show decode literal (percent :: hi :: lo :: (text ++ c :: rest)) = _
    rw [decode_escape hhi hlo, decode_escape hhi hlo, ih]
    rfl

end Decode

theorem decode_eq_iff {f g : UInt8 → UInt8}
    (hdiffer : ∀ b, f b ≠ g b → b ≠ percent ∧ hexValue b = none) (text : List UInt8) :
    decode f text = decode g text ↔ ∀ b ∈ text, f b = g b := by
  have hpercent : f percent = g percent := by
    by_contra h
    exact (hdiffer _ h).1 rfl
  have hhex : ∀ b v, hexValue b = some v → f b = g b := by
    intro b v hb
    by_contra h
    rw [(hdiffer _ h).2] at hb
    cases hb
  induction text using decode_induction with
  | nil => simp [decode]
  | literal a text h ih =>
    rw [decode_literal h, decode_literal h, List.cons.injEq, List.forall_mem_cons]
    exact and_congr_right fun _ => ih
  | escape hi lo h l text hhi hlo ih =>
    rw [decode_escape hhi hlo, decode_escape hhi hlo, List.cons.injEq]
    simp only [List.forall_mem_cons, hpercent, hhex hi h hhi, hhex lo l hlo, true_and]
    exact ih

theorem low_cons_of_lt {b : UInt8} (hb : b < 0x80) (bytes : List UInt8) :
    low (b :: bytes) = b :: low bytes := List.filter_cons_of_pos (decide_eq_true hb)

theorem low_cons_of_not_lt {b : UInt8} (hb : ¬b < 0x80) (bytes : List UInt8) :
    low (b :: bytes) = low bytes := List.filter_cons_of_neg (by simpa using hb)

theorem length_low_cons (b : UInt8) (bytes : List UInt8) :
    (low (b :: bytes)).length = (if b < 0x80 then 1 else 0) + (low bytes).length := by
  split_ifs with hb
  · rw [low_cons_of_lt hb, List.length_cons, Nat.add_comm]
  · rw [low_cons_of_not_lt hb, Nat.zero_add]

theorem low_of_hexValue {b v : UInt8} (h : hexValue b = some v) : b < 0x80 := by
  have hall : ∀ b : UInt8, ¬b < 0x80 → hexValue b = none := by
    intro b hb
    rw [UInt8.lt_iff_toNat_lt] at hb
    have hlow : ¬b ≤ 57 ∧ ¬b ≤ 102 ∧ ¬b ≤ 70 := by
      simp only [UInt8.le_iff_toNat_le, UInt8.reduceToNat] at hb ⊢
      omega
    simp [hexValue, hlow]
  by_contra hb
  rw [hall b hb] at h
  cases h

theorem low_decode (text : List UInt8) :
    (low (decode id text)).length ≤ (low text).length ∧
      ((low (decode id text)).length = (low text).length → decode id text = text) := by
  -- an escape stands for one byte and is three below 0x80, so it can be told from these
  induction text using decode_induction with
  | nil => exact ⟨Nat.le_refl _, fun _ => rfl⟩
  | literal a text h ih =>
    rw [decode_literal h, id, length_low_cons, length_low_cons]
    refine ⟨Nat.add_le_add_left ih.1 _, fun hlength => ?_⟩
    rw [ih.2 (Nat.add_left_cancel hlength)]
  | escape hi lo h l text hhi hlo ih =>
    have hpercent : percent < 0x80 := by decide
    have hbyte : (if 16 * h + l < 0x80 then 1 else 0) ≤ 1 := by split_ifs <;> omega
    rw [decode_escape hhi hlo, length_low_cons, low_cons_of_lt hpercent,
      low_cons_of_lt (low_of_hexValue hhi), low_cons_of_lt (low_of_hexValue hlo)]
    simp only [List.length_cons]
    obtain ⟨hle, -⟩ := ih
    exact ⟨by omega, by omega⟩

theorem decode_eq_of_low {f g : UInt8 → UInt8}
    (hdiffer : ∀ b, f b ≠ g b → f b < 0x80 ∧ g b < 0x80) (text : List UInt8) :
    (low (decode f text)).length = (low (decode g text)).length ∧
      (low (decode f text) = low (decode g text) → decode f text = decode g text) := by
  induction text using decode_induction with
  | nil => exact ⟨rfl, fun _ => rfl⟩
  | literal a text h ih =>
    rw [decode_literal h, decode_literal h]
    by_cases hsame : f a = g a
    · rw [hsame, length_low_cons, length_low_cons, ih.1]
      refine ⟨rfl, fun hlow => ?_⟩
      by_cases ha : g a < 0x80
      · rw [low_cons_of_lt ha, low_cons_of_lt ha] at hlow
        rw [ih.2 (List.cons.inj hlow).2]
      · rw [low_cons_of_not_lt ha, low_cons_of_not_lt ha] at hlow
        rw [ih.2 hlow]
    · obtain ⟨hf, hg⟩ := hdiffer a hsame
      rw [low_cons_of_lt hf, low_cons_of_lt hg, List.length_cons, List.length_cons, ih.1]
      exact ⟨rfl, fun hlow => absurd (List.cons.inj hlow).1 hsame⟩
  | escape hi lo h l text hhi hlo ih =>
    rw [decode_escape hhi hlo, decode_escape hhi hlo, length_low_cons, length_low_cons, ih.1]
    refine ⟨rfl, fun hlow => ?_⟩
    by_cases hbyte : 16 * h + l < 0x80
    · rw [low_cons_of_lt hbyte, low_cons_of_lt hbyte] at hlow
      rw [ih.2 (List.cons.inj hlow).2]
    · rw [low_cons_of_not_lt hbyte, low_cons_of_not_lt hbyte] at hlow
      rw [ih.2 hlow]

theorem decode_of_not_mem {text : List UInt8} (h : percent ∉ text) : decode id text = text := by
  induction text with
  | nil => rfl
  | cons a text ih =>
    have ha : a ≠ percent := fun heq => h (heq ▸ List.mem_cons_self)
    rw [decode_cons ha, ih fun hmem => h (List.mem_cons_of_mem a hmem)]
    rfl

section Separated
variable {α : Type*} [DecidableEq α] {c : α}

def before (c : α) (text : List α) : List α := text.takeWhile (· ≠ c)

def after (c : α) (text : List α) : List α := (text.dropWhile (· ≠ c)).tail

theorem decide_ne_of_not_mem {as : List α} (h : c ∉ as) : ∀ b ∈ as, decide (b ≠ c) = true := by
  intro b hb
  rw [decide_eq_true_eq]
  rintro rfl
  exact h hb

theorem before_append {as : List α} (h : c ∉ as) (bs : List α) :
    before c (as ++ c :: bs) = as := by
  rw [before, List.takeWhile_append_of_pos (decide_ne_of_not_mem h),
    List.takeWhile_cons_of_neg (by simp), List.append_nil]

theorem after_append {as : List α} (h : c ∉ as) (bs : List α) :
    after c (as ++ c :: bs) = bs := by
  rw [after, List.dropWhile_append_of_pos (decide_ne_of_not_mem h),
    List.dropWhile_cons_of_neg (by simp), List.tail_cons]

theorem not_mem_before (c : α) (text : List α) : c ∉ before c text := by
  intro h
  simpa using List.mem_takeWhile_imp h

theorem before_of_not_mem {text : List α} (h : c ∉ text) : before c text = text :=
  List.takeWhile_eq_self_iff.mpr (decide_ne_of_not_mem h)

theorem eq_before_after {text : List α} (h : c ∈ text) :
    text = before c text ++ c :: after c text := by
  obtain ⟨as, bs, rfl, has⟩ := List.eq_append_cons_of_mem h
  rw [before_append has, after_append has]

theorem before_append_of_not_mem {as : List α} (h : c ∉ as) (bs : List α) :
    before c (as ++ bs) = as ++ before c bs :=
  List.takeWhile_append_of_pos (decide_ne_of_not_mem h)

theorem after_append_of_mem {as : List α} (h : c ∈ as) (bs : List α) :
    before c (as ++ bs) = before c as ∧ after c (as ++ bs) = after c as ++ bs := by
  obtain ⟨xs, ys, rfl, hxs⟩ := List.eq_append_cons_of_mem h
  rw [List.append_assoc, List.cons_append, before_append hxs, before_append hxs,
    after_append hxs, after_append hxs]
  exact ⟨rfl, rfl⟩

theorem low_before_lt {b : UInt8} (hb : b < 0x80) {bytes : List UInt8} (h : b ∈ bytes) :
    (low (before b bytes)).length < (low bytes).length := by
  conv_rhs => rw [eq_before_after h, low, List.filter_append, List.length_append]
  exact Nat.lt_add_of_pos_right (List.length_pos_of_mem
    (List.mem_filter.mpr ⟨List.mem_cons_self, decide_eq_true hb⟩))

theorem mem_of_mem_splitOn {a b : α} {xs piece : List α} (h : piece ∈ xs.splitOn a)
    (hb : b ∈ piece) : b ∈ xs := by
  induction xs generalizing piece with
  | nil =>
    obtain rfl := List.mem_singleton.mp h
    cases hb
  | cons x xs ih =>
    obtain ⟨head, tail, hxs⟩ := List.exists_cons_of_ne_nil (List.splitOn_ne_nil a xs)
    rw [List.splitOn_cons_eq_if_modifyHead, hxs] at h
    rw [hxs] at ih
    split_ifs at h with hx
    · rcases List.mem_cons.mp h with rfl | hpiece
      · cases hb
      · exact List.mem_cons_of_mem x (ih hpiece hb)
    · rcases List.mem_cons.mp h with rfl | hpiece
      · rcases List.mem_cons.mp hb with rfl | hhead
        · exact List.mem_cons_self
        · exact List.mem_cons_of_mem x (ih List.mem_cons_self hhead)
      · exact List.mem_cons_of_mem x (ih (List.mem_cons_of_mem head hpiece) hb)

theorem splitOn_cut {a : α} (hc : c ≠ a) (xs ys : List α) :
    (xs ++ c :: ys).splitOn a =
      (xs.splitOn a).dropLast ++
        ((xs.splitOn a).getLastD [] ++ c :: (ys.splitOn a).headD []) :: (ys.splitOn a).tail := by
  induction xs with
  | nil =>
    obtain ⟨head, tail, hys⟩ := List.exists_cons_of_ne_nil (List.splitOn_ne_nil a ys)
    rw [List.nil_append, List.splitOn_cons_eq_if_modifyHead, hys, if_neg (by simpa using hc)]
    simp
  | cons b xs ih =>
    obtain ⟨head, tail, hxs⟩ := List.exists_cons_of_ne_nil (List.splitOn_ne_nil a xs)
    rw [List.cons_append, List.splitOn_cons_eq_if_modifyHead, ih,
      List.splitOn_cons_eq_if_modifyHead, hxs]
    split_ifs
    · simp
    · cases tail <;> simp

end Separated

end Percent
