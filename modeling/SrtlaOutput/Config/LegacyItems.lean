import SrtlaOutput.Config.DockUrl

/-! What the output and the dock take from one item of a query, and when it is the same. -/

namespace Srtla
open Percent Latest Utf8

/-- Qt decodes the text: no lone percent sign keeps it from that, what comes out is UTF-8, and if
there are noncharacters in it they are not replaced. -/
structure Qt.Decodes (qt : Qt) (query text : List UInt8) : Prop where
  escapes : componentBytes query text = decode id text
  utf8 : WellFormed (decode id text)
  noncharacters :
    Encoded (¬Noncharacter ·) (decode id text) ∨ qt.component query text = decode id text

namespace SeenItem

def takenText (keys : List (List UInt8)) (e : SeenItem) : Option (List UInt8) :=
  (e.whole.param keys).map (·.bytes)

def shownText (qt : Qt) (query : List UInt8) (keys : List (List UInt8)) (e : SeenItem) :
    Option (List UInt8) :=
  e.shown.bind fun item =>
    if qt.component query item.key ∈ keys then some (qt.component query (item.value.getD []))
    else none

def takenNumber (key : List UInt8) (e : SeenItem) : Option Int :=
  if e.whole.key = key then e.whole.value.map fun text => strtoll (urlDecodeComponent text)
  else none

def shownNumber (qt : Qt) (query : List UInt8) (keys : List (List UInt8)) (supported : Int → Bool)
    (e : SeenItem) : Option Int :=
  e.shown.bind fun item =>
    if qt.component query item.key ∈ keys then
      (qt.toInt (qt.component query (item.value.getD []))).filter supported
    else none

/-- A text that both readers take: its name is spelled without escapes, Qt decodes it, it has no `+`
and no NUL, and no fragment follows. -/
def PlainText (qt : Qt) (query : List UInt8) (keys : List (List UInt8)) (e : SeenItem) : Prop :=
  ∃ item key text, e = .both item ∧ QueryItem.ofText item = ⟨key, some text⟩ ∧ key ∈ keys ∧
    qt.Decodes query text ∧ 43 ∉ text ∧ 0 ∉ decode id text

def NumeralLeads (text : List UInt8) : Prop :=
  ∀ c ∈ ((latin1 text).dropWhile isSpaceChar).head?, c.isDigit = true ∨ c = '+' ∨ c = '-'

/-- A number that both readers take: its name is spelled without escapes, and the dock accepts
the value, with no space around it that C does not skip. -/
def PlainNumber (qt : Qt) (query key : List UInt8) (supported : Int → Bool) (e : SeenItem) : Prop :=
  ∃ text n, e.shown = some ⟨key, some text⟩ ∧ qt.toInt (qt.component query text) = some n ∧
    supported n = true ∧ NumeralLeads (decode id text)

def PlainKeys (keys : List (List UInt8)) : Prop :=
  ∀ key ∈ keys, percent ∉ key ∧ numberSign ∉ key ∧ ∀ b ∈ key, b < 0x80

theorem PlainKeys.of_all {keys : List (List UInt8)}
    (h : (keys.all fun key => key.all fun b => b ≠ percent && b ≠ numberSign && b < 0x80) = true) :
    PlainKeys keys := by
  intro key hkey
  have hall : ∀ b ∈ key, (b ≠ percent ∧ b ≠ numberSign) ∧ b < 0x80 := by
    simpa using List.all_eq_true.mp h key hkey
  exact ⟨fun hmem => (hall _ hmem).1.1 rfl, fun hmem => (hall _ hmem).1.2 rfl,
    fun b hb => (hall b hb).2⟩

end SeenItem

/-! What Qt reads. -/

theorem componentBytes_of_not_mem {text : List UInt8} (h : percent ∉ text) (query : List UInt8) :
    componentBytes query text = text := by
  unfold componentBytes
  rw [decode_of_not_mem h, ite_self]

theorem low_componentBytes (query text : List UInt8) :
    (low (decode id text)).length ≤ (low (componentBytes query text)).length ∧
      ((low (decode id text)).length = (low (componentBytes query text)).length →
        componentBytes query text = decode id text) := by
  unfold componentBytes
  split_ifs
  · exact ⟨Nat.le_refl _, fun _ => rfl⟩
  · exact ⟨(low_decode text).1, fun h => ((low_decode text).2 h).symm⟩

section Component
variable {qt : Qt} (hqt : qt.Documented)
include hqt

theorem component_of_plain {text : List UInt8} (hpercent : percent ∉ text)
    (hlow : ∀ b ∈ text, b < 0x80)
    (query : List UInt8) : qt.component query text = text := by
  have hbytes := componentBytes_of_not_mem hpercent query
  rw [hqt.component_eq, hbytes]
  rw [hbytes]
  exact Encoded.of_ascii (fun b hb => not_noncharacter_of_ascii hb) hlow

theorem component_eq_decode_iff {query text : List UInt8} :
    qt.component query text = decode id text ↔ qt.Decodes query text := by
  constructor
  · intro h
    have hlow := hqt.component_low query text
    rw [h] at hlow
    refine ⟨(low_componentBytes query text).2 (congrArg List.length hlow), ?_, .inr h⟩
    rw [← h]
    exact hqt.component_utf8 query text
  · rintro ⟨hbytes, -, hencoded | h⟩
    · rw [← hbytes] at hencoded ⊢
      exact hqt.component_eq query text hencoded
    · exact h

end Component

/-! A text that both take. -/

namespace SeenItem

theorem plusToSpace_differs : ∀ b, plusToSpace b ≠ id b → b ≠ percent ∧ hexValue b = none := by
  intro b hb
  have hplus : b = 43 := by
    by_contra hne
    exact hb (if_neg hne)
  rw [hplus]
  decide

theorem plus_alike_iff (text : List UInt8) :
    urlDecodeComponent text = decode id text ↔ 43 ∉ text := by
  have hplus : (∀ b ∈ text, plusToSpace b = id b) ↔ 43 ∉ text := by
    constructor
    · intro h hmem
      exact absurd (h 43 hmem) (by decide)
    · rintro h b hb
      rw [plusToSpace, if_neg]
      · rfl
      · rintro rfl
        exact h hb
  rw [← hplus]
  exact decode_eq_iff plusToSpace_differs text

theorem plusToSpace_low (b : UInt8) (hb : plusToSpace b ≠ id b) :
    plusToSpace b < 0x80 ∧ id b < 0x80 := by
  have hplus : b = 43 := by
    by_contra hne
    exact hb (if_neg hne)
  rw [hplus]
  decide

section Component
variable {qt : Qt} (hqt : qt.Documented) {query : List UInt8}
include hqt

theorem low_urlDecode_le (query text : List UInt8) :
    (low (urlDecodeComponent text)).length ≤ (low (qt.component query text)).length := by
  rw [hqt.component_low, urlDecodeComponent, (decode_eq_of_low plusToSpace_low text).1]
  exact (low_componentBytes query text).1

theorem text_alike_iff (text : List UInt8) :
    before 0 (urlDecodeComponent text) = qt.component query text ↔
      qt.Decodes query text ∧ 43 ∉ text ∧ 0 ∉ decode id text := by
  rw [← component_eq_decode_iff hqt]
  constructor
  · intro h
    have hle := low_urlDecode_le hqt query text
    have hnul : 0 ∉ urlDecodeComponent text := by
      intro hmem
      have hlt := low_before_lt (by decide) hmem
      rw [h] at hlt
      exact absurd hle (Nat.not_le.mpr hlt)
    rw [before_of_not_mem hnul] at h
    have hlow := hqt.component_low query text
    rw [← h] at hlow
    have hsame := (decode_eq_of_low plusToSpace_low text).1
    have hbytes : componentBytes query text = decode id text :=
      (low_componentBytes query text).2 (hsame.symm.trans (congrArg List.length hlow))
    rw [hbytes] at hlow
    have hplus : urlDecodeComponent text = decode id text :=
      (decode_eq_of_low plusToSpace_low text).2 hlow
    exact ⟨h.symm.trans hplus, (plus_alike_iff text).mp hplus, hplus ▸ hnul⟩
  · rintro ⟨hdecodes, hplus, hnul⟩
    rw [(plus_alike_iff text).mpr hplus, hdecodes]
    exact before_of_not_mem hnul

omit hqt in
theorem urlDecode_cut (text rest : List UInt8) :
    urlDecodeComponent (text ++ numberSign :: rest) =
      urlDecodeComponent text ++ numberSign :: urlDecodeComponent rest :=
  decode_append (by decide) (by decide) text rest

theorem cut_ne {text : List UInt8} (hsign : numberSign ∉ text) (rest : List UInt8) :
    before 0 (urlDecodeComponent (text ++ numberSign :: rest)) ≠ qt.component query text := by
  intro h
  have hle := low_urlDecode_le hqt query text
  rw [urlDecode_cut] at h
  by_cases hnul : 0 ∈ urlDecodeComponent text
  · have hlt := low_before_lt (by decide) hnul
    rw [(after_append_of_mem hnul _).1] at h
    rw [h] at hlt
    exact absurd hle (Nat.not_le.mpr hlt)
  · rw [before_append_of_not_mem hnul] at h
    have hcons : ∀ bytes, before 0 (numberSign :: bytes) = numberSign :: before 0 bytes :=
      fun bytes => List.takeWhile_cons_of_pos (by decide)
    rw [hcons] at h
    have hlow := hqt.component_low query text
    rw [← h] at hlow
    by_cases hescaped : wellEscaped query = true
    · -- as many bytes below 0x80 as Qt has, and the number sign
      rw [componentBytes, if_pos hescaped, low, List.filter_append,
        List.filter_cons_of_pos (by decide)] at hlow
      have hlength := congrArg List.length hlow
      have hsame := (decode_eq_of_low plusToSpace_low text).1
      simp only [low, urlDecodeComponent, List.length_append, List.length_cons] at hlength hsame
      omega
    · rw [componentBytes, if_neg hescaped] at hlow
      have hmem : numberSign ∈ low text := by
        rw [← hlow]
        exact List.mem_filter.mpr ⟨List.mem_append_right _ List.mem_cons_self, by decide⟩
      exact hsign (List.mem_filter.mp hmem).1

end Component

theorem whole_cut_of_mem {item : List UInt8} (h : equalsSign ∈ item) (rest : List UInt8) :
    (cut item rest).whole =
      ⟨(QueryItem.ofText item).key, some (after equalsSign item ++ numberSign :: rest)⟩ := by
  obtain ⟨hbefore, hafter⟩ := after_append_of_mem h (numberSign :: rest)
  show QueryItem.ofText _ = _
  unfold QueryItem.ofText
  rw [hbefore, hafter, if_pos (List.mem_append_left _ h)]

theorem whole_cut_key {item : List UInt8} (h : equalsSign ∉ item) (rest : List UInt8) :
    numberSign ∈ (cut item rest).whole.key := by
  show numberSign ∈ before equalsSign _
  rw [before_append_of_not_mem h]
  apply List.mem_append_right
  rw [before, List.takeWhile_cons_of_pos (by decide)]
  exact List.mem_cons_self

theorem takenText_eq (keys : List (List UInt8)) (e : SeenItem) :
    e.takenText keys =
      if e.whole.key ∈ keys then
        e.whole.value.map fun text => before 0 (urlDecodeComponent text)
      else none := by
  unfold takenText QueryItem.param
  split_ifs
  · cases e.whole.value <;> rfl
  · rfl

section Text
variable {qt : Qt} (hqt : qt.Documented) {query : List UInt8} {keys : List (List UInt8)}

theorem plainText_both {item : List UInt8} :
    (both item).PlainText qt query keys ↔ ∃ text, (QueryItem.ofText item).value = some text ∧
      (QueryItem.ofText item).key ∈ keys ∧ qt.Decodes query text ∧ 43 ∉ text ∧
        0 ∉ decode id text := by
  constructor
  · rintro ⟨item', key, text, heq, hof, hrest⟩
    obtain rfl := SeenItem.both.inj heq
    rw [hof]
    exact ⟨text, rfl, hrest⟩
  · rintro ⟨text, hvalue, hrest⟩
    exact ⟨item, _, text, rfl, by rw [← hvalue], hrest⟩

include hqt

theorem component_key (hkeys : PlainKeys keys) {key : List UInt8} (hkey : key ∈ keys) :
    qt.component query key = key :=
  component_of_plain hqt (hkeys key hkey).1 (hkeys key hkey).2.2 query

theorem text_both_iff (hkeys : PlainKeys keys) {item : List UInt8}
    (hkey : (QueryItem.ofText item).key ∈ keys) :
    (both item).takenText keys = (both item).shownText qt query keys ↔
      (both item).PlainText qt query keys := by
  have hread : qt.component query (QueryItem.ofText item).key ∈ keys := by
    rwa [component_key hqt hkeys hkey]
  have hshown : (both item).shownText qt query keys =
      some (qt.component query ((QueryItem.ofText item).value.getD [])) := if_pos hread
  have hwhole : (both item).whole = .ofText item := rfl
  rw [plainText_both, takenText_eq, hwhole, if_pos hkey, hshown]
  cases (QueryItem.ofText item).value with
  | none => simp
  | some text => simp [hkey, text_alike_iff hqt]

theorem text_cut_ne (hkeys : PlainKeys keys) {item rest : List UInt8} (hsign : numberSign ∉ item)
    (hkey : (cut item rest).whole.key ∈ keys) :
    (cut item rest).takenText keys ≠ (cut item rest).shownText qt query keys := by
  have hequals : equalsSign ∈ item := by
    by_contra hnone
    exact (hkeys _ hkey).2.1 (whole_cut_key hnone rest)
  rw [takenText_eq, if_pos hkey]
  rw [whole_cut_of_mem hequals] at hkey ⊢
  have hread : qt.component query (QueryItem.ofText item).key ∈ keys := by
    rwa [component_key hqt hkeys hkey]
  have hshown : (cut item rest).shownText qt query keys =
      some (qt.component query (after equalsSign item)) := by
    unfold shownText shown QueryItem.ofText at *
    simp [hread, hequals]
  rw [hshown]
  intro h
  refine cut_ne hqt (fun hmem => hsign ?_) _ (Option.some.inj h)
  rw [eq_before_after hequals]
  exact List.mem_append_right _ (List.mem_cons_of_mem _ hmem)

theorem takenText_eq_shownText_iff (hkeys : PlainKeys keys) {e : SeenItem}
    (hcut : ∀ item rest, e = .cut item rest → numberSign ∉ item)
    (htaken : (e.takenText keys).isSome || (e.shownText qt query keys).isSome) :
    e.takenText keys = e.shownText qt query keys ↔ e.PlainText qt query keys := by
  -- where the output takes nothing, the dock takes something
  have hother (hnone : e.takenText keys = none) : e.takenText keys ≠ e.shownText qt query keys := by
    intro h
    rw [← h, hnone] at htaken
    cases htaken
  have hunknown (hkey : e.whole.key ∉ keys) : e.takenText keys ≠ e.shownText qt query keys :=
    hother (by rw [takenText_eq, if_neg hkey])
  cases e with
  | both item =>
    by_cases hkey : (QueryItem.ofText item).key ∈ keys
    · exact text_both_iff hqt hkeys hkey
    · refine iff_of_false (hunknown hkey) ?_
      rw [plainText_both]
      rintro ⟨text, -, hmem, -⟩
      exact hkey hmem
  | cut item rest =>
    refine iff_of_false ?_ (by rintro ⟨item', key, text, heq, -⟩; cases heq)
    by_cases hkey : (cut item rest).whole.key ∈ keys
    · exact text_cut_ne hqt hkeys (hcut item rest rfl) hkey
    · exact hunknown hkey
  | fragment item =>
    refine iff_of_false ?_ (by rintro ⟨item', key, text, heq, -⟩; cases heq)
    intro h
    rw [h] at htaken
    cases htaken

end Text

end SeenItem

/-! A number that both take. -/

theorem SpaceByte.plain {c : Char} (h : SpaceByte c) :
    (c.isDigit = false ∧ c ≠ '+' ∧ c ≠ '-') ∧ c ≠ '%' ∧ c.toNat ≠ 0xef := by
  have hcode : c.toNat = 32 ∨ 9 ≤ c.toNat ∧ c.toNat ≤ 13 ∨ 0x80 ≤ c.toNat ∧ c.toNat ≠ 0xef := by
    rcases h with hspace | hhigh
    · simp only [isSpaceChar, Bool.or_eq_true, Bool.and_eq_true, decide_eq_true_eq] at hspace
      rcases hspace with rfl | ⟨hlow, hle⟩
      · exact .inl rfl
      · exact .inr (.inl ⟨hlow, hle⟩)
    · exact .inr (.inr hhigh)
  have hne : ∀ d : Char, c.toNat ≠ d.toNat → c ≠ d := fun d hd heq => hd (congrArg Char.toNat heq)
  refine ⟨⟨?_, hne '+' ?_, hne '-' ?_⟩, hne '%' ?_, ?_⟩
  · rw [← Bool.not_eq_true, Char.isDigit_iff_toNat]
    change ¬(48 ≤ c.toNat ∧ c.toNat ≤ 57)
    omega
  · change c.toNat ≠ 43
    omega
  · change c.toNat ≠ 45
    omega
  · change c.toNat ≠ 37
    omega
  · omega

theorem Numeral.lead_plain {text : List Char} {n : Int} (m : Numeral text n) :
    ∀ c ∈ m.lead, c.isDigit = false ∧ c ≠ '+' ∧ c ≠ '-' :=
  fun c hc => (m.lead_spaces c hc).plain.1

theorem Numeral.rest_plain {text : List Char} {n : Int} (m : Numeral text n) :
    ∀ c ∈ m.rest.head?, c.isDigit = false :=
  fun c hc => (m.rest_spaces c (List.mem_of_mem_head? hc)).plain.1.1

theorem Numeral.mem_plain {text : List UInt8} {n : Int} (m : Numeral (latin1 text) n) :
    ∀ b ∈ text, b ≠ percent ∧ b ≠ 0xef := by
  intro b hb
  have hmem : Char.ofUInt8 b ∈ latin1 text := List.mem_map_of_mem hb
  have hplain : Char.ofUInt8 b ≠ '%' ∧ (Char.ofUInt8 b).toNat ≠ 0xef := by
    rw [m.text_eq, List.mem_append, List.mem_append, List.mem_append] at hmem
    rcases hmem with hlead | hsign | hdigits | hrest
    · exact (m.lead_spaces _ hlead).plain.2
    · have hsigns : ∀ sign ∈ signs, ∀ c ∈ sign, c ≠ '%' ∧ c.toNat ≠ 0xef := by simp [signs]
      exact hsigns _ m.sign_mem _ hsign
    · have hdigit := m.digits_decimal _ hdigits
      rw [Char.isDigit_iff_toNat] at hdigit
      have hrange : 48 ≤ (Char.ofUInt8 b).toNat ∧ (Char.ofUInt8 b).toNat ≤ 57 := hdigit
      refine ⟨fun heq => ?_, by omega⟩
      rw [heq] at hrange
      exact absurd hrange (by decide)
    · exact (m.rest_spaces _ hrest).plain.2
  constructor
  · rintro rfl
    exact hplain.1 rfl
  · rintro rfl
    exact hplain.2 rfl

theorem component_of_toInt {qt : Qt} (hqt : qt.Documented) {query text : List UInt8} {n : Int}
    (h : qt.toInt (qt.component query text) = some n) :
    qt.component query text = decode id text := by
  obtain ⟨m⟩ := hqt.toInt_numeral _ _ h
  have hplain := m.mem_plain
  have hbytes : qt.component query text = componentBytes query text := by
    by_contra hne
    have hmem := (hqt.component_replaced query text hne).subset (List.mem_cons_self (a := 0xef))
    exact (hplain _ hmem).2 rfl
  rw [hbytes] at hplain ⊢
  unfold componentBytes at *
  split_ifs at * with hescaped
  · rfl
  · exact (decode_of_not_mem fun hmem => (hplain _ hmem).1 rfl).symm

theorem strtoll_numeral {bytes : List UInt8} {spaces sign digits rest : List Char}
    (h : latin1 bytes = spaces ++ (sign ++ (digits ++ rest)))
    (hspaces : ∀ c ∈ spaces, isSpaceChar c = true) (hsign : sign = [] ∨ sign = ['+'])
    (hne : digits ≠ []) (hdigits : ∀ c ∈ digits, c.isDigit = true)
    (hrest : ∀ c ∈ rest.head?, c.isDigit = false) :
    strtoll bytes = min (decimalValue digits : Int) (2 ^ 63 - 1) := by
  obtain ⟨d, ds, rfl⟩ := List.exists_cons_of_ne_nil hne
  have hd := hdigits d List.mem_cons_self
  have hplain : d ≠ '-' ∧ d ≠ '+' := by
    constructor <;>
    · rintro rfl
      exact absurd hd (by decide)
  have htake : (d :: ds ++ rest).takeWhile (·.isDigit) = d :: ds := by
    rw [List.takeWhile_append_of_pos hdigits]
    cases rest with
    | nil => simp
    | cons c rest => rw [List.takeWhile_cons_of_neg (by simp [hrest c rfl]), List.append_nil]
  have hdrop : (latin1 bytes).dropWhile isSpaceChar = sign ++ (d :: ds ++ rest) := by
    rw [h, List.dropWhile_append_of_pos hspaces]
    rcases hsign with rfl | rfl
    · exact List.dropWhile_cons_of_neg (by simp [isSpaceChar_digit hd])
    · exact List.dropWhile_cons_of_neg (by decide)
  unfold strtoll
  simp only [show bytes.map Char.ofUInt8 = latin1 bytes from rfl, hdrop]
  rcases hsign with rfl | rfl
  · simp only [List.nil_append, List.cons_append, List.head?_cons, Option.some.injEq, hplain.1,
      hplain.2, or_self, if_false]
    rw [← List.cons_append, htake]
    rfl
  · simp only [List.singleton_append, List.head?_cons, Option.some.injEq, List.tail_cons, or_true,
      if_true, htake]
    rfl

theorem strtoll_other {bytes : List UInt8} {spaces rest : List Char} {c : Char}
    (h : latin1 bytes = spaces ++ c :: rest) (hspaces : ∀ c ∈ spaces, isSpaceChar c = true)
    (hspace : isSpaceChar c = false) (hdigit : c.isDigit = false) (hsign : c ≠ '+' ∧ c ≠ '-') :
    strtoll bytes = 0 := by
  have hdrop : (latin1 bytes).dropWhile isSpaceChar = c :: rest := by
    rw [h, List.dropWhile_append_of_pos hspaces]
    exact List.dropWhile_cons_of_neg (by simp [hspace])
  unfold strtoll
  simp only [show bytes.map Char.ofUInt8 = latin1 bytes from rfl, hdrop]
  simp [hsign.1, hsign.2, hdigit]

/-- The output has a space where the dock has a `+`. -/
def Spaced (c d : Char) : Prop := c = d ∨ c = ' ' ∧ d = '+'

theorem spaced_decode (text : List UInt8) :
    List.Forall₂ Spaced (latin1 (urlDecodeComponent text)) (latin1 (decode id text)) := by
  unfold urlDecodeComponent
  induction text using decode_induction with
  | nil => exact .nil
  | literal a rest h ih =>
    rw [decode_literal h, decode_literal h]
    refine .cons ?_ ih
    unfold plusToSpace
    split_ifs with ha
    · right
      rw [ha]
      decide
    · exact .inl rfl
  | escape hi lo h l rest hhi hlo ih =>
    rw [decode_escape hhi hlo, decode_escape hhi hlo]
    exact .cons (.inl rfl) ih

theorem spaced_eq {cs ds : List Char} (h : List.Forall₂ Spaced cs ds) (hplus : '+' ∉ ds) :
    cs = ds := by
  induction h with
  | nil => rfl
  | cons hspaced _ ih =>
    rw [List.mem_cons, not_or] at hplus
    rcases hspaced with rfl | ⟨-, rfl⟩
    · rw [ih hplus.2]
    · exact absurd rfl hplus.1

theorem spaced_append {cs ds es : List Char} (h : List.Forall₂ Spaced cs (ds ++ es)) :
    ∃ cs' cs'', cs = cs' ++ cs'' ∧ List.Forall₂ Spaced cs' ds ∧ List.Forall₂ Spaced cs'' es :=
  ⟨_, _, (List.take_append_drop ds.length cs).symm, List.forall₂_take_append _ _ _ h,
    List.forall₂_drop_append _ _ _ h⟩

theorem Numeral.lead_cases {text : List Char} {n : Int} (m : Numeral text n) :
    (∀ c ∈ m.lead, isSpaceChar c = true) ∨
      ∃ spaces c more, m.lead = spaces ++ c :: more ∧ (∀ b ∈ spaces, isSpaceChar b = true) ∧
        isSpaceChar c = false ∧ c.isDigit = false ∧ c ≠ '+' ∧ c ≠ '-' := by
  by_cases hspaces : ∀ c ∈ m.lead, isSpaceChar c = true
  · exact .inl hspaces
  · obtain ⟨c, hfirst⟩ : ∃ c, m.lead.find? (fun c => !isSpaceChar c) = some c := by
      rw [← Option.isSome_iff_exists, List.find?_isSome]
      simpa using hspaces
    obtain ⟨hc, spaces, more, hsplit, hbefore⟩ := List.find?_eq_some_iff_append.mp hfirst
    obtain ⟨hdigit, hsigns⟩ := m.lead_plain c (by rw [hsplit]; simp)
    exact .inr ⟨spaces, c, more, hsplit, by simpa using hbefore, by simpa using hc, hdigit, hsigns⟩

theorem Numeral.sign_of_pos {text : List Char} {n : Int} (m : Numeral text n) (hpos : 0 < n) :
    m.sign = [] ∨ m.sign = ['+'] := by
  have hmem := m.sign_mem
  have hvalue := m.value
  simp only [signs, List.mem_cons, List.not_mem_nil, or_false] at hmem
  rcases hmem with h | h | h
  · exact .inl h
  · exact .inr h
  · rw [if_pos h] at hvalue
    omega

theorem numeralLeads_iff {text : List UInt8} {n : Int} (m : Numeral (latin1 text) n)
    (hpos : 0 < n) : SeenItem.NumeralLeads text ↔ ∀ c ∈ m.lead, isSpaceChar c = true := by
  have htext : (latin1 text).dropWhile isSpaceChar =
      (m.lead ++ (m.sign ++ (m.digits ++ m.rest))).dropWhile isSpaceChar :=
    congrArg _ m.text_eq
  unfold SeenItem.NumeralLeads
  rw [htext]
  rcases m.lead_cases with hspaces | ⟨spaces, c, more, hsplit, hbefore, hc, hdigit, hsigns⟩
  · refine iff_of_true ?_ hspaces
    obtain ⟨d, ds, hds⟩ := List.exists_cons_of_ne_nil m.digits_ne_nil
    have hd : d.isDigit = true := m.digits_decimal d (hds ▸ List.mem_cons_self)
    rw [List.dropWhile_append_of_pos hspaces, hds]
    rcases m.sign_of_pos hpos with hm | hm
    · rw [hm, List.nil_append, List.cons_append,
        List.dropWhile_cons_of_neg (by simp [isSpaceChar_digit hd])]
      rintro c ⟨⟩
      exact .inl hd
    · rw [hm, List.singleton_append, List.dropWhile_cons_of_neg (by decide)]
      rintro c ⟨⟩
      exact .inr (.inl rfl)
  · refine iff_of_false ?_ ?_
    · intro hleads
      rw [hsplit, List.append_assoc, List.dropWhile_append_of_pos hbefore, List.cons_append,
        List.dropWhile_cons_of_neg (by simp [hc])] at hleads
      rcases hleads c rfl with h | h | h
      · rw [hdigit] at h
        cases h
      · exact hsigns.1 h
      · exact hsigns.2 h
    · intro hspaces
      have hspace := hspaces c (by rw [hsplit]; simp)
      rw [hc] at hspace
      cases hspace

theorem spaced_numeral {text extra : List UInt8} {n : Int} (m : Numeral (latin1 (decode id text)) n)
    (hextra : ∀ c ∈ (latin1 extra).head?, c.isDigit = false) :
    ∃ sign rest, List.Forall₂ Spaced sign m.sign ∧ (∀ c ∈ rest.head?, c.isDigit = false) ∧
      latin1 (urlDecodeComponent text ++ extra) =
        m.lead ++ (sign ++ (m.digits ++ rest)) := by
  have hspaced := spaced_decode text
  rw [m.text_eq] at hspaced
  obtain ⟨lead, cs, hcs, hlead, hspaced⟩ := spaced_append hspaced
  obtain ⟨sign, cs', rfl, hsign, hspaced⟩ := spaced_append hspaced
  obtain ⟨digits, rest, rfl, hdigits, hrest⟩ := spaced_append hspaced
  have hleadEq : lead = m.lead := spaced_eq hlead fun hmem => (m.lead_plain _ hmem).2.1 rfl
  have hdigitsEq : digits = m.digits := by
    apply spaced_eq hdigits
    intro hmem
    exact absurd (m.digits_decimal _ hmem) (by decide)
  subst hleadEq hdigitsEq
  have htail : ∀ c ∈ (rest ++ latin1 extra).head?, c.isDigit = false := by
    have hplain := m.rest_plain
    generalize m.rest = after at hrest hplain
    cases hrest with
    | nil => exact hextra
    | cons hc _ =>
      rintro c ⟨⟩
      rcases hc with rfl | ⟨rfl, -⟩
      · exact hplain _ rfl
      · decide
  refine ⟨sign, rest ++ latin1 extra, hsign, htail, ?_⟩
  have happend : latin1 (urlDecodeComponent text ++ extra) =
      latin1 (urlDecodeComponent text) ++ latin1 extra := List.map_append
  rw [happend, hcs]
  simp only [List.append_assoc]

theorem strtoll_of_spaces {text extra : List UInt8} {n : Int}
    (m : Numeral (latin1 (decode id text)) n) (hpos : 0 < n) (hfits : n < 2 ^ 63)
    (hextra : ∀ c ∈ (latin1 extra).head?, c.isDigit = false)
    (hspaces : ∀ c ∈ m.lead, isSpaceChar c = true) :
    strtoll (urlDecodeComponent text ++ extra) = n := by
  obtain ⟨sign, rest, hsign, hrest, hwhole⟩ := spaced_numeral m hextra
  have hsignMem := m.sign_of_pos hpos
  have hvalue : n = decimalValue m.digits := by
    have hvalue := m.value
    rwa [if_neg (by rcases hsignMem with h | h <;> rw [h] <;> decide)] at hvalue
  have hmin : min (decimalValue m.digits : Int) (2 ^ 63 - 1) = n := by omega
  rw [← hmin]
  rcases hsignMem with hm | hm
  · rw [hm, List.forall₂_nil_right_iff] at hsign
    exact strtoll_numeral hwhole hspaces (.inl hsign) m.digits_ne_nil m.digits_decimal hrest
  · rw [hm, List.forall₂_cons_right_iff] at hsign
    obtain ⟨c, tail, hc, hnil, rfl⟩ := hsign
    rw [List.forall₂_nil_right_iff] at hnil
    subst hnil
    rcases hc with rfl | ⟨rfl, -⟩
    · exact strtoll_numeral hwhole hspaces (.inr rfl) m.digits_ne_nil m.digits_decimal hrest
    · -- a sign that became a space is skipped with the others
      have hshift : latin1 (urlDecodeComponent text ++ extra) =
          (m.lead ++ [' ']) ++ ([] ++ (m.digits ++ rest)) := by
        rw [hwhole]
        simp
      refine strtoll_numeral hshift ?_ (.inl rfl) m.digits_ne_nil m.digits_decimal hrest
      intro c hc
      rcases List.mem_append.mp hc with h | h
      · exact hspaces c h
      · rw [List.mem_singleton.mp h]
        decide

theorem strtoll_alike_iff {text extra : List UInt8} {n : Int}
    (hnumeral : Nonempty (Numeral (latin1 (decode id text)) n)) (hpos : 0 < n) (hfits : n < 2 ^ 63)
    (hextra : ∀ c ∈ (latin1 extra).head?, c.isDigit = false) :
    strtoll (urlDecodeComponent text ++ extra) = n ↔
      SeenItem.NumeralLeads (decode id text) := by
  obtain ⟨m⟩ := hnumeral
  rw [numeralLeads_iff m hpos]
  constructor
  · intro h
    rcases m.lead_cases with hspaces | ⟨spaces, c, more, hsplit, hbefore, hc, hdigit, hsigns⟩
    · exact hspaces
    · obtain ⟨sign, rest, -, -, hwhole⟩ := spaced_numeral m hextra
      rw [hsplit, List.append_assoc] at hwhole
      rw [strtoll_other hwhole hbefore hc hdigit hsigns] at h
      exact absurd h (Int.ne_of_lt hpos)
  · exact strtoll_of_spaces m hpos hfits hextra

namespace SeenItem
variable {qt : Qt} (hqt : qt.Documented) {query key : List UInt8} {keys : List (List UInt8)}
  {supported : Int → Bool}

include hqt

theorem toInt_nil : qt.toInt [] = none := by
  cases h : qt.toInt [] with
  | none => rfl
  | some n =>
    obtain ⟨m⟩ := hqt.toInt_numeral _ _ h
    have hnil := m.text_eq
    have hdigits := m.digits_ne_nil
    simp_all [latin1]

theorem number_alike_iff (hkeys : PlainKeys keys) (hkey : key ∈ keys)
    (hsupported : ∀ n, supported n = true → 0 < n ∧ n < 2 ^ 63) {e : SeenItem}
    {itemKey text extra : List UInt8} (hshown : e.shown = some ⟨itemKey, some text⟩)
    (hwhole : e.whole = ⟨itemKey, some (text ++ extra)⟩)
    (hextra : extra = [] ∨ ∃ rest, extra = numberSign :: rest)
    (htaken : (e.takenNumber key).isSome || (e.shownNumber qt query keys supported).isSome) :
    e.takenNumber key = e.shownNumber qt query keys supported ↔
      e.PlainNumber qt query key supported := by
  have htext : ∃ extra', urlDecodeComponent (text ++ extra) = urlDecodeComponent text ++ extra' ∧
      ∀ c ∈ (latin1 extra').head?, c.isDigit = false := by
    rcases hextra with rfl | ⟨rest, rfl⟩
    · refine ⟨[], ?_, ?_⟩
      · rw [List.append_nil, List.append_nil]
      · rintro c ⟨⟩
    · refine ⟨_, decode_append (by decide) (by decide) text rest, ?_⟩
      rintro c ⟨⟩
      decide
  obtain ⟨extra', hdecode, hhead⟩ := htext
  unfold takenNumber shownNumber PlainNumber at *
  rw [hshown, hwhole] at htaken ⊢
  by_cases hitem : itemKey = key
  · subst hitem
    have hread : qt.component query itemKey ∈ keys := by
      rwa [component_key hqt hkeys hkey]
    simp only [if_true, Option.map_some, Option.bind_some, if_pos hread, Option.getD_some, hdecode]
    cases hfilter : (qt.toInt (qt.component query text)).filter supported with
    | none =>
      refine iff_of_false (by simp) ?_
      rintro ⟨text', n, heq, hint, hn, -⟩
      obtain rfl : text = text' := by simpa using heq
      rw [hint, Option.filter_some_pos hn] at hfilter
      cases hfilter
    | some n =>
      obtain ⟨hint, hn⟩ := Option.filter_eq_some_iff.mp hfilter
      have hnumeral := hqt.toInt_numeral _ _ hint
      rw [component_of_toInt hqt hint] at hnumeral
      have halike := strtoll_alike_iff hnumeral (hsupported n hn).1 (hsupported n hn).2 hhead
      rw [Option.some.injEq, halike]
      constructor
      · intro hleads
        exact ⟨text, n, rfl, hint, hn, hleads⟩
      · rintro ⟨text', n', heq, -, -, hleads⟩
        obtain rfl : text = text' := by simpa using heq
        exact hleads
  · rw [if_neg hitem] at htaken ⊢
    constructor
    · intro h
      rw [← h] at htaken
      cases htaken
    · rintro ⟨text', n, heq, -⟩
      exact absurd (congrArg QueryItem.key (Option.some.inj heq)) hitem

theorem takenNumber_eq_shownNumber_iff (hkeys : PlainKeys keys) (hkey : key ∈ keys)
    (hsupported : ∀ n, supported n = true → 0 < n ∧ n < 2 ^ 63) {e : SeenItem}
    (htaken : (e.takenNumber key).isSome || (e.shownNumber qt query keys supported).isSome) :
    e.takenNumber key = e.shownNumber qt query keys supported ↔
      e.PlainNumber qt query key supported := by
  have hvalue : ∀ item, equalsSign ∉ item → (QueryItem.ofText item).value = none :=
    fun item h => if_neg h
  have hof : ∀ item, equalsSign ∈ item →
      QueryItem.ofText item = ⟨before equalsSign item, some (after equalsSign item)⟩ := by
    intro item h
    rw [QueryItem.ofText, if_pos h]
  -- an item without a value is no number
  have hnone : ∀ e : SeenItem, ∀ item, e.shown = some (QueryItem.ofText item) →
      equalsSign ∉ item → e.shownNumber qt query keys supported = none := by
    intro e item hshown h
    unfold shownNumber
    rw [hshown, Option.bind_some, hvalue item h, Option.getD_none]
    show (if _ then (qt.toInt (qt.component query [])).filter _ else none) = none
    rw [component_of_plain hqt List.not_mem_nil (by simp), toInt_nil hqt]
    split_ifs <;> rfl
  cases e with
  | both item =>
    by_cases h : equalsSign ∈ item
    · exact number_alike_iff hqt hkeys hkey hsupported (congrArg some (hof item h))
        ((hof item h).trans (by rw [List.append_nil])) (.inl rfl) htaken
    · rw [hnone _ item rfl h] at htaken
      unfold takenNumber whole at htaken
      rw [hvalue item h] at htaken
      simp at htaken
  | cut item rest =>
    by_cases h : equalsSign ∈ item
    · exact number_alike_iff hqt hkeys hkey hsupported (congrArg some (hof item h))
        (whole_cut_of_mem h rest) (.inr ⟨rest, rfl⟩) htaken
    · have hother : (cut item rest).whole.key ≠ key := by
        intro heq
        exact (hkeys key hkey).2.1 (heq ▸ whole_cut_key h rest)
      rw [hnone _ item rfl h, takenNumber, if_neg hother] at htaken
      cases htaken
  | fragment item =>
    constructor
    · intro h
      rw [h] at htaken
      cases htaken
    · rintro ⟨text, n, hshown, -⟩
      cases hshown

end SeenItem

end Srtla
