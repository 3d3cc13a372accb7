import SrtlaOutput.Lib.Json

/-! A writer without white space, for any escaping of strings. What it writes is read back where
the escaping is read back, and is no JSON text elsewhere. -/

namespace Json

def intText (n : Int) : List Char :=
  if n < 0 then '-' :: Nat.toDigits 10 n.natAbs else Nat.toDigits 10 n.natAbs

def quote (escape : List Char → List Char) (s : List Char) : List Char :=
  '"' :: escape s ++ ['"']

mutual

def write (escape : List Char → List Char) : Value → List Char
  | .null => ['n', 'u', 'l', 'l']
  | .bool true => ['t', 'r', 'u', 'e']
  | .bool false => ['f', 'a', 'l', 's', 'e']
  | .integer n => intText n
  | .decimal text => text
  | .string s => quote escape s
  | .array items => '[' :: writeItems escape items ++ [']']
  | .object ms => '{' :: writeMembers escape ms ++ ['}']

def writeItems (escape : List Char → List Char) : List Value → List Char
  | [] => []
  | [v] => write escape v
  | v :: vs => write escape v ++ ',' :: writeItems escape vs

def writeMembers (escape : List Char → List Char) : List (List Char × Value) → List Char
  | [] => []
  | [(key, v)] => quote escape key ++ ':' :: write escape v
  | (key, v) :: ms => quote escape key ++ ':' :: write escape v ++ ',' :: writeMembers escape ms

end

section Write

variable (escape : List Char → List Char)

theorem write_bool (b : Bool) :
    write escape (.bool b) = (if b then "true" else "false").toList := by
  cases b <;> rfl

theorem write_integer (n : Int) : write escape (.integer n) = intText n := by rw [write]

theorem write_string (s : List Char) :
    write escape (.string s) = '"' :: (escape s ++ ['"']) := by
  rw [write, quote, List.cons_append]

theorem write_array (vs : List Value) :
    write escape (.array vs) = '[' :: (writeItems escape vs ++ [']']) := by
  rw [write, List.cons_append]

theorem write_object (ms : List (List Char × Value)) :
    write escape (.object ms) = '{' :: (writeMembers escape ms ++ ['}']) := by
  rw [write, List.cons_append]

theorem writeItems_cons (v w : Value) (ws : List Value) :
    writeItems escape (v :: w :: ws) = write escape v ++ ',' :: writeItems escape (w :: ws) := by
  rw [writeItems]
  simp

theorem writeMembers_singleton (key : List Char) (v : Value) :
    writeMembers escape [(key, v)] = quote escape key ++ ':' :: write escape v := by
  rw [writeMembers]

theorem writeMembers_cons (key : List Char) (v : Value) (m : List Char × Value)
    (ms : List (List Char × Value)) :
    writeMembers escape ((key, v) :: m :: ms) =
      quote escape key ++ ':' :: (write escape v ++ ',' :: writeMembers escape (m :: ms)) := by
  rw [writeMembers, List.append_assoc, List.cons_append]
  simp

end Write

mutual

def Value.strings (good : List Char → Bool) : Value → Bool
  | .string s => good s
  | .array items => itemStrings good items
  | .object ms => memberStrings good ms
  | _ => true

def itemStrings (good : List Char → Bool) : List Value → Bool
  | [] => true
  | v :: vs => v.strings good && itemStrings good vs

def memberStrings (good : List Char → Bool) : List (List Char × Value) → Bool
  | [] => true
  | (key, v) :: ms => good key && v.strings good && memberStrings good ms

end

mutual

def Value.whole : Value → Bool
  | .decimal _ => false
  | .array items => itemsWhole items
  | .object ms => membersWhole ms
  | _ => true

def itemsWhole : List Value → Bool
  | [] => true
  | v :: vs => v.whole && itemsWhole vs

def membersWhole : List (List Char × Value) → Bool
  | [] => true
  | (_, v) :: ms => v.whole && membersWhole ms

end

/-- The strings of `good` are read back, and no others. -/
def Reads (escape : List Char → List Char) (good : List Char → Bool) : Prop :=
  ∀ s rest, string (escape s ++ '"' :: rest) = if good s then some (s, rest) else none

/-- What stands after a value ends it. -/
def Ends (rest : List Char) : Prop := ∀ c ∈ rest.head?, c = ',' ∨ c = ']' ∨ c = '}'

theorem ends_nil : Ends [] := by simp [Ends]

theorem ends_cons {c : Char} (h : c = ',' ∨ c = ']' ∨ c = '}') (rest : List Char) :
    Ends (c :: rest) := by simpa [Ends] using h

/-! Numbers. -/

theorem toDigits_head {n : Nat} (hn : 0 < n) :
    ∃ d ds, Nat.toDigits 10 n = d :: ds ∧ d ≠ '0' := by
  induction n using Nat.strongRecOn with
  | ind n ih =>
    rcases Nat.lt_or_ge n 10 with hlt | hge
    · have hsmall : ∀ m < 10, 0 < m → m.digitChar ≠ '0' := by decide
      exact ⟨n.digitChar, [], Nat.toDigits_of_lt_base hlt, hsmall n hlt hn⟩
    · obtain ⟨d, ds, hds, hd⟩ := ih (n / 10) (by omega) (by omega)
      refine ⟨d, ds ++ [(n % 10).digitChar], ?_, hd⟩
      rw [Nat.toDigits_of_base_le (by decide) hge, hds, List.cons_append]

theorem toDigits_isDigit (n : Nat) : ∀ c ∈ Nat.toDigits 10 n, c.isDigit = true :=
  fun _ hc => Nat.isDigit_of_mem_toDigits (by decide) (by decide) hc

theorem Ends.not_digit {rest : List Char} (h : Ends rest) : ∀ c ∈ rest.head?, c.isDigit = false := by
  intro c hc
  rcases h c hc with rfl | rfl | rfl <;> decide

theorem digits_append {ds rest : List Char} (hds : ∀ c ∈ ds, c.isDigit = true) (h : Ends rest) :
    digits (ds ++ rest) = (ds, rest) := by
  induction ds with
  | nil =>
    cases rest with
    | nil => rfl
    | cons c rest =>
      have hc := h.not_digit c rfl
      simp [digits, hc]
  | cons d ds ih =>
    have hd := hds d (List.mem_cons_self ..)
    have hrest := ih fun c hc => hds c (List.mem_cons_of_mem d hc)
    simp only [digits, Prod.mk.injEq] at hrest
    simp [digits, hd, hrest]

theorem fraction_ends {rest : List Char} (h : Ends rest) : fraction rest = some ([], rest) := by
  cases rest with
  | nil => rfl
  | cons c rest => rcases h c rfl with rfl | rfl | rfl <;> simp [fraction, exponent]

theorem magnitude_toDigits (negative : Bool) {n : Nat} (hn : negative = true → 0 < n)
    {rest : List Char} (h : Ends rest) :
    magnitude negative (Nat.toDigits 10 n ++ rest) =
      some (.integer (if negative then -(n : Int) else n), rest) := by
  rcases Nat.eq_zero_or_pos n with rfl | hpos
  · have hsign : negative = false := by
      cases negative with
      | false => rfl
      | true => cases hn rfl
    simp [magnitude, fraction_ends h, hsign, Nat.ofDigitChars_cons]
  · obtain ⟨d, ds, hds, hd⟩ := toDigits_head hpos
    have hdigits := digits_append (toDigits_isDigit n) h
    have hvalue := Nat.ofDigitChars_ten_toDigits (n := n)
    rw [hds] at hdigits hvalue ⊢
    rw [List.cons_append] at hdigits ⊢
    simp [magnitude, hd, hdigits, fraction_ends h, hvalue]

theorem number_intText (n : Int) {rest : List Char} (h : Ends rest) :
    number (intText n ++ rest) = some (.integer n, rest) := by
  unfold intText
  split_ifs with hneg
  · have hpos : 0 < n.natAbs := Int.natAbs_pos.mpr (by omega)
    have habs : -(n.natAbs : Int) = n := by omega
    rw [List.cons_append, number, magnitude_toDigits true (fun _ => hpos) h, if_pos rfl, habs]
  · have habs : (n.natAbs : Int) = n := by omega
    obtain ⟨d, ds, hds⟩ := List.exists_cons_of_ne_nil (Nat.toDigits_ne_nil (n := n.natAbs) (b := 10))
    have hd : d ≠ '-' := by
      rintro rfl
      have hdigit := toDigits_isDigit n.natAbs '-' (hds ▸ List.mem_cons_self ..)
      cases hdigit
    have hmagnitude := magnitude_toDigits false (n := n.natAbs) (by simp) h
    rw [if_neg Bool.false_ne_true, habs] at hmagnitude
    rw [hds, List.cons_append] at hmagnitude ⊢
    simp [number, hd, hmagnitude]

/-! Values. -/

theorem skipSpace_of_head {c : Char} (h : isSpace c = false) (cs : List Char) :
    skipSpace (c :: cs) = c :: cs := by simp [skipSpace, h]

theorem intText_head (n : Int) : ∃ c cs, intText n = c :: cs ∧ (c = '-' ∨ c.isDigit = true) := by
  unfold intText
  split_ifs
  · exact ⟨_, _, rfl, .inl rfl⟩
  · obtain ⟨d, ds, hds⟩ := List.exists_cons_of_ne_nil (Nat.toDigits_ne_nil (n := n.natAbs) (b := 10))
    exact ⟨d, ds, hds, .inr (toDigits_isDigit n.natAbs d (hds ▸ List.mem_cons_self ..))⟩

theorem number_head {c : Char} (h : c = '-' ∨ c.isDigit = true) :
    isSpace c = false ∧ c ∉ ['{', '[', '"', 't', 'f', 'n', ']', '}'] := by
  have hall : ∀ d ∈ [' ', '\t', '\n', '\r', '{', '[', '"', 't', 'f', 'n', ']', '}'], c ≠ d := by
    rintro d hd rfl
    rcases h with rfl | h
    · simp at hd
    · have hnot : ∀ d ∈ [' ', '\t', '\n', '\r', '{', '[', '"', 't', 'f', 'n', ']', '}'],
          d.isDigit = false := by simp
      rw [hnot c hd] at h
      cases h
  refine ⟨?_, ?_⟩
  · simp [isSpace, hall]
  · intro hmem
    exact hall c (List.mem_append_right [' ', '\t', '\n', '\r'] hmem) rfl

theorem value_intText (n : Int) (fuel : Nat) {rest : List Char} (h : Ends rest) :
    value (fuel + 1) (intText n ++ rest) = some (.integer n, rest) := by
  have hnumber := number_intText n h
  obtain ⟨c, cs, htext, hc⟩ := intText_head n
  obtain ⟨hspace, hother⟩ := number_head hc
  rw [htext, List.cons_append] at hnumber ⊢
  rw [value, skipSpace_of_head hspace]
  split
  case h_7 => exact hnumber
  all_goals
    rename_i heq
    obtain ⟨rfl, -⟩ := List.cons_eq_cons.mp heq
    simp at hother

theorem write_head (escape : List Char → List Char) {v : Value} (h : v.whole = true) :
    ∃ c cs, write escape v = c :: cs ∧ isSpace c = false ∧ c ≠ ']' ∧ c ≠ '}' := by
  cases v with
  | integer n =>
    obtain ⟨c, cs, htext, hc⟩ := intText_head n
    obtain ⟨hspace, hother⟩ := number_head hc
    refine ⟨c, cs, by rw [write, htext], hspace, ?_, ?_⟩ <;>
    · rintro rfl
      simp at hother
  | bool b => cases b <;> exact ⟨_, _, by rw [write], by decide, by decide, by decide⟩
  | decimal text => cases h
  | null => exact ⟨_, _, by rw [write], by decide, by decide, by decide⟩
  | string s => exact ⟨_, _, by rw [write, quote, List.cons_append], by decide, by decide, by decide⟩
  | array items => exact ⟨_, _, by rw [write, List.cons_append], by decide, by decide, by decide⟩
  | object ms => exact ⟨_, _, by rw [write, List.cons_append], by decide, by decide, by decide⟩

theorem writeItems_head (escape : List Char → List Char) {v : Value} (vs : List Value)
    (h : v.whole = true) :
    ∃ c cs, writeItems escape (v :: vs) = c :: cs ∧ isSpace c = false ∧ c ≠ ']' := by
  obtain ⟨c, cs, hhead, hspace, hc, -⟩ := write_head escape h
  cases vs with
  | nil => exact ⟨c, cs, by rw [writeItems, hhead], hspace, hc⟩
  | cons w ws =>
    exact ⟨c, cs ++ ',' :: writeItems escape (w :: ws),
      by rw [writeItems, hhead, List.cons_append]; simp, hspace, hc⟩

theorem writeMembers_head (escape : List Char → List Char) (m : List Char × Value)
    (ms : List (List Char × Value)) : ∃ cs, writeMembers escape (m :: ms) = '"' :: cs := by
  obtain ⟨key, v⟩ := m
  cases ms <;> simp [writeMembers, quote]

/-! One step of the parser for each shape of text. -/

section Steps

variable {n : Nat} {text more rest : List Char} {ok ok' : Bool} {v : Value}

theorem elements_last
    (hv : value n (text ++ ']' :: rest) = if ok then some (v, ']' :: rest) else none) :
    elements (n + 1) (text ++ ']' :: rest) = if ok then some ([v], rest) else none := by
  rw [elements, hv]
  cases ok <;> simp [skipSpace, isSpace]

theorem elements_more {vs : List Value}
    (hv : value n (text ++ ',' :: more) = if ok then some (v, ',' :: more) else none)
    (hvs : elements n more = if ok' then some (vs, rest) else none) :
    elements (n + 1) (text ++ ',' :: more) = if ok && ok' then some (v :: vs, rest) else none := by
  rw [elements, hv]
  cases ok <;> cases ok' <;> simp [skipSpace, isSpace, hvs]

theorem value_elements {vs : List Value} {c : Char} {cs : List Char} (htext : text = c :: cs)
    (hspace : isSpace c = false) (hc : c ≠ ']')
    (hvs : elements n text = if ok then some (vs, rest) else none) :
    value (n + 1) ('[' :: text) = if ok then some (.array vs, rest) else none := by
  rw [htext] at hvs ⊢
  rw [value, skipSpace_of_head (by decide)]
  simp only [skipSpace_of_head hspace, hvs]
  split
  · rename_i heq
    exact absurd (List.cons_eq_cons.mp heq).1 hc
  · cases ok <;> rfl

variable {escape : List Char → List Char} {good : List Char → Bool} (h : Reads escape good)
include h

theorem value_quote (s : List Char) :
    value (n + 1) (quote escape s ++ rest) =
      if good s then some (.string s, rest) else none := by
  have hread := h s rest
  simp only [quote, List.cons_append, List.append_assoc, List.nil_append, value]
  rw [skipSpace_of_head (by decide)]
  simp only [hread]
  cases good s <;> rfl

theorem members_last (key : List Char)
    (hv : value n (text ++ '}' :: rest) = if ok then some (v, '}' :: rest) else none) :
    members (n + 1) (quote escape key ++ ':' :: (text ++ '}' :: rest)) =
      if good key && ok then some ([(key, v)], rest) else none := by
  have hread := h key (':' :: (text ++ '}' :: rest))
  simp only [quote, List.cons_append, List.append_assoc, List.nil_append, members]
  rw [skipSpace_of_head (by decide)]
  simp only [hread]
  cases good key <;> cases ok <;> simp [skipSpace, isSpace, hv]

theorem members_more (key : List Char) {ms : List (List Char × Value)}
    (hv : value n (text ++ ',' :: more) = if ok then some (v, ',' :: more) else none)
    (hms : members n more = if ok' then some (ms, rest) else none) :
    members (n + 1) (quote escape key ++ ':' :: (text ++ ',' :: more)) =
      if good key && ok && ok' then some ((key, v) :: ms, rest) else none := by
  have hread := h key (':' :: (text ++ ',' :: more))
  simp only [quote, List.cons_append, List.append_assoc, List.nil_append, members]
  rw [skipSpace_of_head (by decide)]
  simp only [hread]
  cases good key <;> cases ok <;> cases ok' <;> simp [skipSpace, isSpace, hv, hms]

omit h in
theorem value_members {ms : List (List Char × Value)} {cs : List Char} (htext : text = '"' :: cs)
    (hms : members n text = if ok then some (ms, rest) else none) :
    value (n + 1) ('{' :: text) = if ok then some (.object ms, rest) else none := by
  rw [htext] at hms ⊢
  rw [value, skipSpace_of_head (by decide)]
  simp only [skipSpace_of_head (c := '"') (by decide), hms]
  cases ok <;> rfl

end Steps

section RoundTrip

variable {escape : List Char → List Char} {good : List Char → Bool} (h : Reads escape good)
include h

set_option linter.unusedSectionVars false in
mutual

theorem value_write : ∀ (v : Value) (n : Nat) (rest : List Char), v.whole = true → Ends rest →
    2 * (write escape v).length < n →
      value n (write escape v ++ rest) = if v.strings good then some (v, rest) else none
  | _, 0, _, _, _, hn => absurd hn (Nat.not_lt_zero _)
  | .null, n + 1, rest, _, _, _ => by
    simp [write, value, Value.strings, skipSpace, isSpace]
  | .bool b, n + 1, rest, _, _, _ => by
    cases b <;> simp [write, value, Value.strings, skipSpace, isSpace]
  | .integer m, n + 1, rest, _, hrest, _ => by
    rw [write, value_intText m n hrest]
    rfl
  | .decimal _, _ + 1, _, hwhole, _, _ => nomatch hwhole
  | .string s, n + 1, rest, _, _, _ => by
    rw [write, value_quote h]
    rfl
  | .array [], n + 1, rest, _, _, _ => by
    simp [write, writeItems, value, Value.strings, itemStrings, skipSpace, isSpace]
  | .array (v :: vs), n + 1, rest, hwhole, _, hn => by
    have hlen : (write escape (.array (v :: vs))).length =
        (writeItems escape (v :: vs)).length + 2 := by simp [write]
    have hitems := elements_write (v :: vs) n rest (by simp) hwhole (by omega)
    have hv : v.whole = true := (Bool.and_eq_true_iff.mp (by rwa [Value.whole, itemsWhole] at hwhole)).1
    obtain ⟨c, cs, hhead, hspace, hc⟩ := writeItems_head escape vs hv
    have htext : writeItems escape (v :: vs) ++ ']' :: rest = c :: (cs ++ ']' :: rest) := by
      rw [hhead, List.cons_append]
    rw [write, List.append_assoc, List.cons_append, List.singleton_append]
    exact value_elements htext hspace hc hitems
  | .object [], n + 1, rest, _, _, _ => by
    simp [write, writeMembers, value, Value.strings, memberStrings, skipSpace, isSpace]
  | .object (m :: ms), n + 1, rest, hwhole, _, hn => by
    have hlen : (write escape (.object (m :: ms))).length =
        (writeMembers escape (m :: ms)).length + 2 := by simp [write]
    have hmembers := members_write (m :: ms) n rest (by simp) hwhole (by omega)
    obtain ⟨cs, hhead⟩ := writeMembers_head escape m ms
    have htext : writeMembers escape (m :: ms) ++ '}' :: rest = '"' :: (cs ++ '}' :: rest) := by
      rw [hhead, List.cons_append]
    rw [write, List.append_assoc, List.cons_append, List.singleton_append]
    exact value_members htext hmembers

theorem elements_write : ∀ (vs : List Value) (n : Nat) (rest : List Char), vs ≠ [] →
    itemsWhole vs = true → 2 * (writeItems escape vs).length + 1 < n →
      elements n (writeItems escape vs ++ ']' :: rest) =
        if itemStrings good vs then some (vs, rest) else none
  | _, 0, _, _, _, hn => absurd hn (Nat.not_lt_zero _)
  | [], _ + 1, _, hne, _, _ => absurd rfl hne
  | [v], n + 1, rest, _, hwhole, hn => by
    have hv := value_write v n (']' :: rest) (by simpa [itemsWhole] using hwhole)
      (ends_cons (by simp) rest) (by rw [writeItems] at hn; omega)
    rw [writeItems, elements_last hv]
    simp [itemStrings]
  | v :: w :: ws, n + 1, rest, _, hwhole, hn => by
    obtain ⟨hv, hws⟩ := Bool.and_eq_true_iff.mp (by rwa [itemsWhole] at hwhole)
    have hlen : (writeItems escape (v :: w :: ws)).length =
        (write escape v).length + 1 + (writeItems escape (w :: ws)).length := by
      rw [writeItems_cons, List.length_append, List.length_cons]
      omega
    have htail := elements_write (w :: ws) n rest (by simp) hws (by omega)
    have hhead := value_write v n (',' :: (writeItems escape (w :: ws) ++ ']' :: rest)) hv
      (ends_cons (by simp) _) (by omega)
    have hstep := elements_more hhead htail
    rw [writeItems_cons, List.append_assoc, List.cons_append]
    exact hstep

theorem members_write : ∀ (ms : List (List Char × Value)) (n : Nat) (rest : List Char), ms ≠ [] →
    membersWhole ms = true → 2 * (writeMembers escape ms).length + 1 < n →
      members n (writeMembers escape ms ++ '}' :: rest) =
        if memberStrings good ms then some (ms, rest) else none
  | _, 0, _, _, _, hn => absurd hn (Nat.not_lt_zero _)
  | [], _ + 1, _, hne, _, _ => absurd rfl hne
  | [(key, v)], n + 1, rest, _, hwhole, hn => by
    have hlen : (writeMembers escape [(key, v)]).length =
        (quote escape key).length + 1 + (write escape v).length := by
      rw [writeMembers, List.length_append, List.length_cons]
      omega
    have hv := value_write v n ('}' :: rest) (by simpa [membersWhole] using hwhole)
      (ends_cons (by simp) rest) (by omega)
    have hstep := members_last h key hv
    rw [writeMembers, List.append_assoc, List.cons_append, hstep]
    simp [memberStrings]
  | (key, v) :: m :: ms, n + 1, rest, _, hwhole, hn => by
    obtain ⟨hv, hms⟩ := Bool.and_eq_true_iff.mp (by rwa [membersWhole] at hwhole)
    have hlen : (writeMembers escape ((key, v) :: m :: ms)).length =
        (quote escape key).length + 1 + (write escape v).length + 1 +
          (writeMembers escape (m :: ms)).length := by
      rw [writeMembers_cons, List.length_append, List.length_cons, List.length_append, List.length_cons]
      omega
    have htail := members_write (m :: ms) n rest (by simp) hms (by omega)
    have hhead := value_write v n (',' :: (writeMembers escape (m :: ms) ++ '}' :: rest)) hv
      (ends_cons (by simp) _) (by omega)
    have hstep := members_more h key hhead htail
    rw [writeMembers_cons, List.append_assoc, List.cons_append, List.append_assoc, List.cons_append]
    exact hstep

end

theorem parse_write {v : Value} (hwhole : v.whole = true) :
    parse (write escape v) = if v.strings good then some v else none := by
  -- the text of a value is JSON exactly where all its strings are read back, and then it is the
  -- text of that value
  have hvalue := value_write h v (2 * (write escape v).length + 2) [] hwhole ends_nil (by omega)
  rw [List.append_nil] at hvalue
  rw [parse, hvalue]
  cases v.strings good <;> rfl

end RoundTrip

/-! The characters of a text. -/

def punctuation : List Char :=
  ['n', 'u', 'l', 't', 'r', 'e', 'f', 'a', 's', '"', ',', ':', '[', ']', '{', '}', '-']

section Characters

variable {escape : List Char → List Char} {p : Char → Bool} (hp : ∀ c ∈ punctuation, p c = true)
  (hdigit : ∀ c, c.isDigit = true → p c = true)
include hp

theorem all_quote {s : List Char} (h : (escape s).all p = true) : (quote escape s).all p = true := by
  have hquote : p '"' = true := hp '"' (by decide)
  simp [quote, hquote, h]

include hdigit

theorem all_intText (n : Int) : (intText n).all p = true := by
  have hdigits : (Nat.toDigits 10 n.natAbs).all p = true :=
    List.all_eq_true.mpr fun c hc => hdigit c (toDigits_isDigit n.natAbs c hc)
  unfold intText
  split_ifs
  · simp [hp '-' (by decide), hdigits]
  · exact hdigits

set_option linter.unusedSectionVars false in
mutual

theorem all_write : ∀ v : Value, v.whole = true →
    v.strings (fun s => (escape s).all p) = true → (write escape v).all p = true
  | .null, _, _ => by simp [write, hp 'n' (by decide), hp 'u' (by decide), hp 'l' (by decide)]
  | .bool b, _, _ => by
    cases b <;> simp [write, hp 't' (by decide), hp 'r' (by decide), hp 'u' (by decide),
      hp 'e' (by decide), hp 'f' (by decide), hp 'a' (by decide), hp 'l' (by decide), hp 's' (by decide)]
  | .integer n, _, _ => all_intText hp hdigit n
  | .decimal _, hwhole, _ => nomatch hwhole
  | .string s, _, hs => all_quote hp hs
  | .array items, hwhole, hs => by
    have hitems := all_writeItems items hwhole hs
    simp [write, hp '[' (by decide), hp ']' (by decide), hitems]
  | .object ms, hwhole, hs => by
    have hmembers := all_writeMembers ms hwhole hs
    simp [write, hp '{' (by decide), hp '}' (by decide), hmembers]

theorem all_writeItems : ∀ vs : List Value, itemsWhole vs = true →
    itemStrings (fun s => (escape s).all p) vs = true → (writeItems escape vs).all p = true
  | [], _, _ => by rw [writeItems, List.all_nil]
  | [v], hwhole, hs => by
    rw [writeItems]
    exact all_write v (Bool.and_eq_true_iff.mp hwhole).1 (Bool.and_eq_true_iff.mp hs).1
  | v :: w :: ws, hwhole, hs => by
    have hhead := all_write v (Bool.and_eq_true_iff.mp hwhole).1 (Bool.and_eq_true_iff.mp hs).1
    have htail := all_writeItems (w :: ws) (Bool.and_eq_true_iff.mp hwhole).2
      (Bool.and_eq_true_iff.mp hs).2
    rw [writeItems_cons, List.all_append, List.all_cons, hhead, hp ',' (by decide), htail]
    rfl

theorem all_writeMembers : ∀ ms : List (List Char × Value), membersWhole ms = true →
    memberStrings (fun s => (escape s).all p) ms = true → (writeMembers escape ms).all p = true
  | [], _, _ => by rw [writeMembers, List.all_nil]
  | [(key, v)], hwhole, hs => by
    obtain ⟨hkey, hv⟩ := Bool.and_eq_true_iff.mp (Bool.and_eq_true_iff.mp hs).1
    have hhead := all_write v (Bool.and_eq_true_iff.mp hwhole).1 hv
    rw [writeMembers, List.all_append, List.all_cons, all_quote hp hkey, hp ':' (by decide), hhead]
    rfl
  | (key, v) :: m :: ms, hwhole, hs => by
    obtain ⟨hkey, hv⟩ := Bool.and_eq_true_iff.mp (Bool.and_eq_true_iff.mp hs).1
    have hhead := all_write v (Bool.and_eq_true_iff.mp hwhole).1 hv
    have htail := all_writeMembers (m :: ms) (Bool.and_eq_true_iff.mp hwhole).2
      (Bool.and_eq_true_iff.mp hs).2
    rw [writeMembers_cons, List.all_append, List.all_cons, List.all_append, List.all_cons,
      all_quote hp hkey, hp ':' (by decide), hhead, hp ',' (by decide), htail]
    rfl

end

end Characters

end Json
