import SrtlaOutput.Config.Agreement

/-! Which endpoints are read as they are written. The scheme is searched in the whole text, and
the port is checked after it is narrowed. -/

namespace Srtla

def hostDelimiters (bracketed : Bool) : List Char :=
  ['/', '?', '[', ']', '\\', '"'] ++ if bracketed then [] else [':']

/-- The parts of an endpoint as they are written. An IPv6 host stands in brackets, and a host has at
most 240 bytes. -/
structure EndpointParts where
  scheme : Option (List Char)
  bracketed : Bool
  host : List Char
  digits : Option (List Char)
  suffix : List Char
  letters : ∀ s ∈ scheme, ∀ c ∈ s, c.isAlpha = true
  host_nonempty : host ≠ []
  host_size : (String.ofList host).utf8ByteSize ≤ 240
  host_plain : ∀ c ∈ host, c ∉ hostDelimiters bracketed
  digits_nonempty : digits ≠ some []
  digits_decimal : ∀ ds ∈ digits, ∀ c ∈ ds, c.isDigit = true
  suffix_starts : ∀ c ∈ suffix.head?, c = '/' ∨ c = '?'

def decimalValue (digits : List Char) : Nat :=
  digits.foldl (fun n c => 10 * n + (c.toNat - '0'.toNat)) 0

namespace EndpointParts

def authority (p : EndpointParts) : List Char :=
  (if p.bracketed then '[' :: (p.host ++ [']']) else p.host) ++ (p.digits.map (':' :: ·)).getD []

def text (p : EndpointParts) : List Char :=
  (p.scheme.map (· ++ [':', '/', '/'])).getD [] ++ (p.authority ++ p.suffix)

def number (p : EndpointParts) : Option Nat := p.digits.map decimalValue

def parsed (p : EndpointParts) : String × Nat := parseEndpoint (some (String.ofList p.text))

/-- The host comes out with the port that is written, or does not come out. -/
def Exact (p : EndpointParts) : Prop :=
  match p.number with
  | none => p.parsed = (String.ofList p.host, 5000)
  | some n =>
    if 1 ≤ n ∧ n ≤ 65535 then p.parsed = (String.ofList p.host, n)
    else p.parsed.1 = String.ofList p.host → p.parsed.2 = n

/-- There is no scheme, and the text of one in the suffix. -/
def HiddenScheme (p : EndpointParts) : Prop := p.scheme = none ∧ (afterScheme p.suffix).isSome

/-- The port is in range, or the narrowed number is not and the host is not the one that
stands for every rejected endpoint. -/
def PortKept (p : EndpointParts) : Prop :=
  ∀ n ∈ p.number, (1 ≤ n ∧ n ≤ 65535) ∨
    (String.ofList p.host ≠ "receiver.example" ∧
      (2 ^ 64 ≤ n ∨ n % 2 ^ 32 = 0 ∨ 65535 < n % 2 ^ 32))

end EndpointParts

/-! The scheme. -/

theorem afterScheme_append {body suffix : List Char} (hslash : '/' ∉ body)
    (hlast : body.getLast? ≠ some ':') : afterScheme (body ++ suffix) = afterScheme suffix := by
  induction body with
  | nil => rfl
  | cons c body ih =>
    rw [List.mem_cons, not_or] at hslash
    have hnone : ([':', '/', '/'].isPrefixOf (c :: (body ++ suffix))) = false := by
      cases body with
      | nil =>
        have hc : c ≠ ':' := by simpa using hlast
        simp [List.isPrefixOf, hc.symm]
      | cons c' body =>
        have hc' : c' ≠ '/' := fun h => hslash.2 (by rw [h]; exact List.mem_cons_self)
        simp [List.isPrefixOf, hc'.symm]
    have hrest : body.getLast? ≠ some ':' := by
      cases body with
      | nil => simp
      | cons c' body => simpa [List.getLast?_cons_cons] using hlast
    rw [List.cons_append, afterScheme, hnone, ← ih hslash.2 hrest]
    rfl

theorem afterScheme_scheme {scheme : List Char} (h : ∀ c ∈ scheme, c.isAlpha = true)
    (rest : List Char) : afterScheme (scheme ++ [':', '/', '/'] ++ rest) = some rest := by
  induction scheme with
  | nil => simp [afterScheme, List.isPrefixOf]
  | cons c scheme ih =>
    rw [List.forall_mem_cons] at h
    have hc : ':' ≠ c := by
      rintro rfl
      exact absurd h.1 (by decide)
    simp only [List.cons_append] at ih ⊢
    rw [afterScheme, ih h.2]
    simp [List.isPrefixOf, hc]

/-! The number. -/

theorem isSpaceChar_digit {c : Char} (h : c.isDigit = true) : isSpaceChar c = false := by
  simp only [Char.isDigit, Bool.and_eq_true, decide_eq_true_eq, UInt32.le_iff_toNat_le, ge_iff_le]
    at h
  have hspace : c ≠ ' ' := by
    rintro rfl
    exact absurd h.1 (by decide)
  have hlow : ¬ c ≤ '\r' := by
    rw [Char.le_def, UInt32.le_iff_toNat_le, Nat.not_le]
    exact Nat.lt_of_lt_of_le (by decide) h.1
  simp [isSpaceChar, hspace, hlow]

theorem strtoul_digits {digits : List Char} (hdigits : ∀ c ∈ digits, c.isDigit = true) :
    strtoul digits = if 2 ^ 64 ≤ decimalValue digits then 2 ^ 64 - 1 else decimalValue digits := by
  have hspace : digits.dropWhile isSpaceChar = digits := by
    cases digits with
    | nil => rfl
    | cons c digits =>
      rw [List.dropWhile_cons_of_neg]
      have hc := hdigits c List.mem_cons_self
      rw [isSpaceChar_digit hc]
      exact Bool.false_ne_true
  have hsign : digits.head? ≠ some '-' ∧ digits.head? ≠ some '+' := by
    constructor <;>
    · intro h
      have hc := hdigits _ (List.mem_of_mem_head? h)
      exact absurd hc (by decide)
  have htake : digits.takeWhile (·.isDigit) = digits := List.takeWhile_eq_self_iff.mpr hdigits
  unfold strtoul
  simp only [hspace, hsign.1, hsign.2, or_self, if_false, htake]
  rfl

theorem strtoul_narrowed {digits : List Char} (hdigits : ∀ c ∈ digits, c.isDigit = true) :
    strtoul digits % 2 ^ 32 =
      if 2 ^ 64 ≤ decimalValue digits then 2 ^ 32 - 1 else decimalValue digits % 2 ^ 32 := by
  rw [strtoul_digits hdigits]
  split_ifs <;> rfl

namespace EndpointParts
variable (p : EndpointParts)

theorem digits_no_colon {ds : List Char} (h : p.digits = some ds) : ':' ∉ ds := by
  intro hcolon
  exact absurd (p.digits_decimal ds h _ hcolon) (by decide)

theorem not_mem_authority {c : Char} (hc : c = '/' ∨ c = '?') : c ∉ p.authority := by
  have hdelimiter : c ∈ hostDelimiters p.bracketed := by
    rw [hostDelimiters, List.mem_append]
    left
    rcases hc with rfl | rfl <;> decide
  have hhost : c ∉ p.host := fun h => p.host_plain c h hdelimiter
  have hdigits : c ∉ (p.digits.map (':' :: ·)).getD [] := by
    cases hd : p.digits with
    | none => exact List.not_mem_nil
    | some ds =>
      rw [Option.map_some, Option.getD_some, List.mem_cons, not_or]
      refine ⟨?_, fun h => absurd (p.digits_decimal ds hd c h) ?_⟩
      · rcases hc with rfl | rfl <;> decide
      · rcases hc with rfl | rfl <;> decide
  have hbracket : c ≠ '[' ∧ c ≠ ']' := by
    rcases hc with rfl | rfl <;> decide
  rw [authority, List.mem_append, not_or]
  refine ⟨?_, hdigits⟩
  split_ifs
  · simp [hbracket.1, hbracket.2, hhost]
  · exact hhost

theorem getLast?_authority : p.authority.getLast? ≠ some ':' := by
  rw [authority, List.getLast?_append]
  cases hd : p.digits with
  | some ds =>
    have hne : ds ≠ [] := by
      rintro rfl
      exact p.digits_nonempty hd
    intro h
    rw [Option.map_some, Option.getD_some, List.getLast?_cons, Option.some_or,
      List.getLast?_eq_some_getLast hne, Option.getD_some, Option.some.injEq] at h
    apply p.digits_no_colon hd
    rw [← h]
    exact List.getLast_mem hne
  | none =>
    rw [Option.map_none, Option.getD_none, List.getLast?_nil, Option.none_or]
    split_ifs with hbracketed
    · rw [← List.cons_append, List.getLast?_concat]
      decide
    · intro h
      apply p.host_plain ':' (List.mem_of_getLast? h)
      rw [hostDelimiters, if_neg hbracketed]
      decide

theorem hostAndPort_bracketed (hbracketed : p.bracketed = true) :
    hostAndPort p.authority =
      (p.host, (p.digits.map fun ds => strtoul ds % 2 ^ 32).getD 5000) := by
  have hport : ((p.digits.map (':' :: ·)).getD []).dropWhile (· ≠ ':') =
      (p.digits.map (':' :: ·)).getD [] := by
    cases p.digits with
    | none => rfl
    | some ds => exact List.dropWhile_cons_of_neg (by simp)
  have hhost : ∀ c ∈ '[' :: p.host, decide (c ≠ ']') = true := by
    intro c hc
    rw [decide_eq_true_eq]
    rintro rfl
    rcases List.mem_cons.mp hc with h | h
    · exact absurd h (by decide)
    · exact p.host_plain _ h (by rw [hbracketed]; decide)
  have hauthority : p.authority = ('[' :: p.host) ++ ']' :: (p.digits.map (':' :: ·)).getD [] := by
    rw [authority, hbracketed]
    simp
  unfold hostAndPort
  rw [hauthority, List.takeWhile_append_of_pos hhost, List.dropWhile_append_of_pos hhost,
    List.takeWhile_cons_of_neg (by simp), List.dropWhile_cons_of_neg (by simp),
    List.dropWhile_cons_of_pos (by simp), hport, if_pos (by simp), if_pos (by simp)]
  cases p.digits with
  | none => simp
  | some ds => simp

theorem rtakeWhile_cut {α : Type} {q : α → Bool} (as : List α) {x : α} {bs : List α}
    (hbs : ∀ b ∈ bs, q b = true) (hx : q x = false) :
    (as ++ x :: bs).rtakeWhile q = bs ∧ (as ++ x :: bs).rdropWhile q = as ++ [x] := by
  have hreverse : (as ++ x :: bs).reverse = bs.reverse ++ x :: as.reverse := by simp
  have hbefore : ∀ b ∈ bs.reverse, q b = true := by simpa using hbs
  constructor
  · rw [List.rtakeWhile, hreverse, List.takeWhile_append_of_pos hbefore,
      List.takeWhile_cons_of_neg (by simp [hx])]
    simp
  · rw [List.rdropWhile, hreverse, List.dropWhile_append_of_pos hbefore,
      List.dropWhile_cons_of_neg (by simp [hx])]
    simp

theorem hostAndPort_unbracketed (hbracketed : p.bracketed = false) :
    hostAndPort p.authority =
      (p.host, (p.digits.map fun ds => strtoul ds % 2 ^ 32).getD 5000) := by
  have hauthority : p.authority = p.host ++ (p.digits.map (':' :: ·)).getD [] := by
    rw [authority, hbracketed]
    rfl
  have hcolon : ':' ∉ p.host := by
    intro h
    exact p.host_plain _ h (by rw [hbracketed]; decide)
  have hhead : p.authority.head? ≠ some '[' := by
    obtain ⟨c, host, hhost⟩ := List.exists_cons_of_ne_nil p.host_nonempty
    rw [hauthority, hhost, List.cons_append, List.head?_cons]
    intro h
    rw [Option.some.inj h] at hhost
    exact p.host_plain '[' (hhost ▸ List.mem_cons_self) (by rw [hbracketed]; decide)
  unfold hostAndPort
  rw [if_neg hhead, hauthority]
  cases hd : p.digits with
  | none =>
    rw [Option.map_none, Option.map_none, Option.getD_none, Option.getD_none, List.append_nil,
      if_neg hcolon]
  | some ds =>
    have hds : ∀ c ∈ ds, decide (c ≠ ':') = true := by
      intro c hc
      rw [decide_eq_true_eq]
      rintro rfl
      exact p.digits_no_colon hd hc
    obtain ⟨htake, hdrop⟩ := rtakeWhile_cut p.host hds (by decide : decide (':' ≠ ':') = false)
    rw [Option.map_some, Option.map_some, Option.getD_some, Option.getD_some, if_pos (by simp),
      hdrop, htake, List.dropLast_concat]

theorem hostAndPort_authority :
    hostAndPort p.authority =
      (p.host, (p.digits.map fun ds => strtoul ds % 2 ^ 32).getD 5000) := by
  cases hbracketed : p.bracketed with
  | true => exact hostAndPort_bracketed p hbracketed
  | false => exact hostAndPort_unbracketed p hbracketed

theorem authority_ne_nil : p.authority ≠ [] := by
  have hhost := p.host_nonempty
  unfold authority
  split_ifs <;> simp [hhost]

theorem parsed_text {text : List Char} (h : text ≠ []) :
    parseEndpoint (some (String.ofList text)) =
      let found := hostAndPort
        (((afterScheme text).getD text).takeWhile fun c => c ≠ '?' && c ≠ '/')
      if String.ofList found.1 = "" ∨ 240 < (String.ofList found.1).utf8ByteSize ∨ '\\' ∈ found.1 ∨
          '"' ∈ found.1 ∨ found.2 = 0 ∨ 65535 < found.2 then ("receiver.example", 5000)
      else (String.ofList found.1, found.2) := by
  have hne : String.ofList text ≠ "" := by
    intro hempty
    exact h (String.ofList_eq_empty_iff.mp hempty)
  have hfilter : (some (String.ofList text)).filter (fun s => s ≠ "") = some (String.ofList text) := by
    simp [hne]
  unfold parseEndpoint
  simp only [hfilter, Option.getD_some, String.toList_ofList]

theorem parsed_eq (h : ¬ p.HiddenScheme) :
    p.parsed =
      let port := (p.digits.map fun ds => strtoul ds % 2 ^ 32).getD 5000
      if port = 0 ∨ 65535 < port then ("receiver.example", 5000)
      else (String.ofList p.host, port) := by
  have hne : p.text ≠ [] := by
    simp [text, p.authority_ne_nil]
  have hscheme : (afterScheme p.text).getD p.text = p.authority ++ p.suffix := by
    unfold text
    cases hs : p.scheme with
    | some scheme =>
      rw [Option.map_some, Option.getD_some, afterScheme_scheme (p.letters scheme hs)]
      rfl
    | none =>
      have hsuffix : afterScheme p.suffix = none := by
        by_contra hsome
        exact h ⟨hs, Option.isSome_iff_ne_none.mpr hsome⟩
      rw [Option.map_none, Option.getD_none, List.nil_append, afterScheme_append
        (p.not_mem_authority (.inl rfl)) p.getLast?_authority, hsuffix]
      rfl
  have hcut : (p.authority ++ p.suffix).takeWhile (fun c => c ≠ '?' && c ≠ '/') = p.authority := by
    have hbefore : ∀ c ∈ p.authority, (decide (c ≠ '?') && decide (c ≠ '/')) = true := by
      intro c hc
      have hslash : c ≠ '/' := fun hc' => p.not_mem_authority (.inl hc') hc
      have hquestion : c ≠ '?' := fun hc' => p.not_mem_authority (.inr hc') hc
      simp [hslash, hquestion]
    rw [List.takeWhile_append_of_pos hbefore]
    cases hsuffix : p.suffix with
    | nil => simp
    | cons c suffix =>
      rcases p.suffix_starts c (by rw [hsuffix]; rfl) with rfl | rfl <;> simp
  have hhost : String.ofList p.host ≠ "" := by
    intro hempty
    exact p.host_nonempty (String.ofList_eq_empty_iff.mp hempty)
  have hbackslash : '\\' ∉ p.host := by
    intro hmem
    exact p.host_plain _ hmem (by simp [hostDelimiters])
  have hquote : '"' ∉ p.host := by
    intro hmem
    exact p.host_plain _ hmem (by simp [hostDelimiters])
  rw [parsed, parsed_text hne, hscheme, hcut, hostAndPort_authority]
  simp only [hhost, Nat.not_lt.mpr p.host_size, hbackslash, hquote, false_or]

theorem parsed_of_hidden (h : p.HiddenScheme) :
    p.parsed = parseEndpoint (some (String.ofList p.suffix)) := by
  obtain ⟨hs, hsome⟩ := h
  obtain ⟨rest, hrest⟩ := Option.isSome_iff_exists.mp hsome
  have htext : p.text = p.authority ++ p.suffix := by
    rw [text, hs]
    rfl
  have hafter : afterScheme p.text = some rest := by
    rw [htext, afterScheme_append (p.not_mem_authority (.inl rfl)) p.getLast?_authority, hrest]
  have hne : p.text ≠ [] := by
    simp [text, p.authority_ne_nil]
  have hsuffix : p.suffix ≠ [] := by
    intro hnil
    rw [hnil] at hrest
    cases hrest
  rw [parsed, parsed_text hne, parsed_text hsuffix, hafter, hrest]
  rfl

end EndpointParts

/-- An endpoint is read as it is written if and only if its port is kept. Where a scheme is found
in the suffix instead, the reply is the one for the suffix alone. -/
theorem endpoint_exact_iff (p : EndpointParts) :
    (¬ p.HiddenScheme → (p.Exact ↔ p.PortKept)) ∧
      (p.HiddenScheme → p.parsed = parseEndpoint (some (String.ofList p.suffix))) := by
  refine ⟨fun h => ?_, p.parsed_of_hidden⟩
  have hparsed := p.parsed_eq h
  unfold EndpointParts.Exact EndpointParts.PortKept EndpointParts.number
  rw [hparsed]
  cases hd : p.digits with
  | none => simp
  | some ds =>
    have hport := strtoul_narrowed (p.digits_decimal ds hd)
    have hrejected : (strtoul ds % 2 ^ 32 = 0 ∨ 65535 < strtoul ds % 2 ^ 32) ↔
        (2 ^ 64 ≤ decimalValue ds ∨ decimalValue ds % 2 ^ 32 = 0 ∨
          65535 < decimalValue ds % 2 ^ 32) := by
      rw [hport]
      split_ifs <;> omega
    simp only [Option.map_some, Option.getD_some, Option.mem_def, Option.some.injEq, forall_eq']
    by_cases hrange : 1 ≤ decimalValue ds ∧ decimalValue ds ≤ 65535
    · have hkept : strtoul ds % 2 ^ 32 = decimalValue ds := by
        rw [hport]
        split_ifs <;> omega
      rw [if_pos hrange, hkept, if_neg (by omega)]
      simp [hrange]
    · rw [if_neg hrange, ← hrejected]
      by_cases hout : strtoul ds % 2 ^ 32 = 0 ∨ 65535 < strtoul ds % 2 ^ 32
      · rw [if_pos hout]
        -- the endpoint that stands for a rejected one has a port in range
        have hdefault : (5000 : Nat) ≠ decimalValue ds := by
          rintro heq
          exact hrange (by omega)
        constructor
        · intro hexact
          refine .inr ⟨fun hhost => ?_, hout⟩
          exact hdefault (hexact hhost.symm)
        · rintro (hin | ⟨hhost, -⟩) hsame
          · exact absurd hin hrange
          · exact absurd hsame.symm hhost
      · rw [if_neg hout]
        constructor
        · intro hexact
          have hnumber : strtoul ds % 2 ^ 32 = decimalValue ds := hexact rfl
          exact absurd ⟨by omega, by omega⟩ hrange
        · rintro (hin | ⟨-, hkept⟩) -
          · exact absurd hin hrange
          · exact absurd hkept hout

/-- `srtla://h:4294972296`, a port that is 5000 in 32 bits. -/
def narrowedEndpoint : EndpointParts where
  scheme := some ['s', 'r', 't', 'l', 'a']
  bracketed := false
  host := ['h']
  digits := some ['4', '2', '9', '4', '9', '7', '2', '2', '9', '6']
  suffix := []
  letters := by simp
  host_nonempty := by decide
  host_size := by decide
  host_plain := by simp [hostDelimiters]
  digits_nonempty := by decide
  digits_decimal := by simp
  suffix_starts := by simp

/-- `h?r=s://g`, where the text of a scheme stands in the query. -/
def hiddenEndpoint : EndpointParts where
  scheme := none
  bracketed := false
  host := ['h']
  digits := none
  suffix := ['?', 'r', '=', 's', ':', '/', '/', 'g']
  letters := by simp
  host_nonempty := by decide
  host_size := by decide
  host_plain := by simp [hostDelimiters]
  digits_nonempty := by decide
  digits_decimal := by simp
  suffix_starts := by simp

/-- `srtla://[fe80::1]:5001/p?r=s://g`. -/
def bracketedEndpoint : EndpointParts where
  scheme := some ['s', 'r', 't', 'l', 'a']
  bracketed := true
  host := ['f', 'e', '8', '0', ':', ':', '1']
  digits := some ['5', '0', '0', '1']
  suffix := ['/', 'p', '?', 'r', '=', 's', ':', '/', '/', 'g']
  letters := by simp
  host_nonempty := by decide
  host_size := by decide
  host_plain := by simp [hostDelimiters]
  digits_nonempty := by decide
  digits_decimal := by simp
  suffix_starts := by simp

theorem endpoint_exact_described :
    bracketedEndpoint.Exact ∧ bracketedEndpoint.parsed = ("fe80::1", 5001) := by
  have hscheme : ¬bracketedEndpoint.HiddenScheme := fun h => absurd h.1 (by decide)
  have hkept : bracketedEndpoint.PortKept := by
    rintro _ ⟨⟩
    exact .inl (by decide)
  have hexact := ((endpoint_exact_iff bracketedEndpoint).1 hscheme).mpr hkept
  exact ⟨hexact, hexact⟩

/-- A rejected port comes out as another one, and a host as what stands in its query. -/
theorem endpoint_inexact :
    narrowedEndpoint.number = some 4294972296 ∧ narrowedEndpoint.parsed = ("h", 5000) ∧
      ¬ narrowedEndpoint.Exact ∧ hiddenEndpoint.parsed = ("g", 5000) ∧
      ¬ hiddenEndpoint.Exact := by
  have hnarrowed : narrowedEndpoint.parsed = ("h", 5000) := by decide +kernel
  have hhidden : hiddenEndpoint.parsed = ("g", 5000) := by decide +kernel
  refine ⟨by decide, hnarrowed, ?_, hhidden, ?_⟩
  · intro hexact
    have hport : narrowedEndpoint.parsed.2 = 4294972296 := hexact (congrArg Prod.fst hnarrowed)
    rw [hnarrowed] at hport
    cases hport
  · intro hexact
    exact absurd (hhidden.symm.trans hexact) (by decide)

end Srtla
