import SrtlaOutput.Config.Endpoint
import SrtlaOutput.Config.LegacyUrl
import SrtlaOutput.Lib.Utf8

/-! The dock reads the URL of an older version through Qt. The items of its query are set beside
those that the output reads. -/

namespace Srtla
open Percent Latest Utf8

/-! The reader of the dock. A `QString` is its UTF-8 text. -/

/-- What the dock uses of Qt: `printed` is `toString(RemoveQuery | RemoveFragment)`, and
`queryItems` decodes fully; what it makes of a name or a value of a query is `component`. -/
structure Qt where
  isValid : List UInt8 → Bool
  scheme : List UInt8 → List UInt8
  printed : List UInt8 → List UInt8
  queryItems : List UInt8 → List (List UInt8 × List UInt8)
  component : List UInt8 → List UInt8 → List UInt8
  toInt : List UInt8 → Option Int

def numberSign : UInt8 := 35

/-- The bytes that a name or a value of a query stands for. A `+` stands for itself, and one percent
sign without two digits after it makes all of them stand for themselves. -/
def componentBytes (query text : List UInt8) : List UInt8 :=
  if wellEscaped query then decode id text else text

def Qt.decodedItems (qt : Qt) (body : List UInt8) : List (List UInt8 × List UInt8) :=
  if questionMark ∈ body then
    let query := after questionMark body
    (Srtla.queryItems query).map fun item =>
      (qt.component query item.key, qt.component query (item.value.getD []))
  else []

/-- U+FFFD. -/
def replacement : List UInt8 := [0xef, 0xbf, 0xbd]

def latin1 (text : List UInt8) : List Char := text.map Char.ofUInt8

def signs : List (List Char) := [[], ['+'], ['-']]

/-- A byte of a space. No space outside of ASCII has the first byte of U+FFFD. -/
def SpaceByte (c : Char) : Prop := isSpaceChar c = true ∨ 0x80 ≤ c.toNat ∧ c.toNat ≠ 0xef

structure Numeral (text : List Char) (n : Int) where
  lead : List Char
  sign : List Char
  digits : List Char
  rest : List Char
  text_eq : text = lead ++ (sign ++ (digits ++ rest))
  lead_spaces : ∀ c ∈ lead, SpaceByte c
  sign_mem : sign ∈ signs
  digits_ne_nil : digits ≠ []
  digits_decimal : ∀ c ∈ digits, c.isDigit = true
  rest_spaces : ∀ c ∈ rest, SpaceByte c
  value : n = if sign = ['-'] then -(decimalValue digits : Int) else decimalValue digits

/-- What the documentation of Qt says about these functions: bytes that are no UTF-8 are replaced by
U+FFFD. It is left open whether noncharacters are, which spaces outside of ASCII a number may have
around it, and whether a pair without a key is reported. -/
structure Qt.Documented (qt : Qt) : Prop where
  printed_ends : ∀ raw, numberSign ∉ qt.printed raw
  queryItems_eq : ∀ raw, qt.isValid raw = true →
    (qt.queryItems raw).filter (·.1 ≠ []) =
      (qt.decodedItems (before numberSign raw)).filter (·.1 ≠ [])
  component_utf8 : ∀ query text, WellFormed (qt.component query text)
  component_low : ∀ query text,
    low (qt.component query text) = low (componentBytes query text)
  component_eq : ∀ query text, Encoded (¬Noncharacter ·) (componentBytes query text) →
    qt.component query text = componentBytes query text
  component_replaced : ∀ query text, qt.component query text ≠ componentBytes query text →
    replacement <:+: qt.component query text
  toInt_numeral : ∀ text n, qt.toInt text = some n → Nonempty (Numeral (latin1 text) n)

structure LegacyUrlFields where
  endpoint : List UInt8
  streamId : List UInt8 := []
  passphrase : List UInt8 := []
  latencyMs : Int := 2000
  pbkeylen : Int := 16
  hasStreamId : Bool := false
  hasPassphrase : Bool := false
  hasLatency : Bool := false
  hasPbkeylen : Bool := false

def latencyKeys : List (List UInt8) := [ascii "latency", ascii "latency_ms"]

def latencySupported (n : Int) : Bool := 120 ≤ n && n ≤ 60000
def pbkeylenSupported (n : Int) : Bool := n = 16 || n = 24 || n = 32

namespace LegacyUrlFields

def streamId? (f : LegacyUrlFields) : Option (List UInt8) :=
  if f.hasStreamId then some f.streamId else none

def passphrase? (f : LegacyUrlFields) : Option (List UInt8) :=
  if f.hasPassphrase then some f.passphrase else none

def latencyMs? (f : LegacyUrlFields) : Option Int := if f.hasLatency then some f.latencyMs else none

def pbkeylen? (f : LegacyUrlFields) : Option Int := if f.hasPbkeylen then some f.pbkeylen else none

def take (qt : Qt) (f : LegacyUrlFields) (item : List UInt8 × List UInt8) : LegacyUrlFields :=
  if item.1 ∈ streamIdKeys then { f with streamId := item.2, hasStreamId := true }
  else if item.1 ∈ passphraseKeys then { f with passphrase := item.2, hasPassphrase := true }
  else if item.1 ∈ latencyKeys then
    match (qt.toInt item.2).filter latencySupported with
    | some parsed => { f with latencyMs := parsed, hasLatency := true }
    | none => f
  else if item.1 = ascii "pbkeylen" then
    match (qt.toInt item.2).filter pbkeylenSupported with
    | some parsed => { f with pbkeylen := parsed, hasPbkeylen := true }
    | none => f
  else f

end LegacyUrlFields

def parseLegacyUrl (qt : Qt) (raw : List UInt8) : LegacyUrlFields :=
  if !qt.isValid raw || (qt.scheme raw).isEmpty then { endpoint := raw }
  else (qt.queryItems raw).foldl (LegacyUrlFields.take qt) { endpoint := qt.printed raw }

/-! The items of the query as both readers see them. -/

/-- The number sign of a fragment cuts one item in two for the dock. -/
inductive SeenItem
  | both (item : List UInt8)
  | cut (item rest : List UInt8)
  | fragment (item : List UInt8)
  deriving DecidableEq

namespace SeenItem

def whole : SeenItem → QueryItem
  | both item => .ofText item
  | cut item rest => .ofText (item ++ numberSign :: rest)
  | fragment item => .ofText item

def shown : SeenItem → Option QueryItem
  | both item => some (.ofText item)
  | cut item _ => some (.ofText item)
  | fragment _ => none

end SeenItem

def seenItems (query : List UInt8) : List SeenItem :=
  let items := (before numberSign query).splitOn ampersand
  let fragment := (after numberSign query).splitOn ampersand
  if numberSign ∈ query then
    items.dropLast.map .both ++
      .cut (items.getLastD []) (fragment.headD []) :: fragment.tail.map .fragment
  else items.map .both

def CString.seen (url : CString) : List SeenItem :=
  if questionMark ∈ url.bytes then seenItems (after questionMark url.bytes) else []

def CString.query (url : CString) : List UInt8 := before numberSign (after questionMark url.bytes)

theorem seenItems_whole (query : List UInt8) :
    (seenItems query).map (·.whole) = queryItems query := by
  unfold seenItems queryItems
  split_ifs with h
  · conv_rhs => rw [eq_before_after h, splitOn_cut (by decide)]
    simp [SeenItem.whole, Function.comp_def]
  · rw [before_of_not_mem h, List.map_map]
    rfl

theorem filterMap_shown_both (items : List (List UInt8)) :
    (items.map SeenItem.both).filterMap (·.shown) = items.map .ofText := by
  rw [List.filterMap_map]
  exact congrFun List.filterMap_eq_map items

theorem filterMap_shown_fragment (items : List (List UInt8)) :
    (items.map SeenItem.fragment).filterMap (·.shown) = [] := by
  rw [List.filterMap_map]
  exact List.filterMap_eq_nil_iff.mpr fun _ _ => rfl

theorem seenItems_shown (query : List UInt8) :
    (seenItems query).filterMap (·.shown) = queryItems (before numberSign query) := by
  unfold seenItems queryItems
  split_ifs with h
  · obtain ⟨init, last, hitems⟩ := List.eq_nil_or_concat'
      ((before numberSign query).splitOn ampersand) |>.resolve_left (List.splitOn_ne_nil _ _)
    dsimp only
    rw [hitems, List.filterMap_append, filterMap_shown_both, List.dropLast_concat]
    show _ ++ QueryItem.ofText ((init ++ [last]).getLastD []) :: List.filterMap _ (List.map _ _) = _
    rw [filterMap_shown_fragment]
    simp
  · exact filterMap_shown_both _

/-! What the readers leave. -/

theorem numberKeys_other :
    ∀ key ∈ [ascii "latency", ascii "pbkeylen"], key ∉ streamIdKeys ∧ key ∉ passphraseKeys := by
  decide

theorem CredentialSettings.take_latencyMs (s : CredentialSettings) (item : QueryItem) :
    (s.take item).latencyMs =
      (if item.key = ascii "latency" then
        item.value.map fun text => strtoll (urlDecodeComponent text)
      else none).getD s.latencyMs := by
  unfold take
  cases item.value with
  | none => simp
  | some text =>
    dsimp only [Option.map_some]
    by_cases hkey : item.key = ascii "latency"
    · obtain ⟨hstream, hpass⟩ := numberKeys_other item.key (by simp [hkey])
      rw [if_neg hstream, if_neg hpass, if_pos hkey, if_pos hkey]
      rfl
    · rw [if_neg hkey, if_neg hkey]
      split_ifs <;> rfl

theorem CredentialSettings.take_pbkeylen (s : CredentialSettings) (item : QueryItem) :
    (s.take item).pbkeylen =
      (if item.key = ascii "pbkeylen" then
        item.value.map fun text => strtoll (urlDecodeComponent text)
      else none).getD s.pbkeylen := by
  unfold take
  cases item.value with
  | none => simp
  | some text =>
    dsimp only [Option.map_some]
    by_cases hkey : item.key = ascii "pbkeylen"
    · obtain ⟨hstream, hpass⟩ := numberKeys_other item.key (by simp [hkey])
      rw [if_neg hstream, if_neg hpass, if_neg (by rw [hkey]; decide), if_pos hkey, if_pos hkey]
      rfl
    · rw [if_neg hkey, if_neg hkey]
      split_ifs <;> rfl

theorem splitUrlQuery_part {β : Type} (part : CredentialSettings → β)
    (taken : QueryItem → Option β)
    (htake : ∀ s item, part (s.take item) = (taken item).getD (part s))
    (hurl : ∀ s u, part { s with url := u } = part s) (s : CredentialSettings) :
    part s.splitUrlQuery = (last (fun e => taken e.whole) s.url.seen).getD (part s) := by
  unfold CredentialSettings.splitUrlQuery CString.seen
  split_ifs with h
  · rw [hurl, foldl_eq_last htake, ← seenItems_whole, last_map]
  · rfl

theorem splitUrlQuery_url (s : CredentialSettings) :
    s.splitUrlQuery.url.bytes = before questionMark s.url.bytes := by
  unfold CredentialSettings.splitUrlQuery
  split_ifs with h
  · show before 0 (before questionMark s.url.bytes) = _
    apply before_of_not_mem
    intro hmem
    exact s.url.noNul (List.takeWhile_subset _ hmem)
  · exact (before_of_not_mem h).symm

theorem Qt.decodedItems_eq (qt : Qt) {url : CString}
    (h : numberSign ∉ before questionMark url.bytes) :
    qt.decodedItems (before numberSign url.bytes) =
      (url.seen.filterMap (·.shown)).map fun item =>
        (qt.component url.query item.key, qt.component url.query (item.value.getD [])) := by
  unfold Qt.decodedItems CString.seen CString.query
  by_cases hquery : questionMark ∈ url.bytes
  · have hsplit : before numberSign url.bytes = before questionMark url.bytes ++
        questionMark :: before numberSign (after questionMark url.bytes) := by
      conv_lhs => rw [eq_before_after hquery, before_append_of_not_mem h]
      congr 1
    rw [if_pos hquery, seenItems_shown, hsplit, if_pos (by simp),
      after_append (not_mem_before _ _)]
  · have hnone : questionMark ∉ before numberSign url.bytes :=
      fun hmem => hquery (List.takeWhile_subset _ hmem)
    rw [if_neg hquery, if_neg hnone]
    rfl

/-! What one item leaves in the fields of the dock. -/

namespace LegacyUrlFields

variable (qt : Qt) (f : LegacyUrlFields) (item : List UInt8 × List UInt8)

theorem keys_apart :
    (∀ key ∈ streamIdKeys, key ∉ passphraseKeys ∧ key ∉ latencyKeys ∧ key ≠ ascii "pbkeylen") ∧
      (∀ key ∈ passphraseKeys, key ∉ latencyKeys ∧ key ≠ ascii "pbkeylen") ∧
      ∀ key ∈ latencyKeys, key ≠ ascii "pbkeylen" := by
  decide

theorem take_streamId? :
    (take qt f item).streamId? =
      (if item.1 ∈ streamIdKeys then some item.2 else none).or f.streamId? := by
  unfold take
  split_ifs
  · rfl
  · rfl
  · split <;> rfl
  · split <;> rfl
  · rfl

theorem take_passphrase? :
    (take qt f item).passphrase? =
      (if item.1 ∈ passphraseKeys then some item.2 else none).or f.passphrase? := by
  unfold take
  split_ifs with hstream hpass
  · exact absurd hpass (keys_apart.1 _ hstream).1
  · rfl
  · rfl
  · split <;> rfl
  · split <;> rfl
  · rfl

theorem take_latencyMs? :
    (take qt f item).latencyMs? =
      (if item.1 ∈ latencyKeys then (qt.toInt item.2).filter latencySupported else none).or
        f.latencyMs? := by
  unfold take
  split_ifs with hstream hlatency hpass hlatency hlatency hpbkeylen
  · exact absurd hlatency (keys_apart.1 _ hstream).2.1
  · rfl
  · exact absurd hlatency (keys_apart.2.1 _ hpass).1
  · rfl
  · cases (qt.toInt item.2).filter latencySupported <;> rfl
  · split <;> rfl
  · rfl

theorem take_pbkeylen? :
    (take qt f item).pbkeylen? =
      (if item.1 ∈ [ascii "pbkeylen"] then (qt.toInt item.2).filter pbkeylenSupported
      else none).or f.pbkeylen? := by
  simp only [List.mem_singleton]
  unfold take
  split_ifs with hstream hpbkeylen hpass hpbkeylen hlatency hpbkeylen hpbkeylen
  · exact absurd hpbkeylen (keys_apart.1 _ hstream).2.2
  · rfl
  · exact absurd hpbkeylen (keys_apart.2.1 _ hpass).2
  · rfl
  · exact absurd hpbkeylen (keys_apart.2.2 _ hlatency)
  · split <;> rfl
  · cases (qt.toInt item.2).filter pbkeylenSupported <;> rfl
  · rfl

end LegacyUrlFields

section Dock
variable {qt : Qt} (hqt : qt.Documented) {url : CString} (hvalid : qt.isValid url.bytes = true)
  (hscheme : qt.scheme url.bytes ≠ [])

include hvalid hscheme

theorem parseLegacyUrl_valid :
    parseLegacyUrl qt url.bytes = (qt.queryItems url.bytes).foldl (LegacyUrlFields.take qt)
      { endpoint := qt.printed url.bytes } := by
  apply if_neg
  simpa [hvalid] using hscheme

theorem parseLegacyUrl_endpoint :
    (parseLegacyUrl qt url.bytes).endpoint = qt.printed url.bytes := by
  have hfold : ∀ (items : List (List UInt8 × List UInt8)) (f : LegacyUrlFields),
      (items.foldl (LegacyUrlFields.take qt) f).endpoint = f.endpoint := by
    intro items f
    induction items generalizing f with
    | nil => rfl
    | cons item items ih =>
      rw [List.foldl_cons, ih]
      unfold LegacyUrlFields.take
      split_ifs <;> first | rfl | (split <;> rfl)
  rw [parseLegacyUrl_valid hvalid hscheme, hfold]

include hqt

theorem parseLegacyUrl_part (h : numberSign ∉ before questionMark url.bytes) {β : Type}
    (part : LegacyUrlFields → Option β) (taken : List UInt8 × List UInt8 → Option β)
    (htake : ∀ f item, part (LegacyUrlFields.take qt f item) = (taken item).or (part f))
    (hinit : ∀ endpoint, part { endpoint } = none) (hnameless : ∀ value, taken ([], value) = none) :
    part (parseLegacyUrl qt url.bytes) =
      last (fun e => e.shown.bind fun item => taken
        (qt.component url.query item.key, qt.component url.query (item.value.getD []))) url.seen := by
  have hfilter : ∀ item : List UInt8 × List UInt8, decide (item.1 ≠ []) = false →
      taken item = none := by
    rintro ⟨key, value⟩ hkey
    obtain rfl : key = [] := by simpa using hkey
    exact hnameless value
  rw [parseLegacyUrl_valid hvalid hscheme, foldl_or_last htake, hinit, Option.or_none,
    ← last_filter hfilter, hqt.queryItems_eq _ hvalid, last_filter hfilter, qt.decodedItems_eq h,
    last_map, last_filterMap]

end Dock

end Srtla
