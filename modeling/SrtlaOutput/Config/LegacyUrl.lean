import SrtlaOutput.Lib.Latest
import SrtlaOutput.Lib.Percent
import SrtlaOutput.Config.Agreement

/-! The URL of an older version has the credentials in its query. The output moves them into
settings of their own before it reads any. -/

namespace Srtla
open Percent Latest

structure CString where
  bytes : List UInt8
  noNul : 0 ∉ bytes
  deriving DecidableEq

namespace CString

def empty : CString := ⟨[], List.not_mem_nil⟩

def ofBytes (bytes : List UInt8) : CString where
  bytes := before 0 bytes
  noNul := not_mem_before 0 bytes

theorem ofBytes_bytes (c : CString) : ofBytes c.bytes = c := by
  rcases c with ⟨bytes, hbytes⟩
  unfold ofBytes
  congr
  exact before_of_not_mem hbytes

end CString

structure CredentialSettings where
  url : CString
  streamId : CString
  passphrase : CString
  passphraseSecret : CString
  passphraseDpapi : CString
  latencyMs : Int
  pbkeylen : Int
  deriving DecidableEq

/-! The query of the URL. -/

def ascii (text : String) : List UInt8 := text.toList.map Char.toUInt8

def ampersand : UInt8 := 38
def equalsSign : UInt8 := 61
def questionMark : UInt8 := 63

def plusToSpace (b : UInt8) : UInt8 := if b = 43 then 32 else b

def urlDecodeComponent (value : List UInt8) : List UInt8 := decode plusToSpace value

/-- `strtoll` in base 10, where a `long long` has 64 bits. -/
def strtoll (bytes : List UInt8) : Int :=
  let text := (bytes.map Char.ofUInt8).dropWhile isSpaceChar
  let digits := if text.head? = some '-' ∨ text.head? = some '+' then text.tail else text
  let n := (digits.takeWhile (·.isDigit)).foldl (fun n c => 10 * n + (c.toNat - '0'.toNat)) 0
  if text.head? = some '-' then max (-(n : Int)) (-2 ^ 63) else min (n : Int) (2 ^ 63 - 1)

structure QueryItem where
  key : List UInt8
  value : Option (List UInt8)
  deriving DecidableEq, Repr

def QueryItem.ofText (item : List UInt8) : QueryItem where
  key := before equalsSign item
  value := if equalsSign ∈ item then some (after equalsSign item) else none

def queryItems (query : List UInt8) : List QueryItem :=
  (query.splitOn ampersand).map QueryItem.ofText

def streamIdKeys : List (List UInt8) := [ascii "streamid", ascii "stream_id"]
def passphraseKeys : List (List UInt8) := [ascii "passphrase", ascii "password"]

instance decidableMemKeys (key : List UInt8) (keys : List (List UInt8)) : Decidable (key ∈ keys) :=
  inferInstance

namespace CredentialSettings

def take (s : CredentialSettings) (item : QueryItem) : CredentialSettings :=
  match item.value.map urlDecodeComponent with
  | none => s
  | some value =>
    if item.key ∈ streamIdKeys then { s with streamId := .ofBytes value }
    else if item.key ∈ passphraseKeys then { s with passphrase := .ofBytes value }
    else if item.key = ascii "latency" then { s with latencyMs := strtoll value }
    else if item.key = ascii "pbkeylen" then { s with pbkeylen := strtoll value }
    else s

def splitUrlQuery (s : CredentialSettings) : CredentialSettings :=
  if questionMark ∈ s.url.bytes then
    { (queryItems (after questionMark s.url.bytes)).foldl take s with
      url := .ofBytes (before questionMark s.url.bytes) }
  else s

end CredentialSettings

/-! The passphrase. -/

def storeSrtlaPassphrase (plaintext : List UInt8) : List UInt8 := plaintext
def loadSrtlaPassphrase (stored : List UInt8) : List UInt8 := stored

namespace CredentialSettings

/-- `normalize_passphrase_setting`, with its reply. -/
def normalizePassphrase (s : CredentialSettings) : CredentialSettings × Bool :=
  if s.passphrase ≠ .empty then
    ({ s with
        passphraseSecret := .ofBytes (storeSrtlaPassphrase s.passphrase.bytes)
        passphrase := .empty
        passphraseDpapi := .empty }, false)
  else if s.passphraseSecret ≠ .empty then ({ s with passphraseDpapi := .empty }, false)
  else (s, decide (s.passphraseDpapi ≠ .empty))

def passphraseFrom (s : CredentialSettings) : List UInt8 × Bool :=
  if s.passphraseSecret ≠ .empty then (loadSrtlaPassphrase s.passphraseSecret.bytes, false)
  else if s.passphrase ≠ .empty then (loadSrtlaPassphrase s.passphrase.bytes, false)
  else ([], decide (s.passphraseDpapi ≠ .empty))

/-- Both steps, as the output takes them before it reads a setting. -/
def migrate (s : CredentialSettings) : CredentialSettings := s.splitUrlQuery.normalizePassphrase.1

end CredentialSettings

/-! A query that is written for some values. -/

def isUnreserved (b : UInt8) : Bool :=
  (48 ≤ b && b ≤ 57) || (65 ≤ b && b ≤ 90) || (97 ≤ b && b ≤ 122) ||
    b = 45 || b = 46 || b = 95 || b = 126

/-- A parameter as it stands in a query: only unreserved bytes stand for themselves in the text
of the value. -/
structure QueryPair where
  key : List UInt8
  value : CString
  text : List UInt8
  encodes : Encodes (isUnreserved · = true) text value.bytes
  separated : ampersand ∉ key ∧ equalsSign ∉ key

def QueryPair.item (p : QueryPair) : QueryItem := ⟨p.key, some p.text⟩

def queryText (pairs : List QueryPair) : List UInt8 :=
  [ampersand].intercalate (pairs.map fun p => p.key ++ equalsSign :: p.text)

theorem not_mem_text (p : QueryPair) {b : UInt8} (hplain : isUnreserved b = false)
    (hpercent : b ≠ percent) (hhex : hexValue b = none) : b ∉ p.text := by
  apply p.encodes.not_mem _ hpercent hhex
  rw [hplain]
  exact Bool.false_ne_true

theorem ofText_pair (p : QueryPair) :
    QueryItem.ofText (p.key ++ equalsSign :: p.text) = p.item := by
  unfold QueryItem.ofText
  rw [before_append p.separated.2, after_append p.separated.2, if_pos (by simp)]
  rfl

theorem queryItems_queryText {pairs : List QueryPair} (h : pairs ≠ []) :
    queryItems (queryText pairs) = pairs.map QueryPair.item := by
  have hne : pairs.map (fun p => p.key ++ equalsSign :: p.text) ≠ [] := by simpa using h
  have hseparated : ∀ item ∈ pairs.map (fun p => p.key ++ equalsSign :: p.text),
      ampersand ∉ item := by
    intro item hitem
    obtain ⟨p, -, rfl⟩ := List.mem_map.mp hitem
    rw [List.mem_append, List.mem_cons, not_or, not_or]
    exact ⟨p.separated.1, by decide, not_mem_text p (by decide) (by decide) (by decide)⟩
  rw [queryItems, queryText, List.splitOn_intercalate _ hseparated hne, List.map_map]
  exact List.map_congr_left fun p _ => ofText_pair p

theorem urlDecodeComponent_text (p : QueryPair) : urlDecodeComponent p.text = p.value.bytes := by
  apply p.encodes.decode
  intro b hb
  refine ⟨?_, ?_⟩
  · rintro rfl
    cases hb
  · rw [plusToSpace, if_neg]
    rintro rfl
    cases hb

/-! What the query leaves in the settings. -/

def QueryItem.param (keys : List (List UInt8)) (item : QueryItem) : Option CString :=
  if item.key ∈ keys then item.value.map fun text => .ofBytes (urlDecodeComponent text) else none

theorem keys_disjoint {key : List UInt8} (h : key ∈ streamIdKeys) : key ∉ passphraseKeys := by
  revert key
  decide

namespace CredentialSettings

theorem take_streamId (s : CredentialSettings) (item : QueryItem) :
    (s.take item).streamId = (item.param streamIdKeys).getD s.streamId := by
  unfold take QueryItem.param
  cases item.value with
  | none => simp
  | some text =>
    dsimp only [Option.map_some]
    split_ifs <;> rfl

theorem take_passphrase (s : CredentialSettings) (item : QueryItem) :
    (s.take item).passphrase = (item.param passphraseKeys).getD s.passphrase := by
  unfold take QueryItem.param
  cases item.value with
  | none => simp
  | some text =>
    dsimp only [Option.map_some]
    split_ifs with hstream hpass
    · exact absurd hpass (keys_disjoint hstream)
    · rfl
    · rfl
    all_goals rfl

theorem take_passphraseSecret (s : CredentialSettings) (item : QueryItem) :
    (s.take item).passphraseSecret = s.passphraseSecret := by
  unfold take
  cases item.value with
  | none => rfl
  | some text =>
    dsimp only [Option.map_some]
    split_ifs <;> rfl

theorem foldl_take_passphraseSecret (items : List QueryItem) (s : CredentialSettings) :
    (items.foldl take s).passphraseSecret = s.passphraseSecret := by
  induction items generalizing s with
  | nil => rfl
  | cons item items ih => rw [List.foldl_cons, ih, take_passphraseSecret]

theorem splitUrlQuery_eq {s : CredentialSettings} {base : CString} {query : List UInt8}
    (hbase : questionMark ∉ base.bytes) (hurl : s.url.bytes = base.bytes ++ questionMark :: query) :
    s.splitUrlQuery = { (queryItems query).foldl take s with url := base } := by
  unfold splitUrlQuery
  rw [hurl, if_pos (by simp), before_append hbase, after_append hbase, CString.ofBytes_bytes]

theorem splitUrlQuery_of_no_query {s : CredentialSettings} (h : questionMark ∉ s.url.bytes) :
    s.splitUrlQuery = s := if_neg h

theorem normalizePassphrase_spec (s : CredentialSettings) :
    s.normalizePassphrase.1.url = s.url ∧ s.normalizePassphrase.1.streamId = s.streamId ∧
      s.normalizePassphrase.1.passphrase = .empty ∧
      s.normalizePassphrase.1.passphraseFrom.1 =
        (if s.passphrase ≠ .empty then s.passphrase else s.passphraseSecret).bytes := by
  unfold normalizePassphrase
  by_cases hplain : s.passphrase = .empty
  · rw [if_neg (not_not.mpr hplain), if_neg (not_not.mpr hplain)]
    split_ifs with hsecret
    · refine ⟨rfl, rfl, hplain, ?_⟩
      rw [passphraseFrom, if_pos hsecret]
      rfl
    · refine ⟨rfl, rfl, hplain, ?_⟩
      rw [passphraseFrom, if_neg hsecret, if_neg (not_not.mpr hplain), not_not.mp hsecret]
      rfl
  · rw [if_pos hplain, if_pos hplain]
    refine ⟨rfl, rfl, rfl, ?_⟩
    rw [passphraseFrom, storeSrtlaPassphrase, CString.ofBytes_bytes, if_pos hplain]
    rfl

theorem migrate_migrate {s : CredentialSettings} (h : questionMark ∉ s.splitUrlQuery.url.bytes) :
    s.migrate.migrate = s.migrate := by
  -- the second time there is neither a query nor a plain passphrase
  have hurl : s.migrate.url = s.splitUrlQuery.url := by
    unfold migrate normalizePassphrase
    split_ifs <;> rfl
  have hsplit : s.migrate.splitUrlQuery = s.migrate := by
    apply splitUrlQuery_of_no_query
    rwa [hurl]
  unfold migrate at hsplit ⊢
  rw [hsplit]
  unfold normalizePassphrase
  split_ifs with hplain hsecret hsecret' <;> simp_all

end CredentialSettings

def lastValue (keys : List (List UInt8)) (pairs : List QueryPair) : Option CString :=
  last (fun p => if p.key ∈ keys then some p.value else none) pairs

theorem param_item (keys : List (List UInt8)) (p : QueryPair) :
    p.item.param keys = if p.key ∈ keys then some p.value else none := by
  unfold QueryItem.param QueryPair.item
  dsimp only [Option.map_some]
  rw [urlDecodeComponent_text, CString.ofBytes_bytes]

theorem last_param (keys : List (List UInt8)) (pairs : List QueryPair) :
    last (QueryItem.param keys) (queryItems (queryText pairs)) = lastValue keys pairs := by
  by_cases h : pairs = []
  · subst h
    -- the one item of the empty query has no value
    show last (QueryItem.param keys) [⟨[], none⟩] = none
    simp [last, QueryItem.param]
  · rw [queryItems_queryText h, last_map]
    exact congrArg (last · pairs) (funext (param_item keys))

/-- The credentials of the URL are in their settings, and none is left in the URL. -/
theorem legacy_url_migrated (base : CString) (hbase : questionMark ∉ base.bytes)
    (pairs : List QueryPair)
    (hnonempty : ∀ p ∈ pairs, p.key ∈ passphraseKeys → p.value ≠ .empty)
    {s : CredentialSettings} (hurl : s.url.bytes = base.bytes ++ questionMark :: queryText pairs) :
    s.migrate.url = base ∧
      s.migrate.streamId = (lastValue streamIdKeys pairs).getD s.streamId ∧
      s.migrate.passphraseFrom.1 = ((lastValue passphraseKeys pairs).getD
        (if s.passphrase ≠ .empty then s.passphrase else s.passphraseSecret)).bytes ∧
      s.migrate.passphrase = .empty ∧ s.migrate.migrate = s.migrate := by
  have hsplit := CredentialSettings.splitUrlQuery_eq hbase hurl
  have hstream := foldl_eq_last CredentialSettings.take_streamId (queryItems (queryText pairs)) s
  have hpass := foldl_eq_last CredentialSettings.take_passphrase (queryItems (queryText pairs)) s
  rw [last_param] at hstream hpass
  have hsecret := CredentialSettings.foldl_take_passphraseSecret (queryItems (queryText pairs)) s
  obtain ⟨hurl', hstream', hplain, hfrom⟩ := s.splitUrlQuery.normalizePassphrase_spec
  rw [hsplit] at hurl' hstream' hfrom
  refine ⟨?_, ?_, ?_, hplain, ?_⟩
  · rw [CredentialSettings.migrate, hsplit]
    exact hurl'
  · rw [CredentialSettings.migrate, hsplit]
    exact hstream'.trans hstream
  · rw [CredentialSettings.migrate, hsplit, hfrom, hpass, hsecret]
    -- a passphrase of the query is not empty
    cases hlast : lastValue passphraseKeys pairs with
    | none => rfl
    | some value =>
      obtain ⟨p, hp, hvalue⟩ := last_eq_some hlast
      rw [Option.ite_none_right_eq_some] at hvalue
      obtain ⟨hkey, hvalue⟩ := hvalue
      rw [Option.getD_some, if_pos]
      · rfl
      · rw [← Option.some.inj hvalue]
        exact hnonempty p hp hkey
  · apply CredentialSettings.migrate_migrate
    rw [hsplit]
    exact hbase

/-- A `+` in a value comes out of its escape, and the second alias is the one that counts. -/
theorem legacy_url_migrated_alias :
    let value : CString := ⟨ascii "a+b", by decide⟩
    let first : QueryPair := ⟨ascii "password", ⟨ascii "x", by decide⟩, ascii "x",
      encode_encodes isUnreserved (ascii "x"), by decide⟩
    let second : QueryPair := ⟨ascii "passphrase", value, ascii "a%2Bb",
      encode_encodes isUnreserved (ascii "a+b"), by decide⟩
    let s : CredentialSettings :=
      { url := ⟨ascii "srtla://h?password=x&passphrase=a%2Bb", by decide⟩
        streamId := .empty
        passphrase := .empty
        passphraseSecret := .empty
        passphraseDpapi := .empty
        latencyMs := 2000
        pbkeylen := 16 }
    s.migrate.url = ⟨ascii "srtla://h", by decide⟩ ∧
      s.migrate.passphraseFrom.1 = ((lastValue passphraseKeys [first, second]).getD
        (if s.passphrase ≠ .empty then s.passphrase else s.passphraseSecret)).bytes := by
  intro value first second s
  have h := legacy_url_migrated ⟨ascii "srtla://h", by decide⟩ (by decide) [first, second]
    (by decide) (s := s) (by decide)
  exact ⟨h.1, h.2.2.1⟩

end Srtla
