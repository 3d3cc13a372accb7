import SrtlaOutput.Config.LegacyItems
import SrtlaOutput.Session.Utf8

/-! What the dock takes from a URL is compared with what the output moves into its settings. -/

namespace Srtla
open Percent Latest Utf8

/-- The URL has no `latency_ms`, which only the dock knows. -/
def CString.NoLatencyMs (qt : Qt) (url : CString) : Prop :=
  ∀ e ∈ url.seen, ∀ item ∈ e.shown, qt.component url.query item.key ≠ ascii "latency_ms"

/-- The output leaves in a part of the settings what the dock finds, and leaves it as it is,
whatever it is, where the dock finds nothing. -/
def LeftAlike {β : Type} (qt : Qt) (url : CString) (part : CredentialSettings → β)
    (found : LegacyUrlFields → Option β) : Prop :=
  ∀ s, s.url = url →
    part s.splitUrlQuery = (found (parseLegacyUrl qt url.bytes)).getD (part s)

structure ReadersAgree (qt : Qt) (url : CString) : Prop where
  endpoint : LeftAlike qt url (·.url.bytes) fun f => some f.endpoint
  streamId : LeftAlike qt url (·.streamId.bytes) (·.streamId?)
  passphrase : LeftAlike qt url (·.passphrase.bytes) (·.passphrase?)
  latencyMs : url.NoLatencyMs qt → LeftAlike qt url (·.latencyMs) (·.latencyMs?)
  pbkeylen : LeftAlike qt url (·.pbkeylen) (·.pbkeylen?)

section Last
variable (qt : Qt) (url : CString)

def LastText (keys : List (List UInt8)) : Prop :=
  ∀ e ∈ lastTaken (SeenItem.takenText keys) (SeenItem.shownText qt url.query keys) url.seen,
    e.PlainText qt url.query keys

def LastNumber (key : List UInt8) (keys : List (List UInt8)) (supported : Int → Bool) : Prop :=
  ∀ e ∈ lastTaken (SeenItem.takenNumber key) (SeenItem.shownNumber qt url.query keys supported)
      url.seen,
    e.PlainNumber qt url.query key supported

/-- No item repeats for one reader the text that an earlier one gave to the other. -/
def FreshText (keys : List (List UInt8)) : Prop :=
  Fresh (SeenItem.takenText keys) (SeenItem.shownText qt url.query keys) url.seen

def FreshNumber (key : List UInt8) (keys : List (List UInt8)) (supported : Int → Bool) : Prop :=
  Fresh (SeenItem.takenNumber key) (SeenItem.shownNumber qt url.query keys supported) url.seen

end Last

/-- A fragment comes after the query, Qt prints what is before it as it is written, and what
counts for a setting is plain. -/
structure ReadAlike (qt : Qt) (url : CString) : Prop where
  fragment : numberSign ∉ before questionMark url.bytes
  printed : qt.printed url.bytes = before questionMark url.bytes
  streamId : LastText qt url streamIdKeys
  passphrase : LastText qt url passphraseKeys
  latencyMs : url.NoLatencyMs qt →
    LastNumber qt url (ascii "latency") latencyKeys latencySupported
  pbkeylen : LastNumber qt url (ascii "pbkeylen") [ascii "pbkeylen"] pbkeylenSupported

/-- No item repeats for one reader what an earlier one gave to the other. -/
structure Unrepeated (qt : Qt) (url : CString) : Prop where
  streamId : FreshText qt url streamIdKeys
  passphrase : FreshText qt url passphraseKeys
  latencyMs : FreshNumber qt url (ascii "latency") latencyKeys latencySupported
  pbkeylen : FreshNumber qt url (ascii "pbkeylen") [ascii "pbkeylen"] pbkeylenSupported

/-! The comparison. -/

theorem bytes_injective : Function.Injective CString.bytes := by
  rintro ⟨_, _⟩ ⟨_, _⟩ rfl
  rfl

instance : Nontrivial CString := ⟨.empty, ⟨[1], by decide⟩, by decide⟩

def CredentialSettings.blank (url : CString) : CredentialSettings where
  url := url
  streamId := .empty
  passphrase := .empty
  passphraseSecret := .empty
  passphraseDpapi := .empty
  latencyMs := 0
  pbkeylen := 0

theorem not_mem_of_cut {url : CString} {item rest : List UInt8} (h : .cut item rest ∈ url.seen) :
    numberSign ∉ item := by
  unfold CString.seen seenItems at h
  split_ifs at h
  · rcases List.mem_append.mp h with hboth | hlater
    · obtain ⟨_, -, heq⟩ := List.mem_map.mp hboth
      cases heq
    · rcases List.mem_cons.mp hlater with hcut | hfragment
      · obtain ⟨rfl, -⟩ := SeenItem.cut.inj hcut
        obtain ⟨init, last, hitems⟩ := List.eq_nil_or_concat'
          ((before numberSign (after questionMark url.bytes)).splitOn ampersand)
          |>.resolve_left (List.splitOn_ne_nil _ _)
        have hlast : last ∈
            (before numberSign (after questionMark url.bytes)).splitOn ampersand := by
          rw [hitems]
          exact List.mem_append_right _ List.mem_cons_self
        rw [hitems, List.getLastD_concat]
        exact fun hmem => not_mem_before _ _ (mem_of_mem_splitOn hlast hmem)
      · obtain ⟨_, -, heq⟩ := List.mem_map.mp hfragment
        cases heq
  · obtain ⟨_, -, heq⟩ := List.mem_map.mp h
    cases heq
  · cases h

section Agree
variable {qt : Qt} (hqt : qt.Documented) {url : CString} (hvalid : qt.isValid url.bytes = true)
  (hscheme : qt.scheme url.bytes ≠ []) (hfragment : numberSign ∉ before questionMark url.bytes)

include hqt hvalid hscheme hfragment

theorem part_left_alike {β : Type} (part : CredentialSettings → β) (taken : QueryItem → Option β)
    (found : LegacyUrlFields → Option β) (shown : List UInt8 × List UInt8 → Option β)
    (hwide : ∀ o o' : Option β, (∀ s, s.url = url → o.getD (part s) = o'.getD (part s)) → o = o')
    (htaken : ∀ s item, part (s.take item) = (taken item).getD (part s))
    (hurl : ∀ (s : CredentialSettings) u, part { s with url := u } = part s)
    (hshown : ∀ f item, found (LegacyUrlFields.take qt f item) = (shown item).or (found f))
    (hinit : ∀ endpoint, found { endpoint } = none)
    (hnameless : ∀ value, shown ([], value) = none)
    {Plain : SeenItem → Prop} {f g : SeenItem → Option β} (hf : f = fun e => taken e.whole)
    (hg : g = fun e => e.shown.bind fun item =>
      shown (qt.component url.query item.key, qt.component url.query (item.value.getD [])))
    (hplain : ∀ e ∈ url.seen, ((f e).isSome || (g e).isSome) = true → (f e = g e ↔ Plain e)) :
    ((∀ e ∈ lastTaken f g url.seen, Plain e) → LeftAlike qt url part found) ∧
      (Fresh f g url.seen → LeftAlike qt url part found →
        ∀ e ∈ lastTaken f g url.seen, Plain e) := by
  have hdock := parseLegacyUrl_part hqt hvalid hscheme hfragment found shown hshown hinit hnameless
  have houtput := splitUrlQuery_part part taken htaken hurl
  rw [← hg] at hdock
  rw [← hf] at houtput
  unfold LeftAlike
  rw [hdock, ← lastTaken_congr url.seen hplain]
  constructor
  · rintro hlast s rfl
    rw [houtput, last_eq_of_lastTaken hlast]
  · intro hfresh hagree
    rw [← last_eq_iff hfresh]
    apply hwide
    rintro s rfl
    rw [← hagree s rfl, houtput]

theorem text_left_alike {keys : List (List UInt8)} (hkeys : SeenItem.PlainKeys keys)
    (hnil : [] ∉ keys) (part : CredentialSettings → CString)
    (found : LegacyUrlFields → Option (List UInt8)) (hpart : ∀ c, ∃ s, s.url = url ∧ part s = c)
    (htake : ∀ (s : CredentialSettings) (item : QueryItem),
      part (s.take item) = (item.param keys).getD (part s))
    (hurl : ∀ (s : CredentialSettings) u, part { s with url := u } = part s)
    (hshown : ∀ f item, found (LegacyUrlFields.take qt f item) =
      (if item.1 ∈ keys then some item.2 else none).or (found f))
    (hinit : ∀ endpoint, found { endpoint } = none) :
    (LastText qt url keys → LeftAlike qt url (fun s => (part s).bytes) found) ∧
      (FreshText qt url keys → LeftAlike qt url (fun s => (part s).bytes) found →
        LastText qt url keys) := by
  apply part_left_alike hqt hvalid hscheme hfragment (fun s => (part s).bytes)
    (fun item => (item.param keys).map (·.bytes)) found
    (fun item => if item.1 ∈ keys then some item.2 else none)
  · intro o o' h
    rw [← getD_congr_iff bytes_injective]
    intro c
    obtain ⟨s, hs, rfl⟩ := hpart c
    exact h s hs
  · intro s item
    rw [htake]
    cases item.param keys <;> rfl
  · exact fun s u => congrArg CString.bytes (hurl s u)
  · exact hshown
  · exact hinit
  · exact fun _ => if_neg hnil
  · rfl
  · rfl
  · intro e he
    refine SeenItem.takenText_eq_shownText_iff hqt hkeys fun item rest hcut => ?_
    exact not_mem_of_cut (hcut ▸ he)

theorem number_left_alike {key : List UInt8} {keys : List (List UInt8)} {supported : Int → Bool}
    (hkeys : SeenItem.PlainKeys keys) (hkey : key ∈ keys) (hnil : [] ∉ keys)
    (hsupported : ∀ n, supported n = true → 0 < n ∧ n < 2 ^ 63) (part : CredentialSettings → Int)
    (found : LegacyUrlFields → Option Int) (hpart : ∀ c, ∃ s, s.url = url ∧ part s = c)
    (htake : ∀ (s : CredentialSettings) (item : QueryItem), part (s.take item) =
      (if item.key = key then item.value.map fun text => strtoll (urlDecodeComponent text)
      else none).getD (part s))
    (hurl : ∀ (s : CredentialSettings) u, part { s with url := u } = part s)
    (hshown : ∀ f item, found (LegacyUrlFields.take qt f item) =
      (if item.1 ∈ keys then (qt.toInt item.2).filter supported else none).or (found f))
    (hinit : ∀ endpoint, found { endpoint } = none) :
    (LastNumber qt url key keys supported → LeftAlike qt url part found) ∧
      (FreshNumber qt url key keys supported → LeftAlike qt url part found →
        LastNumber qt url key keys supported) := by
  apply part_left_alike hqt hvalid hscheme hfragment part
    (fun item => if item.key = key then
      item.value.map fun text => strtoll (urlDecodeComponent text) else none) found
    (fun item => if item.1 ∈ keys then (qt.toInt item.2).filter supported else none)
  · intro o o' h
    rw [← getD_congr_iff Function.injective_id]
    intro c
    obtain ⟨s, hs, rfl⟩ := hpart c
    exact h s hs
  · exact htake
  · exact hurl
  · exact hshown
  · exact hinit
  · exact fun _ => if_neg hnil
  · rfl
  · rfl
  · exact fun _ _ => SeenItem.takenNumber_eq_shownNumber_iff hqt hkeys hkey hsupported

end Agree

theorem latencySupported_bounds (n : Int) (h : latencySupported n = true) : 0 < n ∧ n < 2 ^ 63 := by
  simp only [latencySupported, Bool.and_eq_true, decide_eq_true_eq] at h
  omega

theorem pbkeylenSupported_bounds (n : Int) (h : pbkeylenSupported n = true) :
    0 < n ∧ n < 2 ^ 63 := by
  simp only [pbkeylenSupported, Bool.or_eq_true, decide_eq_true_eq] at h
  omega

/-- The readers agree where all that counts is read alike, and only there if nothing is
repeated. -/
theorem readers_agree_iff {qt : Qt} (hqt : qt.Documented) {url : CString}
    (hvalid : qt.isValid url.bytes = true) (hscheme : qt.scheme url.bytes ≠ []) :
    (ReadAlike qt url → ReadersAgree qt url) ∧
      (Unrepeated qt url → ReadersAgree qt url → ReadAlike qt url) := by
  have hendpoint := parseLegacyUrl_endpoint hvalid hscheme
  have hurl : LeftAlike qt url (·.url.bytes) (fun f => some f.endpoint) ↔
      qt.printed url.bytes = before questionMark url.bytes := by
    rw [← hendpoint]
    constructor
    · intro h
      exact (h (.blank url) rfl).symm.trans (splitUrlQuery_url (.blank url))
    · rintro h s rfl
      exact (splitUrlQuery_url s).trans h.symm
  have hstreamId := fun hfragment => text_left_alike hqt hvalid hscheme hfragment
    (.of_all (by decide)) (by decide) (·.streamId) (·.streamId?)
    (fun c => ⟨{ CredentialSettings.blank url with streamId := c }, rfl, rfl⟩)
    CredentialSettings.take_streamId (fun _ _ => rfl) (LegacyUrlFields.take_streamId? qt)
    (fun _ => rfl)
  have hpassphrase := fun hfragment => text_left_alike hqt hvalid hscheme hfragment
    (.of_all (by decide)) (by decide) (·.passphrase) (·.passphrase?)
    (fun c => ⟨{ CredentialSettings.blank url with passphrase := c }, rfl, rfl⟩)
    CredentialSettings.take_passphrase (fun _ _ => rfl) (LegacyUrlFields.take_passphrase? qt)
    (fun _ => rfl)
  have hlatencyMs := fun hfragment => number_left_alike hqt hvalid hscheme hfragment
    (.of_all (by decide)) (by decide) (by decide) latencySupported_bounds (·.latencyMs)
    (·.latencyMs?)
    (fun c => ⟨{ CredentialSettings.blank url with latencyMs := c }, rfl, rfl⟩)
    CredentialSettings.take_latencyMs (fun _ _ => rfl) (LegacyUrlFields.take_latencyMs? qt)
    (fun _ => rfl)
  have hpbkeylen := fun hfragment => number_left_alike hqt hvalid hscheme hfragment
    (.of_all (by decide)) (by decide) (by decide) pbkeylenSupported_bounds (·.pbkeylen)
    (·.pbkeylen?)
    (fun c => ⟨{ CredentialSettings.blank url with pbkeylen := c }, rfl, rfl⟩)
    CredentialSettings.take_pbkeylen (fun _ _ => rfl) (LegacyUrlFields.take_pbkeylen? qt)
    (fun _ => rfl)
  constructor
  · intro h
    exact
      { endpoint := hurl.mpr h.printed
        streamId := (hstreamId h.fragment).1 h.streamId
        passphrase := (hpassphrase h.fragment).1 h.passphrase
        latencyMs := fun hno => (hlatencyMs h.fragment).1 (h.latencyMs hno)
        pbkeylen := (hpbkeylen h.fragment).1 h.pbkeylen }
  · intro hunrepeated h
    have hprinted := hurl.mp h.endpoint
    have hfragment : numberSign ∉ before questionMark url.bytes := by
      rw [← hprinted]
      exact hqt.printed_ends _
    exact
      { fragment := hfragment
        printed := hprinted
        streamId := (hstreamId hfragment).2 hunrepeated.streamId h.streamId
        passphrase := (hpassphrase hfragment).2 hunrepeated.passphrase h.passphrase
        latencyMs := fun hno => (hlatencyMs hfragment).2 hunrepeated.latencyMs (h.latencyMs hno)
        pbkeylen := (hpbkeylen hfragment).2 hunrepeated.pbkeylen h.pbkeylen }

/-- Every byte from 0x80 on is replaced where the bytes are no UTF-8. -/
def qtText (bytes : List UInt8) : List UInt8 :=
  if bytes.all (· < 0x80) || validUtf8 bytes then bytes
  else bytes.flatMap fun b => if b < 0x80 then [b] else replacement

theorem keeps_iff (bytes : List UInt8) :
    (bytes.all (· < 0x80) || validUtf8 bytes) = true ↔ WellFormed bytes := by
  rw [Bool.or_eq_true, validUtf8_iff, or_iff_right_of_imp]
  intro hlow
  exact Encoded.of_ascii (fun _ _ => trivial) fun b hb =>
    of_decide_eq_true (List.all_eq_true.mp hlow b hb)

theorem encoded_replacement : WellFormed replacement := Encoded.encode (c := '\ufffd') trivial

theorem low_replaced (bytes : List UInt8) :
    low (bytes.flatMap fun b => if b < 0x80 then [b] else replacement) = low bytes := by
  induction bytes with
  | nil => rfl
  | cons b bytes ih =>
    rw [List.flatMap_cons]
    split_ifs with hb
    · rw [List.singleton_append, low_cons_of_lt hb, low_cons_of_lt hb, ih]
    · rw [low_cons_of_not_lt hb, ← ih]
      exact List.filter_append ..

theorem encoded_replaced (bytes : List UInt8) :
    WellFormed (bytes.flatMap fun b => if b < 0x80 then [b] else replacement) := by
  induction bytes with
  | nil => exact Encoded.nil
  | cons b bytes ih =>
    rw [List.flatMap_cons]
    split_ifs with hb
    · exact Encoded.cons hb trivial ih
    · exact encoded_replacement.append ih

theorem replacement_infix {bytes : List UInt8} (h : ¬WellFormed bytes) :
    replacement <:+: bytes.flatMap fun b => if b < 0x80 then [b] else replacement := by
  have hhigh : ∃ b ∈ bytes, ¬b < 0x80 := by
    by_contra hall
    push Not at hall
    exact h (Encoded.of_ascii (fun _ _ => trivial) hall)
  obtain ⟨b, hb, hhigh⟩ := hhigh
  obtain ⟨front, back, rfl⟩ := List.append_of_mem hb
  rw [List.flatMap_append, List.flatMap_cons, if_neg hhigh]
  exact ⟨_, _, List.append_assoc ..⟩

/-- Qt as far as it is needed for a URL that it prints as it is written. -/
def plainQt : Qt where
  isValid _ := true
  scheme := before 58
  printed raw := before questionMark (before numberSign raw)
  queryItems raw :=
    let body := before numberSign raw
    if questionMark ∈ body then
      let query := after questionMark body
      (queryItems query).map fun item =>
        (qtText (componentBytes query item.key), qtText (componentBytes query (item.value.getD [])))
    else []
  component query text := qtText (componentBytes query text)
  toInt text :=
    if text ≠ [] ∧ (latin1 text).all (·.isDigit) = true ∧ decimalValue (latin1 text) < 2 ^ 31 then
      some (decimalValue (latin1 text))
    else none

theorem plainQt_documented : plainQt.Documented where
  printed_ends raw hmem := not_mem_before _ _ (List.takeWhile_subset _ hmem)
  queryItems_eq _ _ := rfl
  component_utf8 query text := by
    show WellFormed (qtText _)
    unfold qtText
    split_ifs with hvalid
    · exact (keeps_iff _).mp hvalid
    · exact encoded_replaced _
  component_low query text := by
    show low (qtText _) = _
    unfold qtText
    split_ifs
    · rfl
    · exact low_replaced _
  component_eq query text h := by
    have hwellFormed : WellFormed (componentBytes query text) := by
      obtain ⟨cs, -, hcs⟩ := h
      exact ⟨cs, fun _ _ => trivial, hcs⟩
    exact if_pos ((keeps_iff _).mpr hwellFormed)
  component_replaced query text h := by
    have hinvalid : ¬WellFormed (componentBytes query text) :=
      fun hwellFormed => h (if_pos ((keeps_iff _).mpr hwellFormed))
    have hreplaced : plainQt.component query text =
        (componentBytes query text).flatMap fun b => if b < 0x80 then [b] else replacement :=
      if_neg fun hvalid => hinvalid ((keeps_iff _).mp hvalid)
    rw [hreplaced]
    exact replacement_infix hinvalid
  toInt_numeral text n h := by
    obtain ⟨⟨hne, hdigits, -⟩, hn⟩ := Option.ite_none_right_eq_some.mp h
    obtain rfl := Option.some.inj hn
    exact ⟨
      { lead := []
        sign := []
        digits := latin1 text
        rest := []
        text_eq := by simp
        lead_spaces := by simp
        sign_mem := by decide
        digits_ne_nil := by simpa [latin1] using hne
        digits_decimal := List.all_eq_true.mp hdigits
        rest_spaces := by simp
        value := rfl }⟩

def spacedUrl : CString := ⟨ascii "srtla://h?latency=500&passphrase=a+b", by decide⟩

def fragmentUrl : CString := ⟨ascii "srtla://h?streamid=a#b", by decide⟩

/-- A blank is escaped in it, and the fragment is after an item that is for neither reader. -/
def plainUrl : CString := ⟨ascii "srtla://h?passphrase=a%20b&latency=500&x#top", by decide⟩

theorem readers_agree_described :
    (Unrepeated plainQt plainUrl ∧ ReadAlike plainQt plainUrl) ∧ ReadersAgree plainQt plainUrl := by
  have hvalid : plainQt.isValid plainUrl.bytes = true := rfl
  have hiff := readers_agree_iff plainQt_documented hvalid (by decide)
  have hunrepeated : Unrepeated plainQt plainUrl :=
    { streamId := ⟨by decide, by decide⟩
      passphrase := ⟨by decide, by decide⟩
      latencyMs := ⟨by decide, by decide⟩
      pbkeylen := ⟨by decide, by decide⟩ }
  have halike : ReadAlike plainQt plainUrl :=
    { fragment := by decide
      printed := by decide
      streamId := by
        intro e he
        have hnone : lastTaken (SeenItem.takenText streamIdKeys)
            (SeenItem.shownText plainQt plainUrl.query streamIdKeys) plainUrl.seen = none := by
          decide
        rw [hnone] at he
        cases he
      passphrase := by
        intro e he
        have hlast : lastTaken (SeenItem.takenText passphraseKeys)
            (SeenItem.shownText plainQt plainUrl.query passphraseKeys) plainUrl.seen =
              some (.both (ascii "passphrase=a%20b")) := by decide
        obtain rfl := Option.some.inj (hlast.symm.trans he)
        refine ⟨_, ascii "passphrase", ascii "a%20b", rfl, by decide, by decide, ?_, by decide,
          by decide⟩
        refine ⟨by decide, ?_, .inr (by decide)⟩
        have hlow : ((decode id (ascii "a%20b")).all fun b => b < 0x80) = true := by decide
        exact Encoded.of_ascii (fun _ _ => trivial) (by simpa using hlow)
      latencyMs := by
        intro _ e he
        have hlast : lastTaken (SeenItem.takenNumber (ascii "latency"))
            (SeenItem.shownNumber plainQt plainUrl.query latencyKeys latencySupported)
              plainUrl.seen = some (.both (ascii "latency=500")) := by decide
        obtain rfl := Option.some.inj (hlast.symm.trans he)
        refine ⟨ascii "500", 500, by decide, by decide, by decide, ?_⟩
        rintro _ ⟨⟩
        exact .inl (by decide)
      pbkeylen := by
        intro e he
        have hnone : lastTaken (SeenItem.takenNumber (ascii "pbkeylen"))
            (SeenItem.shownNumber plainQt plainUrl.query [ascii "pbkeylen"] pbkeylenSupported)
              plainUrl.seen = none := by decide
        rw [hnone] at he
        cases he }
  have hagree := hiff.1 halike
  exact ⟨⟨hunrepeated, hiff.2 hunrepeated hagree⟩, hagree⟩

/-- The output reads a space for a `+`, and takes a fragment for part of the value. -/
theorem readers_disagree :
    plainQt.Documented ∧ (CredentialSettings.blank spacedUrl).splitUrlQuery.passphrase.bytes =
        ascii "a b" ∧
      (parseLegacyUrl plainQt spacedUrl.bytes).passphrase = ascii "a+b" ∧
      ¬ ReadersAgree plainQt spacedUrl ∧
      (CredentialSettings.blank fragmentUrl).splitUrlQuery.streamId.bytes = ascii "a#b" ∧
      (parseLegacyUrl plainQt fragmentUrl.bytes).streamId = ascii "a" ∧
      ¬ ReadersAgree plainQt fragmentUrl := by
  refine ⟨plainQt_documented, by decide, by decide, fun h => ?_, by decide, by decide, fun h => ?_⟩
  · exact absurd (h.passphrase (.blank spacedUrl) rfl) (by decide)
  · exact absurd (h.streamId (.blank fragmentUrl) rfl) (by decide)

end Srtla
