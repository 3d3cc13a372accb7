import SrtlaOutput.Dock.Defs
import SrtlaOutput.Engine.Frame
import SrtlaOutput.Engine.Ipv4
import SrtlaOutput.Engine.Links
import SrtlaOutput.Engine.Visible
import SrtlaOutput.Lib.Schedule

/-! How the selection of the dock and the flags of the engine keep together. The dock
remembers an id for ever, the engine only from one poll to the next: an adapter that comes
back is new to the engine, and stays disabled until the operator toggles it. -/

namespace Srtla
open FirstMatch Schedule
variable {F A : Type}

def linkFlags (id : String) (links : List EngineLinkConfig) : List Bool :=
  (links.filter (·.id == stableLinkId id)).map (·.enabled)

theorem true_mem_linkFlags {id : String} {links : List EngineLinkConfig} :
    true ∈ linkFlags id links ↔ ∃ l ∈ links, l.id = stableLinkId id ∧ l.enabled = true := by
  simp only [linkFlags, List.mem_map, List.mem_filter, beq_iff_eq, and_assoc]

theorem linkFlags_of_setup {links links' : List EngineLinkConfig}
    (h : links.map linkSetup = links'.map linkSetup) (id : String) :
    linkFlags id links = linkFlags id links' := by
  have hsetup (links : List EngineLinkConfig) : linkFlags id links =
      ((links.map linkSetup).filter fun s => s.1 == stableLinkId id).map fun s => s.2.2.2 := by
    rw [List.filter_map, List.map_map]
    rfl
  rw [hsetup, hsetup, h]

theorem carried_flag (id : String) (old : List EngineLinkConfig) :
    (old.find? (·.id == stableLinkId id)).any (·.enabled) = (linkFlags id old).head?.getD false := by
  rw [linkFlags, List.head?_map, List.head?_filter]
  cases old.find? (·.id == stableLinkId id) <;> rfl

theorem linkFlags_toggle_of_ne {id : String} {linkId : UInt64} (h : linkId ≠ stableLinkId id)
    (enabled : Bool) (links : List EngineLinkConfig) :
    linkFlags id (modifyFirst (·.id == linkId) (toggleLink enabled) links) = linkFlags id links := by
  rw [linkFlags, linkFlags, filter_modifyFirst]
  intro l hl
  obtain ⟨hid, -⟩ := toggleLink_fields enabled l
  have hother : l.id ≠ stableLinkId id := by
    rw [beq_iff_eq.mp hl]
    exact h
  exact ⟨by simpa using hother, by simpa [hid] using hother⟩

theorem linkFlags_toggle {id : String} {links : List EngineLinkConfig} {was : Bool}
    (h : linkFlags id links = [was]) (enabled : Bool) :
    linkFlags id (modifyFirst (·.id == stableLinkId id) (toggleLink enabled) links) = [enabled] := by
  obtain ⟨l, hfilter, -⟩ : ∃ l, links.filter (·.id == stableLinkId id) = [l] ∧ l.enabled = was := by
    rw [linkFlags, List.map_eq_cons_iff] at h
    obtain ⟨l, rest, hfilter, hl, hrest⟩ := h
    obtain rfl := List.map_eq_nil_iff.mp hrest
    exact ⟨l, hfilter, hl⟩
  have hone : links.countP (·.id == stableLinkId id) ≤ 1 := by
    rw [List.countP_eq_length_filter, hfilter]
    exact Nat.le_refl 1
  have hkeeps : ((·.id == stableLinkId id) ∘ fun l : EngineLinkConfig =>
      if l.id == stableLinkId id then toggleLink enabled l else l) = (·.id == stableLinkId id) := by
    funext l
    obtain ⟨hid, -⟩ := toggleLink_fields enabled l
    by_cases hl : l.id = stableLinkId id
    · simp [hl, hid]
    · simp [hl]
  have hl : l.id = stableLinkId id := by
    have hmem : l ∈ links.filter (·.id == stableLinkId id) := by
      rw [hfilter]
      exact List.mem_singleton_self l
    exact beq_iff_eq.mp (List.mem_filter.mp hmem).2
  obtain ⟨-, -, -, hflag⟩ := toggleLink_fields enabled l
  rw [linkFlags, modifyFirst_eq_map_of_countP hone, List.filter_map, hkeeps, hfilter]
  simp [hl, hflag]

namespace Enumeration

def lists (found : Enumeration) (id : String) : Bool := found.adapters.any (·.id == id)

def Alone (found : Enumeration) (id : String) : Prop :=
  ∀ a ∈ found.adapters, stableLinkId a.id = stableLinkId id → a.id = id

theorem filter_alone {found : Enumeration} {id : String} (h : found.Alone id) :
    found.adapters.filter (fun a => stableLinkId a.id == stableLinkId id) =
      (found.adapters.find? (·.id == id)).toList := by
  have hsame : found.adapters.filter (fun a => stableLinkId a.id == stableLinkId id) =
      found.adapters.filter (·.id == id) := by
    apply List.filter_congr
    intro a ha
    by_cases hid : a.id = id
    · simp [hid]
    · have hne : stableLinkId a.id ≠ stableLinkId id := fun heq => hid (h a ha heq)
      simp [hid, hne]
  have hone : (found.adapters.filter (·.id == id)).length ≤ 1 := by
    rw [← List.countP_eq_length_filter]
    exact countP_key_le_one found.distinct id
  rw [hsame, ← List.head?_filter]
  rcases hfilter : found.adapters.filter (·.id == id) with _ | ⟨a, _ | ⟨b, rest⟩⟩
  · rw [hfilter]
    rfl
  · rw [hfilter]
    rfl
  · rw [hfilter] at hone
    simp at hone

theorem linkFlags_map {found : Enumeration} {id : String} (h : found.Alone id)
    {link : NetworkAdapter → EngineLinkConfig} (hlink : ∀ a, (link a).id = stableLinkId a.id)
    {flag : Bool} (hflag : ∀ a ∈ found.adapters, a.id = id → (link a).enabled = flag) :
    linkFlags id (found.adapters.map link) = if found.lists id then [flag] else [] := by
  have htest : ((·.id == stableLinkId id) ∘ link) =
      fun a => stableLinkId a.id == stableLinkId id := by
    funext a
    rw [Function.comp_apply, hlink]
  rw [linkFlags, List.filter_map, htest, filter_alone h, lists]
  rcases hfind : found.adapters.find? (·.id == id) with _ | a
  · have hnone : found.adapters.any (·.id == id) = false := by
      rw [← List.isSome_find?, hfind]
      rfl
    rw [hfind, hnone]
    rfl
  · have hsome : found.adapters.any (·.id == id) = true := by
      rw [← List.isSome_find?, hfind]
      rfl
    have hid : a.id = id := by simpa using List.find?_some hfind
    rw [hfind, hsome, if_pos rfl]
    show [(link a).enabled] = [flag]
    rw [hflag a (List.mem_of_find?_eq_some hfind) hid]

end Enumeration

namespace SrtlaDock

theorem tryEmplace_eq_true (selected : String → Option Bool) (key id : String) :
    tryEmplace selected key false id = some true ↔ selected id = some true := by
  unfold tryEmplace
  rcases hkey : selected key with _ | b
  · by_cases hid : id = key
    · subst hid
      simp [hkey]
    · simp [hid]
  · rfl

theorem refresh_enabledLinks (d : SrtlaDock) (found : Enumeration) (id : String) :
    (d.refresh found.adapters).enabledLinks id = d.enabledLinks id := by
  have hfold (adapters : List NetworkAdapter) (hoff : ∀ a ∈ adapters, a.enabled = false)
      (selected : String → Option Bool) :
      adapters.foldl (fun selected a => tryEmplace selected a.id a.enabled) selected id = some true ↔
        selected id = some true := by
    -- every adapter is offered with its flag off, so no selection is added
    induction adapters generalizing selected with
    | nil => rfl
    | cons a adapters ih =>
      rw [List.foldl_cons, ih fun b hb => hoff b (List.mem_cons_of_mem a hb),
        hoff a List.mem_cons_self]
      exact tryEmplace_eq_true selected a.id id
  rw [enabledLinks, enabledLinks, Bool.eq_iff_iff, beq_iff_eq, beq_iff_eq]
  exact hfold found.adapters found.optIn d.selected

end SrtlaDock

namespace Engine
variable [IpAddr A]

theorem setLinkEnabled_of_zero {e : Engine F A} {linkId : UInt64} {enabled : Bool}
    (h : (e.setLinkEnabled linkId enabled).2 = 0) :
    e.config.links.any (·.id == linkId) = true ∧
      (e.setLinkEnabled linkId enabled).1.config.links =
        modifyFirst (·.id == linkId) (toggleLink enabled) e.config.links := by
  simp only [setLinkEnabled] at h ⊢
  split_ifs at h ⊢ with hunknown hlast
  · cases h
  · cases h
  · refine ⟨by simpa using hunknown, ?_⟩
    rw [tellRunner_config, ensureRunner_config]
    rfl

/-- A call that is neither the operator's nor the poll's, on a document that agrees with
the flags. -/
def Bystander (e : Engine F A) : Input F A → Prop
  | .start => False
  | .stop => False
  | .setLinkEnabled _ _ => False
  | .updateAdapters _ => False
  | .applyAbr _ => e.SyncAgrees
  | .copyStatsJson => e.SyncAgrees
  | _ => True

variable [F64 F]

theorem Bystander.setup {e : Engine F A} {i : Input F A} (h : e.Bystander i) :
    (e.step i).1.config.links.map linkSetup = e.config.links.map linkSetup := by
  cases i with
  | start => exact h.elim
  | stop => exact h.elim
  | setLinkEnabled linkId enabled => exact h.elim
  | updateAdapters adapters => exact h.elim
  | submitSrtDatagram data => exact congrArg _ ((submitSrtDatagram_linkBlind data).links e)
  | receiveSrtDatagram capacity => exact congrArg _ ((receiveSrtDatagram_linkBlind capacity).links e)
  | updateLinkStats stats =>
    cases stats with
    | null => rfl
    | invalid => rfl
    | array updates => exact writeStats_setup updates _
    | object config => exact writeStats_setup _ _
  | updateSrtStats stats => exact congrArg _ ((updateSrtStats_linkBlind stats).links e)
  | setAudioBitrate bps => rfl
  | setVideoBitrate bps => rfl
  | setMaxVideoBitrate bps => exact congrArg _ ((setMaxVideoBitrate_linkBlind bps).links e)
  | setSessionState state error =>
    exact congrArg _ ((setSessionState_linkBlind state error).links e)
  | applyAbr nowMs => exact sync_setup h
  | copyStatsJson => exact sync_setup h
  | lastError => rfl
  | runner effect => rfl

end Engine

namespace DockedOutput

/-- What every event keeps: the engine has the selected flag of an adapter that was held,
and a disabled link, or none, for one that was not. -/
def Agrees (id : String) (sofar : Bool) (s : DockedOutput F A) : Prop :=
  linkFlags id s.engine.config.links = [] ∧ sofar = false ∨
    linkFlags id s.engine.config.links = [sofar && s.dock.enabledLinks id]

theorem Agrees.enabled_iff {id : String} {sofar : Bool} {s : DockedOutput F A}
    (h : s.Agrees id sofar) :
    (∃ l ∈ s.engine.config.links, l.id = stableLinkId id ∧ l.enabled = true) ↔
      s.dock.selected id = some true ∧ sofar = true := by
  rw [← true_mem_linkFlags]
  rcases h with ⟨hnone, rfl⟩ | hone
  · rw [hnone]
    simp
  · rw [hone]
    simp [SrtlaDock.enabledLinks, and_comm]

section Events
variable [IpAddr A]

def Succeeds (id : String) (s : DockedOutput F A) : DockEvent F A → Prop
  | .refreshAdapters _ output => output.Alone id
  | .itemChanged key enabled =>
    (s.engine.setLinkEnabled (stableLinkId key) enabled).2 = 0 ∧
      (stableLinkId key = stableLinkId id → key = id)
  | .call i => s.engine.Bystander i

def held (id : String) (sofar : Bool) : DockEvent F A → Bool
  | .refreshAdapters _ output => sofar && output.lists id
  | .itemChanged key _ => sofar || key == id
  | .call _ => sofar

theorem Agrees.refreshAdapters {id : String} {sofar : Bool} {s : DockedOutput F A}
    (h : s.Agrees id sofar) {output : Enumeration} (halone : output.Alone id)
    (table : Enumeration) :
    (s.refreshAdapters table output).Agrees id (sofar && output.lists id) := by
  have hselected : (s.refreshAdapters table output).dock.enabledLinks id = s.dock.enabledLinks id :=
    s.dock.refresh_enabledLinks table id
  have hcarried : (s.engine.config.links.find? (·.id == stableLinkId id)).any (·.enabled) =
      (sofar && s.dock.enabledLinks id) := by
    rw [carried_flag]
    rcases h with ⟨hnone, rfl⟩ | hone
    · rw [hnone]
      rfl
    · rw [hone]
      rfl
  have hlinks : linkFlags id (s.refreshAdapters table output).engine.config.links =
      if output.lists id then [sofar && s.dock.enabledLinks id] else [] := by
    rw [DockedOutput.refreshAdapters, Engine.updateAdapters, Engine.replaceLinks_links, enumerateLinks,
      List.map_map]
    apply Enumeration.linkFlags_map halone
    · intro a
      exact carryChoice_id _ _
    · intro a _ hid
      rw [Function.comp_apply, carryChoice_enabled, hid]
      exact hcarried
  cases hlists : output.lists id with
  | false =>
    -- the link leaves with its flag; a later one starts disabled
    left
    rw [hlinks, hlists, Bool.and_false]
    exact ⟨rfl, rfl⟩
  | true =>
    right
    rw [hlinks, hlists, hselected, Bool.and_true]
    rfl

theorem Agrees.itemChanged {id : String} {sofar : Bool} {s : DockedOutput F A}
    (h : s.Agrees id sofar) {key : String} {enabled : Bool}
    (hzero : (s.engine.setLinkEnabled (stableLinkId key) enabled).2 = 0)
    (halone : stableLinkId key = stableLinkId id → key = id) :
    (s.itemChanged key enabled).1.Agrees id (sofar || key == id) := by
  obtain ⟨hknown, hlinks⟩ := Engine.setLinkEnabled_of_zero hzero
  have hdone : (s.itemChanged key enabled).1 =
      { dock := s.dock.select key enabled
        engine := (s.engine.setLinkEnabled (stableLinkId key) enabled).1 } := by
    rw [DockedOutput.itemChanged, if_neg (not_not.mpr hzero)]
  rw [hdone, Agrees, hlinks]
  by_cases hkey : key = id
  · subst hkey
    obtain ⟨was, hwas⟩ : ∃ was, linkFlags key s.engine.config.links = [was] := by
      rcases h with ⟨hnone, -⟩ | hone
      · -- the engine has found the link, so the adapter has one
        have hempty : s.engine.config.links.filter (·.id == stableLinkId key) = [] :=
          List.map_eq_nil_iff.mp hnone
        rw [List.filter_eq_nil_iff] at hempty
        obtain ⟨l, hl, hid⟩ := List.any_eq_true.mp hknown
        exact absurd hid (hempty l hl)
      · exact ⟨_, hone⟩
    right
    rw [linkFlags_toggle hwas]
    simp [SrtlaDock.enabledLinks, SrtlaDock.select]
  · have hne : stableLinkId key ≠ stableLinkId id := fun heq => hkey (halone heq)
    have hselected : (s.dock.select key enabled).enabledLinks id = s.dock.enabledLinks id := by
      simp [SrtlaDock.enabledLinks, SrtlaDock.select, Function.update_of_ne (Ne.symm hkey)]
    rw [linkFlags_toggle_of_ne hne, hselected, beq_eq_false_iff_ne.mpr hkey, Bool.or_false]
    exact h

variable [F64 F]

theorem Agrees.next {id : String} {sofar : Bool} {s t : DockedOutput F A}
    {event : DockEvent F A} (h : s.Agrees id sofar) (hok : s.Succeeds id event)
    (ht : s.next event = some t) : t.Agrees id (held id sofar event) := by
  cases event with
  | refreshAdapters table output =>
    obtain rfl := Option.some.inj ht
    exact h.refreshAdapters hok table
  | itemChanged key enabled =>
    simp only [DockedOutput.next] at ht
    split_ifs at ht
    obtain rfl := Option.some.inj ht
    exact h.itemChanged hok.1 hok.2
  | call i =>
    obtain rfl := Option.some.inj ht
    rw [Agrees, linkFlags_of_setup hok.setup]
    exact h

theorem started_agrees {id : String} {found : Enumeration} (halone : found.Alone id)
    (config : EngineConfig) (dock : SrtlaDock) :
    (started config dock found : DockedOutput F A).Agrees id (found.lists id) := by
  have hlinks : linkFlags id (started config dock found : DockedOutput F A).engine.config.links =
      if found.lists id then [dock.enabledLinks id] else [] := by
    rw [started, Engine.start_eq, Engine.ensureRunner_config]
    apply Enumeration.linkFlags_map halone
    · intro a
      rfl
    · intro a _ hid
      rw [← hid]
      rfl
  cases hlists : found.lists id with
  | false =>
    left
    rw [hlinks, hlists]
    exact ⟨rfl, rfl⟩
  | true =>
    right
    rw [hlinks, hlists]
    rfl

/-- In every run of a started output whose toggles succeed, an adapter is enabled in the
engine exactly if it is selected and has been in every enumeration since the start or
since its last toggle. -/
theorem selection_while_held {id : String} {found : Enumeration} (halone : found.Alone id)
    (config : EngineConfig) (dock : SrtlaDock) {events : List (DockEvent F A)}
    {s : DockedOutput F A} (hrun : Run next (Succeeds id) (started config dock found) events s) :
    (∃ l ∈ s.engine.config.links, l.id = stableLinkId id ∧ l.enabled = true) ↔
      s.dock.selected id = some true ∧ events.foldl (held id) (found.lists id) = true := by
  have h : s.Agrees id (events.foldl (held id) (found.lists id)) :=
    hrun.history (fun _ _ _ _ h hok ht => h.next hok ht) (started_agrees halone config dock)
  exact h.enabled_iff

end Events

section Decide
variable [IpAddr A]

instance (found : Enumeration) (id : String) : Decidable (found.Alone id) :=
  inferInstanceAs (Decidable
    (∀ a ∈ found.adapters, stableLinkId a.id = stableLinkId id → a.id = id))

instance (e : Engine F A) (i : Input F A) : Decidable (e.Bystander i) :=
  match i with
  | .start => instDecidableFalse
  | .stop => instDecidableFalse
  | .setLinkEnabled _ _ => instDecidableFalse
  | .updateAdapters _ => instDecidableFalse
  | .applyAbr _ => inferInstanceAs (Decidable e.SyncAgrees)
  | .copyStatsJson => inferInstanceAs (Decidable e.SyncAgrees)
  | .submitSrtDatagram _ => instDecidableTrue
  | .receiveSrtDatagram _ => instDecidableTrue
  | .updateLinkStats _ => instDecidableTrue
  | .updateSrtStats _ => instDecidableTrue
  | .setAudioBitrate _ => instDecidableTrue
  | .setVideoBitrate _ => instDecidableTrue
  | .setMaxVideoBitrate _ => instDecidableTrue
  | .setSessionState _ _ => instDecidableTrue
  | .lastError => instDecidableTrue
  | .runner _ => instDecidableTrue

instance (id : String) (s : DockedOutput F A) (event : DockEvent F A) :
    Decidable (s.Succeeds id event) :=
  match event with
  | .refreshAdapters _ output => inferInstanceAs (Decidable (output.Alone id))
  | .itemChanged key enabled => inferInstanceAs (Decidable
      ((s.engine.setLinkEnabled (stableLinkId key) enabled).2 = 0 ∧
        (stableLinkId key = stableLinkId id → key = id)))
  | .call i => inferInstanceAs (Decidable (s.engine.Bystander i))

end Decide

/-! Two selected adapters, of which the second leaves and comes back. -/

def wired : Ifaddr where
  name := some "eth0"
  family := some afInet
  printed := some "10.0.0.1"

def wireless : Ifaddr where
  name := some "wlan0"
  family := some afInet
  printed := some "10.0.0.2"

def both : Enumeration := NetworkMonitor.enumerate (some [wired, wireless])

def wiredOnly : Enumeration := NetworkMonitor.enumerate (some [wired])

def bothSelected : DockedOutput ℚ Ipv4 :=
  started {} (({ selected := fun _ => none : SrtlaDock }.select "eth0/2" true).select "wlan0/2" true)
    both

def comesBack : List (DockEvent ℚ Ipv4) :=
  [.refreshAdapters both both, .refreshAdapters wiredOnly wiredOnly, .refreshAdapters both both]

def toggledTwice : DockedOutput ℚ Ipv4 :=
  (exec (guard next (Succeeds "wlan0/2")) bothSelected
    (comesBack ++ [.itemChanged "wlan0/2" false, .itemChanged "wlan0/2" true,
      .refreshAdapters both both])).get (by decide)

theorem selection_while_held_toggled :
    ∃ l ∈ toggledTwice.engine.config.links,
      l.id = stableLinkId "wlan0/2" ∧ l.enabled = true := by
  have hrun : Run next (Succeeds "wlan0/2") bothSelected _ toggledTwice :=
    .of_exec (Option.some_get _).symm
  exact (selection_while_held (by decide) _ _ hrun).mpr (by decide)

/-- The table shows the returned adapter as selected, and the engine has it disabled. -/
theorem selection_lost_on_return :
    ∃ s : DockedOutput ℚ Ipv4,
      exec next bothSelected comesBack = some s ∧
        s.dock.links = [{ key := "eth0/2", checked := true }, { key := "wlan0/2", checked := true }] ∧
        s.dock.selected "wlan0/2" = some true ∧
        s.engine.config.links.map (fun l => (l.id, l.enabled)) =
          [(stableLinkId "eth0/2", true), (stableLinkId "wlan0/2", false)] := by
  refine ⟨_, rfl, ?_, ?_, ?_⟩ <;> decide

end DockedOutput
end Srtla
