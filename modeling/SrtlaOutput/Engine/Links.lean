import SrtlaOutput.Engine.Defs

/-! The setup of the links: id, label, address and flag. This is all that the runner gets
from the engine, and the part of a link record that a call may only change on purpose. -/

namespace Srtla
open FirstMatch
variable {F A : Type}

def linkSetup (l : EngineLinkConfig) : UInt64 × String × String × Bool :=
  (l.id, l.label, l.address, l.enabled)

/-- The identity of a link in an adapter list. -/
def linkKey (l : EngineLinkConfig) : UInt64 × String × String := (l.id, l.label, l.address)

theorem map_getElem? {α β : Type} {f : α → β} {as bs : List α} (h : as.map f = bs.map f) {i : Nat}
    {a b : α} (ha : as[i]? = some a) (hb : bs[i]? = some b) : f a = f b := by
  have hi := congrArg (·[i]?) h
  simpa only [List.getElem?_map, ha, hb, Option.map_some, Option.some.injEq] using hi

theorem map_eq_of_map_eq {α β γ : Type} {f : α → β} {g g' : α → γ} {as bs : List α}
    (h : as.map f = bs.map f)
    (hentry : ∀ (i : Nat) (a b : α), as[i]? = some a → bs[i]? = some b → g a = g' b) :
    as.map g = bs.map g' := by
  have hlength : as.length = bs.length := by simpa using congrArg List.length h
  apply List.ext_getElem?
  intro i
  rw [List.getElem?_map, List.getElem?_map]
  rcases ha : as[i]? with _ | a
  · rw [List.getElem?_eq_none_iff, hlength] at ha
    rw [List.getElem?_eq_none ha]
    rfl
  · have hi : i < bs.length := hlength ▸ (List.getElem?_eq_some_iff.mp ha).1
    have hb : bs[i]? = some bs[i] := List.getElem?_eq_getElem hi
    rw [hb, Option.map_some, Option.map_some, hentry i a bs[i] ha hb]

theorem map_id_of_key {links links' : List EngineLinkConfig}
    (h : links.map linkKey = links'.map linkKey) : links.map (·.id) = links'.map (·.id) := by
  have hfst := congrArg (List.map Prod.fst) h
  simpa only [List.map_map, Function.comp_def, linkKey] using hfst

theorem map_key_of_setup {links links' : List EngineLinkConfig}
    (h : links.map linkSetup = links'.map linkSetup) : links.map linkKey = links'.map linkKey := by
  have hkey := congrArg (List.map fun s : UInt64 × String × String × Bool => (s.1, s.2.1, s.2.2.1)) h
  rwa [List.map_map, List.map_map] at hkey

theorem forall_of_setup {links links' : List EngineLinkConfig}
    (h : links.map linkSetup = links'.map linkSetup) {P : UInt64 → Bool → Prop}
    (hP : ∀ l ∈ links, P l.id l.enabled) : ∀ l ∈ links', P l.id l.enabled := by
  intro l hl
  have hmem : linkSetup l ∈ links.map linkSetup := h ▸ List.mem_map_of_mem hl
  obtain ⟨l₀, hl₀, heq⟩ := List.mem_map.mp hmem
  have hid : l₀.id = l.id := congrArg Prod.fst heq
  have hflag : l₀.enabled = l.enabled := congrArg (·.2.2.2) heq
  exact hid ▸ hflag ▸ hP l₀ hl₀

theorem carryChoice_id (old : List EngineLinkConfig) (l : EngineLinkConfig) :
    (carryChoice old l).id = l.id := by
  unfold carryChoice
  cases old.find? (·.id == l.id) <;> rfl

theorem carryChoice_enabled (old : List EngineLinkConfig) (l : EngineLinkConfig) :
    (carryChoice old l).enabled = (old.find? (·.id == l.id)).any (·.enabled) := by
  unfold carryChoice
  cases old.find? (·.id == l.id) <;> rfl

theorem carryChoice_setup {old links : List EngineLinkConfig} (hids : (old.map (·.id)).Nodup)
    (hkey : links.map linkKey = old.map linkKey) :
    (links.map (carryChoice old)).map linkSetup = old.map linkSetup := by
  rw [List.map_map]
  refine map_eq_of_map_eq hkey fun i l o hl ho => ?_
  have hsame : linkKey l = linkKey o := map_getElem? hkey hl ho
  have hid : l.id = o.id := congrArg Prod.fst hsame
  have hlabel : l.label = o.label := congrArg (·.2.1) hsame
  have haddress : l.address = o.address := congrArg (·.2.2) hsame
  have hfind : old.find? (·.id == l.id) = some o := by
    rw [hid]
    exact find?_of_nodup hids (List.mem_of_getElem? ho)
  rw [Function.comp_apply, carryChoice, hfind]
  simp only [linkSetup, hid, hlabel, haddress]

theorem writeStats_setup (updates : List LinkStatsUpdate) (links : List EngineLinkConfig) :
    (updates.foldl (fun links update =>
      modifyFirst (·.id == update.id) (writeLinkStats update) links) links).map linkSetup =
      links.map linkSetup := by
  induction updates generalizing links with
  | nil => rfl
  | cons update updates ih =>
    rw [List.foldl_cons, ih]
    exact map_modifyFirst fun _ _ => rfl

theorem toggleLink_fields (enabled : Bool) (l : EngineLinkConfig) :
    (toggleLink enabled l).id = l.id ∧ (toggleLink enabled l).label = l.label ∧
      (toggleLink enabled l).address = l.address ∧ (toggleLink enabled l).enabled = enabled := by
  cases enabled with
  | true => cases hl : l.enabled <;> simp [toggleLink, hl]
  | false => simp [toggleLink]

theorem map_key_toggle (links : List EngineLinkConfig) (id : UInt64) (enabled : Bool) :
    (modifyFirst (·.id == id) (toggleLink enabled) links).map linkKey = links.map linkKey := by
  refine map_modifyFirst fun l _ => ?_
  obtain ⟨hid, hlabel, haddress, -⟩ := toggleLink_fields enabled l
  rw [linkKey, linkKey, hid, hlabel, haddress]

section Addresses
variable [IpAddr A]

theorem embeddedLinks_of_setup {links links' : List EngineLinkConfig}
    (h : links.map linkSetup = links'.map linkSetup) :
    embeddedLinks A links = embeddedLinks A links' := by
  have hsetup (links : List EngineLinkConfig) : embeddedLinks A links =
      (links.map linkSetup).filterMap fun s => (IpAddr.parse s.2.2.1).map fun address =>
        { id := s.1, label := s.2.1, address, enabled := s.2.2.2 } := by
    rw [List.filterMap_map]
    rfl
  rw [hsetup, hsetup, h]

theorem mem_embeddedLinks {links : List EngineLinkConfig} {r : EmbeddedLink A} :
    r ∈ embeddedLinks A links ↔ ∃ l ∈ links, IpAddr.parse l.address = some r.address ∧
      r.id = l.id ∧ r.label = l.label ∧ r.enabled = l.enabled := by
  rw [embeddedLinks, List.mem_filterMap]
  constructor
  · rintro ⟨l, hl, hr⟩
    obtain ⟨address, haddress, rfl⟩ := Option.map_eq_some_iff.mp hr
    exact ⟨l, hl, haddress, rfl, rfl, rfl⟩
  · rintro ⟨l, hl, haddress, hid, hlabel, henabled⟩
    refine ⟨l, hl, ?_⟩
    rw [haddress, Option.map_some, ← hid, ← hlabel, ← henabled]

theorem embeddedLinks_ids_nodup {links : List EngineLinkConfig} (h : (links.map (·.id)).Nodup) :
    ((embeddedLinks A links).map (·.id)).Nodup := by
  refine h.sublist ?_
  induction links with
  | nil => exact .slnil
  | cons l links ih =>
    rw [List.map_cons, List.nodup_cons] at h
    unfold embeddedLinks
    rcases hparse : (IpAddr.parse l.address : Option A) with _ | address
    · rw [List.filterMap_cons_none (by rw [hparse]; rfl)]
      exact (ih h.2).cons _
    · rw [List.filterMap_cons_some (by rw [hparse]; rfl)]
      exact (ih h.2).cons_cons _

theorem embeddedLinks_toggle {links : List EngineLinkConfig} (h : (links.map (·.id)).Nodup)
    (id : UInt64) (enabled : Bool) :
    embeddedLinks A (modifyFirst (·.id == id) (toggleLink enabled) links) =
      modifyFirst (·.id == id) (fun r => { r with enabled }) (embeddedLinks A links) := by
  rw [modifyFirst_eq_map h, modifyFirst_eq_map (embeddedLinks_ids_nodup h), embeddedLinks,
    embeddedLinks, List.filterMap_map, List.map_filterMap]
  refine congrArg (List.filterMap · links) (funext fun l => ?_)
  obtain ⟨hid, hlabel, haddress, henabled⟩ := toggleLink_fields enabled l
  by_cases hl : l.id = id
  · simp [hl ▸ hid, hlabel, haddress, henabled, hl, Function.comp_def]
  · simp [hl, Function.comp_def]

theorem wantsRunner_of_setup {e e' : Engine F A}
    (hlinks : e'.config.links.map linkKey = e.config.links.map linkKey)
    (hrunner : e'.runner.isNone = e.runner.isNone) : e'.wantsRunner = e.wantsRunner := by
  have hany (links : List EngineLinkConfig) :
      (links.any fun l => (IpAddr.parse l.address : Option A).isSome) =
        (links.map linkKey).any fun k => (IpAddr.parse k.2.2 : Option A).isSome := by
    rw [List.any_map]
    rfl
  rw [Engine.wantsRunner, Engine.wantsRunner, hrunner, hany, hany, hlinks]

theorem ensureRunner_of_not_wants {e : Engine F A} (h : e.wantsRunner = false) :
    e.ensureRunner = e := by
  rw [Engine.ensureRunner, h, Bool.and_false]
  rfl

/-- Every entry of a stats document agrees with the flag of the link it addresses. -/
def DocumentAgrees (updates : List (RunnerLinkStats F A)) (links : List EngineLinkConfig) : Prop :=
  ∀ u ∈ updates, ∀ l ∈ links.find? (·.address == IpAddr.toString u.ip), u.adminEnabled = l.enabled

instance (updates : List (RunnerLinkStats F A)) (links : List EngineLinkConfig) :
    Decidable (DocumentAgrees updates links) :=
  inferInstanceAs (Decidable (∀ u ∈ updates,
    ∀ l ∈ links.find? (·.address == IpAddr.toString u.ip), u.adminEnabled = l.enabled))

theorem DocumentAgrees.of_setup {updates : List (RunnerLinkStats F A)}
    {links links' : List EngineLinkConfig} (h : DocumentAgrees updates links)
    (hsetup : links.map linkSetup = links'.map linkSetup) : DocumentAgrees updates links' := by
  intro u hu l' hl'
  have hfind := congrArg (List.find? fun s => s.2.2.1 == IpAddr.toString u.ip) hsetup
  rw [List.find?_map, List.find?_map] at hfind
  rw [show links'.find? ((fun s => s.2.2.1 == IpAddr.toString u.ip) ∘ linkSetup) = some l' from hl',
    Option.map_some, Option.map_eq_some_iff] at hfind
  obtain ⟨l, hl, heq⟩ := hfind
  rw [h u hu l hl]
  exact congrArg (·.2.2.2) heq

def Engine.SyncAgrees (e : Engine F A) : Prop :=
  ∀ r ∈ e.runner, ∀ stats ∈ r.stats, DocumentAgrees stats.links e.config.links

instance (e : Engine F A) : Decidable e.SyncAgrees :=
  inferInstanceAs (Decidable (∀ r ∈ e.runner, ∀ stats ∈ r.stats,
    DocumentAgrees stats.links e.config.links))

variable [F64 F]

theorem syncLink_enabled (u : RunnerLinkStats F A) (l : EngineLinkConfig) :
    (syncLink u l).enabled = u.adminEnabled := by
  cases hu : u.adminEnabled <;> cases hl : l.enabled <;> simp [syncLink, hu, hl]

theorem syncLinks_addresses (updates : List (RunnerLinkStats F A)) (links : List EngineLinkConfig) :
    (syncLinks updates links).map (·.address) = links.map (·.address) :=
  map_key_foldl_modifyFirst EngineLinkConfig.address
    (fun u : RunnerLinkStats F A => IpAddr.toString u.ip) syncLink (fun _ _ _ => rfl) updates links

theorem getElem?_syncLinks_link (updates : List (RunnerLinkStats F A))
    (links : List EngineLinkConfig) (i : Nat) :
    (syncLinks updates links)[i]? = links[i]?.map fun l =>
      if (links.take i).any (·.address == l.address) then l
      else (updates.filter fun u => IpAddr.toString u.ip == l.address).foldl
        (fun l u => syncLink u l) l :=
  getElem?_foldl_modifyFirst EngineLinkConfig.address
    (fun u : RunnerLinkStats F A => IpAddr.toString u.ip) syncLink (fun _ _ _ => rfl) updates links i

theorem syncLinks_setup {updates : List (RunnerLinkStats F A)} {links : List EngineLinkConfig}
    (h : DocumentAgrees updates links) :
    (syncLinks updates links).map linkSetup = links.map linkSetup := by
  induction updates generalizing links with
  | nil => rfl
  | cons u updates ih =>
    have hone : (modifyFirst (fun l => l.address == IpAddr.toString u.ip) (syncLink u) links).map
        linkSetup = links.map linkSetup := by
      refine map_modifyFirst fun l hl => ?_
      have hflag := h u List.mem_cons_self l hl
      have haddress : l.address = IpAddr.toString u.ip := by simpa using List.find?_some hl
      simp [linkSetup, syncLink, haddress, hflag]
    have htail : DocumentAgrees updates links := fun v hv => h v (List.mem_cons_of_mem u hv)
    rw [← hone]
    exact ih (htail.of_setup hone.symm)

theorem Engine.sync_setup {e : Engine F A} (hok : e.SyncAgrees) :
    e.syncRunnerStats.config.links.map linkSetup = e.config.links.map linkSetup := by
  unfold Engine.syncRunnerStats
  rcases hstats : e.runner.bind (·.stats) with _ | stats
  · rfl
  · obtain ⟨r, hr, hdocument⟩ := Option.bind_eq_some_iff.mp hstats
    exact syncLinks_setup (hok r hr stats hdocument)

end Addresses

end Srtla
