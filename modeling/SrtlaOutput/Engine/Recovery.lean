import SrtlaOutput.Engine.Backlog
import SrtlaOutput.Engine.Restart
import SrtlaOutput.Engine.Atomic

/-! Links that lost their telemetry. A refresh of the adapter list replaces every link record by a
parsed one and takes over the flag only; what the document of the runner covers comes back with
the next sync, and until then a call that does not expose the records answers as before. -/

namespace Srtla
open Abr Reactive FirstMatch Mailbox
variable {F A : Type}

/-! The records of a refresh. -/

/-- With the flag of the link, the record of the adapter shows what the link shows. -/
def Restates (adapter link : EngineLinkConfig) : Prop :=
  visibleLink { adapter with enabled := link.enabled } = visibleLink link

instance (adapter link : EngineLinkConfig) : Decidable (Restates adapter link) :=
  inferInstanceAs (Decidable (visibleLink _ = visibleLink _))

def FlagsHeld (links : List EngineLinkConfig) : Prop :=
  ∀ l ∈ links, heldChoice links l.id = l.enabled

instance (links : List EngineLinkConfig) : Decidable (FlagsHeld links) :=
  inferInstanceAs (Decidable (∀ l ∈ links, heldChoice links l.id = l.enabled))

theorem flagsHeld_of_nodup {links : List EngineLinkConfig} (h : (links.map (·.id)).Nodup) :
    FlagsHeld links := by
  intro l hl
  rw [heldChoice, find?_of_nodup h hl]
  rfl

theorem restates_of_setup {adapter link : EngineLinkConfig}
    (h : linkSetup adapter = linkSetup link) :
    Restates adapter link ↔ visibleLink adapter = visibleLink link := by
  have hflag : adapter.enabled = link.enabled := congrArg (·.2.2.2) h
  rw [Restates, ← hflag]

theorem carried_eq {old adapters : List EngineLinkConfig}
    (hkey : adapters.map linkKey = old.map linkKey) (hflags : FlagsHeld old)
    {i : Nat} {adapter link : EngineLinkConfig}
    (hadapter : adapters[i]? = some adapter) (hlink : old[i]? = some link) :
    carryChoice old adapter = { adapter with enabled := link.enabled } := by
  have hsame : linkKey adapter = linkKey link := map_getElem? hkey hadapter hlink
  have hid : adapter.id = link.id := congrArg Prod.fst hsame
  rw [carryChoice_eq, hid, hflags link (List.mem_of_getElem? hlink)]

theorem carried_setup {old adapters : List EngineLinkConfig}
    (hkey : adapters.map linkKey = old.map linkKey) (hflags : FlagsHeld old) :
    (adapters.map (carryChoice old)).map linkSetup = old.map linkSetup := by
  rw [List.map_map]
  refine map_eq_of_map_eq hkey fun i adapter link hadapter hlink => ?_
  have hsame : linkKey adapter = linkKey link := map_getElem? hkey hadapter hlink
  simp only [linkKey, Prod.mk.injEq] at hsame
  obtain ⟨hid, hlabel, haddress⟩ := hsame
  rw [Function.comp_apply, carried_eq hkey hflags hadapter hlink]
  simp only [linkSetup, hid, hlabel, haddress]

theorem carried_visible_iff {old adapters : List EngineLinkConfig}
    (hkey : adapters.map linkKey = old.map linkKey) (hflags : FlagsHeld old) :
    (adapters.map (carryChoice old)).map visibleLink = old.map visibleLink ↔
      List.Forall₂ Restates adapters old := by
  have hlength : adapters.length = old.length := by simpa using congrArg List.length hkey
  rw [List.map_map, List.forall₂_iff_get]
  constructor
  · intro hvisible
    refine ⟨hlength, fun i hadapter hlink => ?_⟩
    have hadapter := List.getElem?_eq_getElem hadapter
    have hlink := List.getElem?_eq_getElem hlink
    have hsame := congrArg (·[i]?) hvisible
    simp only [List.getElem?_map, hadapter, hlink, Option.map_some, Option.some.injEq,
      Function.comp_apply] at hsame
    rw [carried_eq hkey hflags hadapter hlink] at hsame
    exact hsame
  · rintro ⟨-, hshown⟩
    refine map_eq_of_map_eq hkey fun i adapter link hadapter hlink => ?_
    rw [Function.comp_apply, carried_eq hkey hflags hadapter hlink]
    obtain ⟨hlt, rfl⟩ := List.getElem?_eq_some_iff.mp hadapter
    obtain ⟨hlt', rfl⟩ := List.getElem?_eq_some_iff.mp hlink
    exact hshown i hlt hlt'

/-! What a document brings back. -/

section Document
variable [IpAddr A]

def Documented (updates : List (RunnerLinkStats F A)) (address : String) : Prop :=
  ∃ u ∈ updates, IpAddr.toString u.ip = address

instance (updates : List (RunnerLinkStats F A)) (address : String) :
    Decidable (Documented updates address) :=
  inferInstanceAs (Decidable (∃ u ∈ updates, IpAddr.toString u.ip = address))

/-- Each link is restated by its adapter, or it is the first of its address and the document has
an entry for this. The addresses before the links are given. -/
def Recovers (updates : List (RunnerLinkStats F A)) :
    List String → List EngineLinkConfig → List EngineLinkConfig → Prop
  | _, [], [] => True
  | before, adapter :: adapters, link :: links =>
    (Restates adapter link ∨ Documented updates link.address ∧ link.address ∉ before) ∧
      Recovers updates (link.address :: before) adapters links
  | _, _, _ => False

@[elab_as_elim]
theorem Recovers.induction {updates : List (RunnerLinkStats F A)}
    {motive : ∀ (before : List String) (adapters links : List EngineLinkConfig),
      Recovers updates before adapters links → Prop}
    (nil : ∀ before, motive before [] [] trivial)
    (cons : ∀ before adapter link adapters links
      (hlink : Restates adapter link ∨ Documented updates link.address ∧ link.address ∉ before)
      (hrest : Recovers updates (link.address :: before) adapters links),
      motive (link.address :: before) adapters links hrest →
        motive before (adapter :: adapters) (link :: links) ⟨hlink, hrest⟩)
    {before : List String} {adapters links : List EngineLinkConfig}
    (h : Recovers updates before adapters links) : motive before adapters links h := by
  induction adapters generalizing before links with
  | nil =>
    cases links with
    | nil => exact nil before
    | cons link links => exact h.elim
  | cons adapter adapters ih =>
    cases links with
    | nil => exact h.elim
    | cons link links => exact cons before adapter link adapters links h.1 h.2 (ih h.2)

theorem Recovers.mono {updates updates' : List (RunnerLinkStats F A)} {before : List String}
    {adapters links : List EngineLinkConfig} (h : Recovers updates before adapters links)
    (hmore : ∀ l ∈ links, l.address ∉ before → Documented updates l.address →
      Documented updates' l.address) : Recovers updates' before adapters links := by
  induction h using Recovers.induction with
  | nil before => trivial
  | cons before adapter link adapters links hlink hrest ih =>
    refine ⟨hlink.imp_right fun hlink => ⟨?_, hlink.2⟩, ih fun l hl hbefore => ?_⟩
    · exact hmore link List.mem_cons_self hlink.2 hlink.1
    · rw [List.mem_cons, not_or] at hbefore
      exact hmore l (List.mem_cons_of_mem link hl) hbefore.2

/-- Two lists of one setup, where a write reads the setup of a link and nothing else to find it
and to name it. -/
structure SetupWrite (p : EngineLinkConfig → Bool)
    (f : EngineLinkConfig → EngineLinkConfig) : Prop where
  finds : ∀ l l', linkSetup l = linkSetup l' → p l = p l'
  names : ∀ l l', linkSetup l = linkSetup l' → linkSetup (f l) = linkSetup (f l')

theorem SetupWrite.map_setup {p : EngineLinkConfig → Bool} {f : EngineLinkConfig → EngineLinkConfig}
    (h : SetupWrite p f) {adapters links : List EngineLinkConfig}
    (hsetup : adapters.map linkSetup = links.map linkSetup) :
    (modifyFirst p f adapters).map linkSetup = (modifyFirst p f links).map linkSetup := by
  induction adapters generalizing links with
  | nil =>
    cases links with
    | nil => rfl
    | cons link links => cases hsetup
  | cons adapter adapters ih =>
    cases links with
    | nil => cases hsetup
    | cons link links =>
      obtain ⟨hhead, htail⟩ := List.cons.inj hsetup
      have hfinds := h.finds adapter link hhead
      cases hp : p link with
      | true =>
        rw [modifyFirst_cons_of_pos hp, modifyFirst_cons_of_pos (hfinds.trans hp), List.map_cons,
          List.map_cons, h.names adapter link hhead, htail]
      | false =>
        rw [modifyFirst_cons_of_neg hp, modifyFirst_cons_of_neg (hfinds.trans hp), List.map_cons,
          List.map_cons, hhead, ih htail]

theorem Recovers.modifyFirst {p : EngineLinkConfig → Bool} {f : EngineLinkConfig → EngineLinkConfig}
    (hwrite : SetupWrite p f) (haddress : ∀ l, (f l).address = l.address)
    (hvisible : ∀ l, visibleLink (f (visibleLink l)) = visibleLink (f l))
    {updates : List (RunnerLinkStats F A)} {before : List String}
    {adapters links : List EngineLinkConfig} (h : Recovers updates before adapters links)
    (hsetup : adapters.map linkSetup = links.map linkSetup) :
    Recovers updates before (FirstMatch.modifyFirst p f adapters)
      (FirstMatch.modifyFirst p f links) := by
  induction h using Recovers.induction with
  | nil before => trivial
  | cons before adapter link adapters links hlink hrest ih =>
    obtain ⟨hhead, htail⟩ := List.cons.inj hsetup
    have hfinds := hwrite.finds adapter link hhead
    cases hp : p link with
    | true =>
      rw [modifyFirst_cons_of_pos hp, modifyFirst_cons_of_pos (hfinds.trans hp), Recovers,
        haddress]
      refine ⟨hlink.imp_left fun hrestates => ?_, hrest⟩
      rw [restates_of_setup hhead] at hrestates
      rw [restates_of_setup (hwrite.names adapter link hhead), ← hvisible adapter, hrestates,
        hvisible]
    | false =>
      rw [modifyFirst_cons_of_neg hp, modifyFirst_cons_of_neg (hfinds.trans hp)]
      exact ⟨hlink, ih htail⟩

theorem Recovers.visible {before : List String} {adapters links : List EngineLinkConfig}
    (h : Recovers ([] : List (RunnerLinkStats F A)) before adapters links)
    (hsetup : adapters.map linkSetup = links.map linkSetup) :
    adapters.map visibleLink = links.map visibleLink := by
  induction h using Recovers.induction with
  | nil before => rfl
  | cons before adapter link adapters links hlink hrest ih =>
    obtain ⟨hhead, htail⟩ := List.cons.inj hsetup
    have hnone : ¬Documented ([] : List (RunnerLinkStats F A)) link.address := by simp [Documented]
    have hrestates := hlink.resolve_right fun hlink => hnone hlink.1
    rw [List.map_cons, List.map_cons, (restates_of_setup hhead).mp hrestates, ih htail]

section Sync
variable [F64 F]

theorem syncLink_of_setup (u : RunnerLinkStats F A) {l l' : EngineLinkConfig}
    (h : linkSetup l = linkSetup l') : syncLink u l = syncLink u l' := by
  rcases l with ⟨_, _, _, _, _, _, _, _, _, _, _, _, _, _, _, _, _, _⟩
  rcases l' with ⟨_, _, _, _, _, _, _, _, _, _, _, _, _, _, _, _, _, _⟩
  simp only [linkSetup, Prod.mk.injEq] at h
  obtain ⟨rfl, rfl, rfl, rfl⟩ := h
  rfl

theorem syncLink_setupWrite (u : RunnerLinkStats F A) :
    SetupWrite (fun link => link.address == IpAddr.toString u.ip) (syncLink u) where
  finds l l' h := by
    have haddress : l.address = l'.address := congrArg (·.2.2.1) h
    rw [haddress]
  names l l' h := by rw [syncLink_of_setup u h]

theorem Recovers.syncLink {u : RunnerLinkStats F A} {updates : List (RunnerLinkStats F A)}
    {before : List String} {adapters links : List EngineLinkConfig}
    (h : Recovers (u :: updates) before adapters links)
    (hsetup : adapters.map linkSetup = links.map linkSetup) :
    Recovers updates before
      (FirstMatch.modifyFirst (fun link => link.address == IpAddr.toString u.ip)
        (Srtla.syncLink u) adapters)
      (FirstMatch.modifyFirst (fun link => link.address == IpAddr.toString u.ip)
        (Srtla.syncLink u) links) := by
  -- the entry says nothing about a link of another address
  have hother : ∀ address, address ≠ IpAddr.toString u.ip →
      Documented (u :: updates) address → Documented updates address := by
    rintro address hne ⟨v, hv, rfl⟩
    rcases List.mem_cons.mp hv with rfl | hv
    · exact absurd rfl hne
    · exact ⟨v, hv, rfl⟩
  generalize hdescribes : (fun link : EngineLinkConfig => link.address == IpAddr.toString u.ip) = p
  have hfinds : ∀ l l', linkSetup l = linkSetup l' → p l = p l' := by
    rw [← hdescribes]
    exact (syncLink_setupWrite u).finds
  have haddress : ∀ l, p l = (l.address == IpAddr.toString u.ip) := fun l => by rw [← hdescribes]
  induction h using Recovers.induction with
  | nil before => trivial
  | cons before adapter link adapters links hlink hrest ih =>
    obtain ⟨hhead, htail⟩ := List.cons.inj hsetup
    cases hp : p link with
    | true =>
      have hdescribed : link.address = IpAddr.toString u.ip := by simpa [haddress] using hp
      rw [modifyFirst_cons_of_pos hp, modifyFirst_cons_of_pos ((hfinds _ _ hhead).trans hp),
        syncLink_of_setup u hhead]
      refine ⟨.inl rfl, ?_⟩
      show Recovers updates (IpAddr.toString u.ip :: before) adapters links
      rw [← hdescribed]
      refine hrest.mono fun l _ hbefore hl => hother l.address ?_ hl
      rintro heq
      exact hbefore (by simp [heq, hdescribed])
    | false =>
      have hne : link.address ≠ IpAddr.toString u.ip := by simpa [haddress] using hp
      rw [modifyFirst_cons_of_neg hp, modifyFirst_cons_of_neg ((hfinds _ _ hhead).trans hp)]
      exact ⟨hlink.imp_right fun hlink => ⟨hother link.address hne hlink.1, hlink.2⟩, ih htail⟩

theorem Recovers.syncLinks {updates : List (RunnerLinkStats F A)} {before : List String}
    {adapters links : List EngineLinkConfig} (h : Recovers updates before adapters links)
    (hsetup : adapters.map linkSetup = links.map linkSetup) :
    (Srtla.syncLinks updates adapters).map visibleLink =
      (Srtla.syncLinks updates links).map visibleLink := by
  induction updates generalizing adapters links with
  | nil => exact h.visible hsetup
  | cons u updates ih =>
    rw [Srtla.syncLinks, Srtla.syncLinks, List.foldl_cons, List.foldl_cons]
    exact ih (h.syncLink hsetup) ((syncLink_setupWrite u).map_setup hsetup)

end Sync

end Document

/-! Reading the setup. -/

section Setup

variable {links links' : List EngineLinkConfig}

theorem heldChoice_of_setup (h : links.map linkSetup = links'.map linkSetup) (id : UInt64) :
    heldChoice links id = heldChoice links' id := by
  have hheld : ∀ links : List EngineLinkConfig, heldChoice links id =
      ((links.map linkSetup).find? (·.1 == id)).any (·.2.2.2) := by
    intro links
    rw [List.find?_map, Option.any_map]
    rfl
  rw [hheld, hheld, h]

theorem carryChoice_of_setup (h : links.map linkSetup = links'.map linkSetup) :
    carryChoice links = carryChoice links' := by
  funext adapter
  rw [carryChoice_eq, carryChoice_eq, heldChoice_of_setup h]

theorem any_id_of_setup (h : links.map linkSetup = links'.map linkSetup) (id : UInt64) :
    links.any (·.id == id) = links'.any (·.id == id) := by
  have hany : ∀ links : List EngineLinkConfig,
      links.any (·.id == id) = (links.map linkSetup).any (·.1 == id) := by
    intro links
    rw [List.any_map]
    rfl
  rw [hany, hany, h]

theorem enabled_length_of_setup (h : links.map linkSetup = links'.map linkSetup) :
    (links.filter (·.enabled)).length = (links'.filter (·.enabled)).length := by
  have hlength : ∀ links : List EngineLinkConfig, (links.filter (·.enabled)).length =
      ((links.map linkSetup).filter (·.2.2.2)).length := by
    intro links
    rw [List.filter_map, List.length_map]
    rfl
  rw [hlength, hlength, h]

theorem toggleLink_setupWrite (linkId : UInt64) (enabled : Bool) :
    SetupWrite (·.id == linkId) (toggleLink enabled) where
  finds l l' h := by
    have hid : l.id = l'.id := congrArg Prod.fst h
    rw [hid]
  names l l' h := by
    obtain ⟨hid, hlabel, haddress, henabled⟩ := toggleLink_fields enabled l
    obtain ⟨hid', hlabel', haddress', henabled'⟩ := toggleLink_fields enabled l'
    simp only [linkSetup, Prod.mk.injEq] at h ⊢
    rw [hid, hlabel, haddress, henabled, hid', hlabel', haddress', henabled']
    exact ⟨h.1, h.2.1, h.2.2.1, rfl⟩

theorem writeLinkStats_setupWrite (update : LinkStatsUpdate) :
    SetupWrite (·.id == update.id) (writeLinkStats update) where
  finds l l' h := by
    have hid : l.id = l'.id := congrArg Prod.fst h
    rw [hid]
  names _ _ h := h

end Setup

/-- A call after which nothing is missing: it syncs, or it replaces the links. -/
def Input.restores : Input F A → Bool
  | .applyAbr _ => true
  | .copyStatsJson => true
  | .updateAdapters (.array _) => true
  | .updateAdapters (.object _) => true
  | _ => false

namespace Engine

def documentLinks (e : Engine F A) : List (RunnerLinkStats F A) :=
  ((e.runner.bind (·.stats)).map (·.links)).getD []

theorem documentLinks_of_stats {e e' : Engine F A}
    (h : e'.runner.map (·.stats) = e.runner.map (·.stats)) : e'.documentLinks = e.documentLinks := by
  have hbind : ∀ e : Engine F A, e.runner.bind (·.stats) = (e.runner.map (·.stats)).join := by
    intro e
    cases e.runner <;> rfl
  rw [documentLinks, documentLinks, hbind, hbind, h]

theorem isSome_of_stats {e e' : Engine F A}
    (h : e'.runner.map (·.stats) = e.runner.map (·.stats)) :
    e'.runner.isSome = e.runner.isSome := by
  have hsome := congrArg Option.isSome h
  rwa [Option.isSome_map, Option.isSome_map] at hsome

theorem submitSrtDatagram_stats (e : Engine F A) (data : List UInt8) :
    (e.submitSrtDatagram data).1.runner.map (·.stats) = e.runner.map (·.stats) := by
  rcases e with ⟨_, input, _, running, _, _, _, _, _, _, _, _, runner⟩
  unfold submitSrtDatagram
  cases data.isEmpty <;> cases running <;> cases runner with
  | none => cases hpush : (input.push data).2 <;> simp [hpush]
  | some r => cases halive : r.alive <;> simp [EmbeddedSender.submit, halive, submitResult]

theorem tellRunner_frame (e : Engine F A) (message : Control A) (backpressure : String) :
    ∃ runner text, (e.tellRunner (·.trySend message) backpressure).1 =
      { e with runner, lastError := text } := by
  rcases e with ⟨_, _, _, _, _, _, _, text, _, _, _, _, runner⟩
  cases runner with
  | none => exact ⟨none, text, rfl⟩
  | some r =>
    simp only [tellRunner]
    split_ifs
    · exact ⟨_, text, rfl⟩
    · exact ⟨_, _, rfl⟩

theorem deliver_runner (e : Engine F A) (capacity : Nat) (packet : Option (List UInt8)) :
    (e.deliver capacity packet).1.runner = e.runner := by
  cases packet with
  | none => rfl
  | some packet =>
    simp only [deliver]
    split_ifs <;> rfl

theorem receiveSrtDatagram_stats (e : Engine F A) (capacity : Nat) :
    (e.receiveSrtDatagram capacity).1.runner.map (·.stats) = e.runner.map (·.stats) := by
  unfold receiveSrtDatagram
  rcases hr : e.runner with _ | r
  · dsimp only
    split_ifs <;> simp [hr, deliver_runner]
  · dsimp only
    split_ifs
    · rw [hr]
    · rw [hr]
    · rw [deliver_runner]
      unfold EmbeddedSender.receive
      cases r.output <;> rfl

theorem tellRunner_stats (e : Engine F A) (message : Control A) (backpressure : String) :
    (e.tellRunner (·.trySend message) backpressure).1.runner.map (·.stats) =
      e.runner.map (·.stats) := by
  unfold tellRunner
  rcases hr : e.runner with _ | r
  · simp [hr]
  · dsimp only
    split_ifs <;> simp [trySend_stats]

theorem decideAbr_of_visible [F64 F] {e e' : Engine F A} (h : e.visible = e'.visible) (nowMs : Nat) :
    (e.decideAbr nowMs).1.visible = (e'.decideAbr nowMs).1.visible ∧
      (e.decideAbr nowMs).2 = (e'.decideAbr nowMs).2 := by
  have hleft := decideAbr_visible e nowMs
  have hright := decideAbr_visible e' nowMs
  rw [← h] at hright
  exact ⟨hleft.1.symm.trans hright.1, hleft.2.symm.trans hright.2⟩

section Addresses
variable [IpAddr A]

/-- Other links of the same setup, which the document of the runner makes the same. -/
structure Refillable (e : Engine F A) (links : List EngineLinkConfig) : Prop where
  runner : e.runner.isSome = true
  setup : e.config.links.map linkSetup = links.map linkSetup
  recovers : Recovers e.documentLinks [] e.config.links links

/-- The step leaves the runner its document, or one with the same links and more. -/
def KeepsDocument (e : Engine F A) : Input F A → Prop
  | .stop => False
  | .runner (.publish stats) => ∀ l ∈ e.config.links, Documented e.documentLinks l.address →
      Documented ((stats.map (·.links)).getD []) l.address
  | _ => True

variable {e : Engine F A} {links : List EngineLinkConfig}

theorem Refillable.of_stats (h : e.Refillable links) {e' : Engine F A}
    (hlinks : e'.config.links = e.config.links)
    (hstats : e'.runner.map (·.stats) = e.runner.map (·.stats)) : e'.Refillable links where
  runner := by
    rw [isSome_of_stats hstats]
    exact h.runner
  setup := hlinks ▸ h.setup
  recovers := by
    rw [documentLinks_of_stats hstats, hlinks]
    exact h.recovers

/-- From the other links a call answers the same, and leaves no more missing. -/
def Follows {ω : Type} (call : Engine F A → Engine F A × ω) (e : Engine F A)
    (links : List EngineLinkConfig) : Prop :=
  (call (e.withLinks links)).2 = (call e).2 ∧
    ∃ links', (call (e.withLinks links)).1 = (call e).1.withLinks links' ∧
      (call e).1.Refillable links'

theorem Follows.reply {ω : Type} {call : Engine F A → Engine F A × ω} (h : Follows call e links)
    (f : ω → Reply) : Follows (fun e => ((call e).1, f (call e).2)) e links :=
  ⟨congrArg f h.1, h.2⟩

theorem Refillable.blind (h : e.Refillable links) {ω : Type} {call : Engine F A → Engine F A × ω}
    (hblind : LinkBlind call)
    (hstats : (call e).1.runner.map (·.stats) = e.runner.map (·.stats)) : Follows call e links := by
  rw [Follows, hblind e links]
  exact ⟨rfl, links, rfl, h.of_stats (hblind.links e) hstats⟩

theorem Refillable.toggle (h : e.Refillable links) (linkId : UInt64) (enabled : Bool) :
    (e.withLinks (modifyFirst (·.id == linkId) (toggleLink enabled) e.config.links)).Refillable
      (modifyFirst (·.id == linkId) (toggleLink enabled) links) where
  runner := h.runner
  setup := (toggleLink_setupWrite linkId enabled).map_setup h.setup
  recovers := h.recovers.modifyFirst (toggleLink_setupWrite linkId enabled)
    (fun l => (toggleLink_fields enabled l).2.2.1) (toggleLink_visibleLink enabled) h.setup

theorem Refillable.setLinkEnabled (h : e.Refillable links) (linkId : UInt64) (enabled : Bool) :
    Follows (fun e => e.setLinkEnabled linkId enabled) e links := by
  obtain ⟨r, hr⟩ := Option.isSome_iff_exists.mp h.runner
  have hknown := any_id_of_setup h.setup linkId
  have hheld : (e.config.links.find? (·.id == linkId)).any (·.enabled) =
      (links.find? (·.id == linkId)).any (·.enabled) := heldChoice_of_setup h.setup linkId
  have hcount := enabled_length_of_setup h.setup
  have hlinks : (e.withLinks links).config.links = links := rfl
  have hrunning : (e.withLinks links).running = e.running := rfl
  simp only [Follows, Engine.setLinkEnabled, hlinks, hrunning, ← hknown, ← hheld, ← hcount]
  split_ifs
  · exact ⟨rfl, links, rfl, h⟩
  · exact ⟨rfl, links, rfl, h⟩
  · have htoggled := h.toggle linkId enabled
    have hblind := tellRunner_linkBlind (fun r : EmbeddedSender F A => r.setLinkEnabled linkId enabled)
      "link control queue backpressure"
    have hsame : ((e.withLinks links).withLinks
        (modifyFirst (·.id == linkId) (toggleLink enabled) links)).ensureRunner =
        (e.withLinks (modifyFirst (·.id == linkId) (toggleLink enabled)
          e.config.links)).ensureRunner.withLinks
          (modifyFirst (·.id == linkId) (toggleLink enabled) links) := by
      rw [ensureRunner_withLinks_of_some (e := e.withLinks links) hr, ensureRunner_withLinks_of_some hr]
      rfl
    rw [hsame, ensureRunner_withLinks_of_some hr]
    exact htoggled.blind hblind (tellRunner_stats _ _ _)

theorem Refillable.writeStats (h : e.Refillable links) (updates : List LinkStatsUpdate) :
    ∃ links', ((e.withLinks links).writeStats updates).1 = (e.writeStats updates).1.withLinks links' ∧
      (e.writeStats updates).1.Refillable links' := by
  induction updates generalizing e links with
  | nil => exact ⟨links, rfl, h⟩
  | cons update updates ih =>
    have hwritten : (e.withLinks (modifyFirst (·.id == update.id) (writeLinkStats update)
        e.config.links)).Refillable (modifyFirst (·.id == update.id) (writeLinkStats update) links) :=
      ⟨h.runner, (writeLinkStats_setupWrite update).map_setup h.setup,
        h.recovers.modifyFirst (writeLinkStats_setupWrite update) (fun _ => rfl) (fun _ => rfl) h.setup⟩
    exact ih hwritten

theorem Refillable.updateLinkStats (h : e.Refillable links) (stats : JsonArg LinkStatsUpdate) :
    Follows (fun e => e.updateLinkStats stats) e links := by
  cases stats with
  | null => exact ⟨rfl, links, rfl, h⟩
  | invalid => exact ⟨rfl, links, rfl, h.of_stats rfl rfl⟩
  | array updates => exact ⟨rfl, h.writeStats updates⟩
  | object config => exact ⟨rfl, h.writeStats _⟩

theorem Refillable.replaceLinks (h : e.Refillable links) (adapters : List EngineLinkConfig) :
    (e.withLinks links).replaceLinks adapters = e.replaceLinks adapters := by
  have hcarry : carryChoice links = carryChoice e.config.links := carryChoice_of_setup h.setup.symm
  have hlinks : (e.withLinks links).config.links = links := rfl
  rw [Engine.replaceLinks, Engine.replaceLinks, hlinks, hcarry]
  rfl

end Addresses

section Controller
variable [F64 F] [IpAddr A] {e : Engine F A} {links : List EngineLinkConfig}

theorem Refillable.sync (h : e.Refillable links) :
    (e.withLinks links).syncRunnerStats.visible = e.syncRunnerStats.visible := by
  have hrunner : (e.withLinks links).runner = e.runner := rfl
  have hrecovers := h.recovers
  rw [documentLinks] at hrecovers
  rw [syncRunnerStats, syncRunnerStats, hrunner]
  cases hstats : e.runner.bind (·.stats) with
  | none =>
    rw [hstats] at hrecovers
    exact congrArg e.withLinks (hrecovers.visible h.setup).symm
  | some stats =>
    rw [hstats] at hrecovers
    exact congrArg (e.syncStats stats).withLinks (hrecovers.syncLinks h.setup).symm

theorem Refillable.restored (h : e.Refillable links) {i : Input F A} (hi : i.restores = true) :
    ((e.withLinks links).step i).2 = (e.step i).2 ∧
      ((e.withLinks links).step i).1.visible = (e.step i).1.visible := by
  have hsync := h.sync
  cases i with
  | applyAbr nowMs =>
    have hdecided := decideAbr_of_visible hsync nowMs
    exact ⟨congrArg (fun d : AbrDecision => Reply.bitrate d.appliedBps) hdecided.2, hdecided.1⟩
  | copyStatsJson =>
    refine ⟨congrArg Reply.snapshot ?_, hsync⟩
    show (e.withLinks links).syncRunnerStats.snapshot = e.syncRunnerStats.snapshot
    rw [← snapshot_visible, hsync, snapshot_visible]
  | updateAdapters adapters =>
    cases adapters with
    | array adapters =>
      have hreplaced := h.replaceLinks adapters
      exact ⟨congrArg (fun r : Engine F A × Int => Reply.code r.2) hreplaced,
        congrArg (fun r : Engine F A × Int => r.1.visible) hreplaced⟩
    | object config =>
      have hreplaced := h.replaceLinks config.links
      exact ⟨congrArg (fun r : Engine F A × Int => Reply.code r.2) hreplaced,
        congrArg (fun r : Engine F A × Int => r.1.visible) hreplaced⟩
    | null => cases hi
    | invalid => cases hi
  | _ => cases hi

theorem Refillable.start (h : e.Refillable links) : Follows (fun e => e.start) e links := by
  -- the start of a run keeps the runner that is there
  obtain ⟨r, hr⟩ := Option.isSome_iff_exists.mp h.runner
  have hstart : ∀ links, (e.withLinks links).start.1 = e.freshRun.withLinks links := fun links =>
    (start_eq _).trans (ensureRunner_of_some (r := r) hr)
  refine ⟨rfl, links, ?_, ?_⟩
  · show (e.withLinks links).start.1 = (e.withLinks e.config.links).start.1.withLinks links
    rw [hstart, hstart]
    rfl
  · show (e.withLinks e.config.links).start.1.Refillable links
    rw [hstart]
    exact h.of_stats rfl rfl

theorem Refillable.publish (h : e.Refillable links) (stats : Option (RunnerStats F A))
    (hkeeps : e.KeepsDocument (.runner (.publish stats))) :
    (e.step (.runner (.publish stats))).1.Refillable links := by
  obtain ⟨r, hr⟩ := Option.isSome_iff_exists.mp h.runner
  have hafter : (e.step (.runner (.publish stats))).1.documentLinks =
      (stats.map (·.links)).getD [] := by
    simp [Engine.step, documentLinks, hr, EmbeddedSender.after]
  refine ⟨?_, h.setup, ?_⟩
  · simp [Engine.step, hr]
  · rw [hafter]
    refine h.recovers.mono fun l hl _ hdocumented => ?_
    have hmem : linkSetup l ∈ e.config.links.map linkSetup := h.setup ▸ List.mem_map_of_mem hl
    obtain ⟨l', hl', hsame⟩ := List.mem_map.mp hmem
    have haddress : l'.address = l.address := congrArg (·.2.2.1) hsame
    rw [← haddress] at hdocumented ⊢
    exact hkeeps l' hl' hdocumented

theorem Refillable.step (h : e.Refillable links) {i : Input F A} (hi : i.restores = false)
    (hkeeps : e.KeepsDocument i) : Follows (fun e => e.step i) e links := by
  cases i with
  | start => exact h.start.reply .code
  | stop => exact hkeeps.elim
  | submitSrtDatagram data =>
    exact (h.blind (submitSrtDatagram_linkBlind data) (submitSrtDatagram_stats e data)).reply .code
  | receiveSrtDatagram capacity =>
    exact (h.blind (receiveSrtDatagram_linkBlind capacity) (receiveSrtDatagram_stats e capacity)).reply
      fun r => .received r.1 r.2
  | setLinkEnabled linkId enabled => exact (h.setLinkEnabled linkId enabled).reply .code
  | updateAdapters adapters =>
    cases adapters with
    | null => exact ⟨rfl, links, rfl, h⟩
    | invalid => exact ⟨rfl, links, rfl, h.of_stats rfl rfl⟩
    | array adapters => cases hi
    | object config => cases hi
  | updateLinkStats stats => exact (h.updateLinkStats stats).reply .code
  | updateSrtStats stats =>
    refine Follows.reply (h.blind (updateSrtStats_linkBlind stats) ?_) .code
    cases stats with
    | none => rfl
    | some stats =>
      simp only [updateSrtStats]
      split_ifs <;> rfl
  | setAudioBitrate bps => exact ⟨rfl, links, rfl, h.of_stats rfl rfl⟩
  | setVideoBitrate bps => exact ⟨rfl, links, rfl, h.of_stats rfl rfl⟩
  | setMaxVideoBitrate bps =>
    refine Follows.reply (h.blind (setMaxVideoBitrate_linkBlind bps) ?_) .code
    simp only [setMaxVideoBitrate]
    split_ifs <;> rfl
  | setSessionState state error =>
    refine Follows.reply (h.blind (setSessionState_linkBlind state error) ?_) .code
    simp only [setSessionState]
    split_ifs <;> rfl
  | applyAbr nowMs => cases hi
  | copyStatsJson => cases hi
  | lastError => exact ⟨rfl, links, rfl, h⟩
  | runner effect =>
    refine ⟨rfl, links, rfl, ?_⟩
    cases effect with
    | publish stats => exact h.publish stats hkeeps
    | _ =>
      refine h.of_stats rfl ?_
      simp only [Engine.step, Option.map_map]
      rfl

/-- No step exposes the records before a call that restores them: there is no stop and no
document that leaves out a link. -/
def KeepsTelemetry : Engine F A → List (Input F A) → Prop
  | _, [] => True
  | e, i :: ins => i.restores = true ∨ e.KeepsDocument i ∧ KeepsTelemetry (e.step i).1 ins

/-- The second engine has fewer messages for the runner, and the telemetry that the first has
yet to get from its document. -/
def Pending (s t : Engine F A) : Prop :=
  ∃ (messages : List (Control A)) (links : List EngineLinkConfig),
    messages.length ≤ (mail s).length ∧ t = (s.withLinks links).withControl messages ∧
      s.Refillable links

omit [F64 F] in
theorem Pending.mail {s t : Engine F A} (h : Pending s t) :
    (Srtla.mail t).length ≤ (Srtla.mail s).length ∧ ∃ links,
      t = (s.withLinks links).withControl (Srtla.mail t) ∧ s.Refillable links := by
  obtain ⟨messages, links, hmessages, ht, hlinks⟩ := h
  have hmail : Srtla.mail t = messages := by
    rw [ht]
    exact mail_withControl hmessages
  exact hmail ▸ ⟨hmessages, links, ht, hlinks⟩

/-- A step that keeps the document answers the same, and so does one that restores the links, after
which nothing is missing. -/
theorem Pending.step {s t : Engine F A} {i : Input F A} (h : Pending s t) (hroom : s.FindsRoom i)
    (hkeeps : i.restores = true ∨ s.KeepsDocument i) :
    (s.step i).2 = (t.step i).2 ∧
      (if i.restores then Behind (s.step i).1 (t.step i).1 else Pending (s.step i).1 (t.step i).1) ∧
      Moved i.move (Srtla.mail s) (Srtla.mail (s.step i).1) (Srtla.mail t)
        (Srtla.mail (t.step i).1) := by
  obtain ⟨hmessages, links, ht, hlinks⟩ := h.mail
  have hroom' : (s.withLinks links).FindsRoom i := by cases i <;> exact hroom
  obtain ⟨left, hstep, hmoved⟩ := step_counts hroom' (Srtla.mail t) hmessages
  dsimp only at hstep
  rw [← ht] at hstep
  have hmail : Srtla.mail (t.step i).1 = left := by
    rw [hstep]
    exact mail_withControl (hmoved.length_le hmessages)
  rw [hmail]
  have hreply : (t.step i).2 = ((s.withLinks links).step i).2 := by rw [hstep]
  have hafter : (t.step i).1 = ((s.withLinks links).step i).1.withControl left := by
    rw [hstep]
  cases hi : i.restores with
  | true =>
    obtain ⟨hsame, hvisible⟩ := hlinks.restored hi
    have hkept : Srtla.mail ((s.withLinks links).step i).1 = Srtla.mail (s.step i).1 := by
      rw [← mail_visible, hvisible, mail_visible]
    have hmoved' : Moved i.move (Srtla.mail s) (Srtla.mail (s.step i).1) (Srtla.mail t) left := by
      rw [← hkept]
      exact hmoved
    refine ⟨hsame.symm.trans hreply.symm, ⟨left, hmoved'.length_le hmessages, ?_⟩, hmoved'⟩
    rw [hafter, visible_withControl, hvisible]
  | false =>
    obtain ⟨hsame, links', hfollows, hlinks'⟩ := hlinks.step hi (hkeeps.resolve_left (by simp [hi]))
    dsimp only at hsame hfollows
    rw [hfollows] at hmoved hafter
    have hpending : Pending (s.step i).1 (t.step i).1 :=
      ⟨left, links', hmoved.length_le hmessages, hafter, hlinks'⟩
    exact ⟨hsame.symm.trans hreply.symm, hpending, hmoved⟩

/-! Both cases. -/

/-- The first engine shows what the second one does, now or before its links are exposed. -/
def ShowsAlike (ins : List (Input F A)) (s t : Engine F A) : Prop :=
  Behind s t ∨ Pending s t ∧ s.KeepsTelemetry ins

theorem ShowsAlike.step {s t : Engine F A} {i : Input F A} {ins : List (Input F A)}
    (h : ShowsAlike (i :: ins) s t) (hroom : s.FindsRoom i) :
    (s.step i).2 = (t.step i).2 ∧ ShowsAlike ins (s.step i).1 (t.step i).1 ∧
      Moved i.move (Srtla.mail s) (Srtla.mail (s.step i).1) (Srtla.mail t)
        (Srtla.mail (t.step i).1) := by
  rcases h with h | ⟨h, hkeeps⟩
  · obtain ⟨hreply, hafter, hmoved⟩ := h.step hroom
    exact ⟨hreply, .inl hafter, hmoved⟩
  · obtain ⟨hreply, hafter, hmoved⟩ := h.step hroom (hkeeps.imp_right And.left)
    refine ⟨hreply, ?_, hmoved⟩
    cases hi : i.restores with
    | true =>
      rw [hi, if_pos rfl] at hafter
      exact .inl hafter
    | false =>
      rw [hi, if_neg Bool.false_ne_true] at hafter
      exact .inr ⟨hafter, (hkeeps.resolve_left (by simp [hi])).2⟩

theorem ShowsAlike.runner {s t : Engine F A} {ins : List (Input F A)} (h : ShowsAlike ins s t) :
    t.runner = s.runner.map fun r => { r with control := Srtla.mail t } := by
  rcases h with h | ⟨h, -⟩
  · exact congrArg Engine.runner h.mail.2
  · obtain ⟨-, links, ht, -⟩ := h.mail
    exact congrArg Engine.runner ht

theorem ShowsAlike.take {s t : Engine F A} {ins : List (Input F A)}
    (h : ShowsAlike (.runner .takeControl :: ins) s t)
    (hlt : (Srtla.mail t).length < (Srtla.mail s).length) :
    ShowsAlike ins (s.step (.runner .takeControl)).1 t := by
  have hmail : Srtla.mail (s.step (.runner .takeControl)).1 = (Srtla.mail s).tail := by
    rcases s with ⟨_, _, _, _, _, _, _, _, _, _, _, _, runner⟩
    cases runner <;> rfl
  have hfewer : (Srtla.mail t).length ≤ (Srtla.mail (s.step (.runner .takeControl)).1).length := by
    rw [hmail, List.length_tail]
    exact Nat.le_sub_one_of_lt hlt
  have hcontrol : ∀ e : Engine F A, ∀ messages,
      (e.step (.runner .takeControl)).1.withControl messages = e.withControl messages := by
    intro e messages
    rcases e with ⟨_, _, _, _, _, _, _, _, _, _, _, _, runner⟩
    cases runner <;> rfl
  rcases h with h | ⟨h, hkeeps⟩
  · refine .inl ⟨Srtla.mail t, hfewer, h.mail.2.trans ?_⟩
    exact (hcontrol s.visible _).symm
  · obtain ⟨-, links, ht, hlinks⟩ := h.mail
    have hkept := (hkeeps.resolve_left (by simp [Input.restores])).2
    refine .inr ⟨⟨Srtla.mail t, links, hfewer, ht.trans ?_, ?_⟩, hkept⟩
    · exact (hcontrol (s.withLinks links) _).symm
    · refine hlinks.of_stats rfl ?_
      simp only [Engine.step, Option.map_map]
      rfl

end Controller

end Engine

end Srtla
