import SrtlaOutput.Engine.Ipv4
import SrtlaOutput.Engine.Range
import SrtlaOutput.Engine.Recovery

/-! What a sync writes over the links. Each entry of the document goes to the first link that
has its address in the printed form. -/

namespace Srtla
open Abr FirstMatch
variable {F A : Type} [F64 F] [IpAddr A]

/-! One entry on one link. -/

theorem syncLink_standby (u : RunnerLinkStats F A) (l : EngineLinkConfig) :
    (syncLink u l).state = "Standby" ↔ l.enabled = false := by
  cases hl : l.enabled with
  | false => simp [syncLink, hl]
  | true =>
    simp only [syncLink, hl, Bool.not_true, Bool.false_eq_true, if_false]
    split_ifs <;> simp

theorem syncLink_again_iff (u : RunnerLinkStats F A) (l : EngineLinkConfig) :
    syncLink u (syncLink u l) = syncLink u l ↔ u.adminEnabled = l.enabled := by
  constructor
  · intro hagain
    have hstandby := syncLink_standby u (syncLink u l)
    rw [hagain, syncLink_standby, syncLink_enabled] at hstandby
    rw [Bool.eq_iff_iff, ← not_iff_not, Bool.not_eq_true, Bool.not_eq_true]
    exact hstandby.symm
  · intro hflag
    rcases l with ⟨_, _, _, enabled, _⟩
    obtain rfl : u.adminEnabled = enabled := hflag
    simp [syncLink]

/-! The document on the links. -/

theorem getElem?_syncLinks_of_nodup {updates : List (RunnerLinkStats F A)}
    {links : List EngineLinkConfig} (hlinks : (links.map (·.address)).Nodup)
    (hprinted : (updates.map fun u => IpAddr.toString u.ip).Nodup) {i : Nat}
    {l : EngineLinkConfig} (hl : links[i]? = some l) {u : RunnerLinkStats F A} (hu : u ∈ updates)
    (haddress : IpAddr.toString u.ip = l.address) :
    (syncLinks updates links)[i]? = some (syncLink u l) := by
  have hfirst : (links.take i).any (·.address == l.address) = false := by
    rw [List.any_eq_false]
    intro m hm hsame
    obtain ⟨j, hj⟩ := List.mem_iff_getElem?.mp hm
    rw [List.getElem?_take] at hj
    split_ifs at hj with hlt
    have hindex := (List.nodup_iff_getElem?_ne_getElem?.mp hlinks) j i hlt
      (by simpa using (List.getElem?_eq_some_iff.mp hl).1)
    rw [List.getElem?_map, List.getElem?_map, hj, hl] at hindex
    exact hindex (congrArg some (beq_iff_eq.mp hsame))
  have hone := filter_key_of_nodup (fun u : RunnerLinkStats F A => IpAddr.toString u.ip) hprinted hu
  simp only [getElem?_syncLinks_link, hl, Option.map_some, hfirst, Bool.false_eq_true, if_false]
  rw [← haddress, hone]
  rfl

namespace Engine

theorem syncRunnerStats_links (e : Engine F A) :
    e.syncRunnerStats.config.links = syncLinks e.documentLinks e.config.links := by
  unfold syncRunnerStats documentLinks
  cases e.runner.bind (·.stats) <;> rfl

theorem syncRunnerStats_documentLinks (e : Engine F A) :
    e.syncRunnerStats.documentLinks = e.documentLinks := by
  apply documentLinks_of_stats
  unfold syncRunnerStats
  cases e.runner.bind (·.stats) <;> rfl

theorem syncRunnerStats_again_iff (e : Engine F A) :
    e.syncRunnerStats.syncRunnerStats = e.syncRunnerStats ↔
      syncLinks e.documentLinks (syncLinks e.documentLinks e.config.links) =
        syncLinks e.documentLinks e.config.links := by
  constructor
  · intro hagain
    have hlinks : e.syncRunnerStats.syncRunnerStats.config.links =
        e.syncRunnerStats.config.links := by rw [hagain]
    rwa [syncRunnerStats_links e.syncRunnerStats, syncRunnerStats_documentLinks,
      syncRunnerStats_links] at hlinks
  · intro hagain
    rcases e with ⟨config, _, _, _, _, _, _, _, _, _, _, _, runner⟩
    rcases hstats : runner.bind (·.stats) with _ | stats
    · simp only [syncRunnerStats, hstats]
    · simp only [documentLinks, hstats, Option.map_some, Option.getD_some] at hagain
      simp only [syncRunnerStats, hstats, syncStats, withLinks, hagain]
      split_ifs <;> rfl

/-- A second sync of one document changes nothing, and the links that the document describes
are published as standing by where they are published as disabled. -/
structure SyncSettles (e : Engine F A) : Prop where
  idempotent : e.syncRunnerStats.syncRunnerStats = e.syncRunnerStats
  consistent : ∀ (i : Nat) (l : EngineLinkConfig) (s : LinkSnapshot),
    e.config.links[i]? = some l → Documented e.documentLinks l.address →
      e.syncRunnerStats.snapshot.links[i]? = some s →
        (s.state = "Standby" ↔ s.adminEnabled = false)

section Distinct
variable {e : Engine F A} (hprint : Function.Injective (IpAddr.toString : A → String))
  (hlinks : (e.config.links.map (·.address)).Nodup)
  (hips : (e.documentLinks.map (·.ip)).Nodup)
include hprint hlinks hips

theorem synced_link {i : Nat} {l : EngineLinkConfig} (hl : e.config.links[i]? = some l)
    {u : RunnerLinkStats F A} (hu : u ∈ e.documentLinks)
    (haddress : IpAddr.toString u.ip = l.address) :
    (syncLinks e.documentLinks e.config.links)[i]? = some (syncLink u l) := by
  have hprinted := hips.map hprint
  rw [List.map_map] at hprinted
  exact getElem?_syncLinks_of_nodup hlinks hprinted hl hu haddress

theorem resynced_link {i : Nat} {l : EngineLinkConfig} (hl : e.config.links[i]? = some l)
    {u : RunnerLinkStats F A} (hu : u ∈ e.documentLinks)
    (haddress : IpAddr.toString u.ip = l.address) :
    (syncLinks e.documentLinks (syncLinks e.documentLinks e.config.links))[i]? =
      some (syncLink u (syncLink u l)) := by
  have hprinted := hips.map hprint
  rw [List.map_map] at hprinted
  have hsynced := synced_link hprint hlinks hips hl hu haddress
  rw [← syncLinks_addresses e.documentLinks] at hlinks
  exact getElem?_syncLinks_of_nodup hlinks hprinted hsynced hu rfl

theorem sync_settles_iff :
    e.SyncSettles ↔ DocumentAgrees e.documentLinks e.config.links := by
  constructor
  · intro h u hu l hl
    have hagain := (syncRunnerStats_again_iff e).mp h.idempotent
    have haddress : l.address = IpAddr.toString u.ip := by simpa using List.find?_some hl
    obtain ⟨i, hi⟩ := List.mem_iff_getElem?.mp (List.mem_of_find?_eq_some hl)
    have hsame := congrArg (·[i]?) hagain
    rw [resynced_link hprint hlinks hips hi hu haddress.symm,
      synced_link hprint hlinks hips hi hu haddress.symm] at hsame
    exact (syncLink_again_iff u l).mp (Option.some.inj hsame)
  · intro h
    have hflag : ∀ (i : Nat) (l : EngineLinkConfig), e.config.links[i]? = some l →
        ∀ u ∈ e.documentLinks, IpAddr.toString u.ip = l.address → u.adminEnabled = l.enabled := by
      intro i l hl u hu haddress
      refine h u hu l ?_
      rw [haddress]
      exact find?_of_nodup hlinks (List.mem_of_getElem? hl)
    refine ⟨(syncRunnerStats_again_iff e).mpr ?_, ?_⟩
    · apply List.ext_getElem?
      intro i
      rcases hl : e.config.links[i]? with _ | l
      · rw [getElem?_syncLinks_link, getElem?_syncLinks_link, hl]
        rfl
      · by_cases hdocument : Documented e.documentLinks l.address
        · obtain ⟨u, hu, haddress⟩ := hdocument
          rw [resynced_link hprint hlinks hips hl hu haddress,
            synced_link hprint hlinks hips hl hu haddress,
            (syncLink_again_iff u l).mpr (hflag i l hl u hu haddress)]
        · have hnone : e.documentLinks.filter (fun u => IpAddr.toString u.ip == l.address) = [] := by
            rw [List.filter_eq_nil_iff]
            intro u hu haddress
            exact hdocument ⟨u, hu, beq_iff_eq.mp haddress⟩
          have hkept : (syncLinks e.documentLinks e.config.links)[i]? = some l := by
            rw [getElem?_syncLinks_link, hl, Option.map_some, hnone, List.foldl_nil, ite_self]
          rw [getElem?_syncLinks_link, hkept, Option.map_some, hnone, List.foldl_nil, ite_self]
    · rintro i l s hl ⟨u, hu, haddress⟩ hs
      have hshown : e.syncRunnerStats.snapshot.links[i]? =
          e.syncRunnerStats.config.links[i]?.map linkSnapshot := List.getElem?_map
      rw [hshown, syncRunnerStats_links, synced_link hprint hlinks hips hl hu haddress,
        Option.map_some] at hs
      obtain rfl := Option.some.inj hs
      have hstandby := syncLink_standby u l
      have hkept : (syncLink u l).enabled = l.enabled :=
        (syncLink_enabled u l).trans (hflag i l hl u hu haddress)
      simp only [linkSnapshot, hkept]
      cases henabled : l.enabled with
      | false => simp
      | true =>
        rw [henabled] at hstandby
        by_cases hempty : (syncLink u l).state = ""
        · simp [hempty]
        · simpa [hempty] using hstandby

end Distinct

def liveEntry (ip : Ipv4) : RunnerLinkStats ℚ Ipv4 :=
  { ip, connected := true, adminEnabled := true, payloadEligible := true, capacityReady := true
    ccTargetBps := 4000000, qualityMultiplier := 1, rttMs := 40 }

def describedEngine : Engine ℚ Ipv4 :=
  reached { links := [{ id := 1, label := "wan", address := "192.0.2.17" },
                      { id := 2, label := "lte", address := "192.0.2.33" }] }
    [.start, .runner (.publish (some
      { links := (["192.0.2.17", "192.0.2.33"].filterMap Ipv4.parse).map liveEntry }))]

theorem sync_settles_described : describedEngine.SyncSettles :=
  (sync_settles_iff Ipv4.toString_injective (by decide) (by decide)).mpr (by decide)

/-- The first link is disabled, and the document does not know yet. The sync labels the link by
the flag before, and enables it; the next one brings another label. -/
theorem sync_unsettled :
    ((describedEngine.setLinkEnabled 1 false).1.syncRunnerStats.snapshot.links.map fun s =>
        (s.adminEnabled, s.state)) = [(true, "Standby"), (true, "Live")] ∧
      ((describedEngine.setLinkEnabled 1 false).1.syncRunnerStats.syncRunnerStats.snapshot.links.map
        fun s => (s.adminEnabled, s.state)) = [(true, "Live"), (true, "Live")] := by
  decide +kernel

/-! Each link of the runner, and its own entry. -/

def telemetryOf (l : EngineLinkConfig) : EngineLinkConfig :=
  { l with id := 0, label := "", address := "", enabled := false }

/-- The link shows the entry, with the label that one of the two flags gives. -/
def Shows (u : RunnerLinkStats F A) (l : EngineLinkConfig) : Prop :=
  ∃ enabled, telemetryOf l = telemetryOf (syncLink u { l with enabled })

theorem shows_syncLink (u : RunnerLinkStats F A) (l : EngineLinkConfig) :
    Shows u (syncLink u l) := ⟨l.enabled, rfl⟩

/-- The link is written in the printed form of the address, and no link before it is. -/
structure Addressed (e : Engine F A) (ip : A) (i : Nat) (l : EngineLinkConfig) : Prop where
  printed : l.address = IpAddr.toString ip
  first : (e.config.links.take i).any (·.address == l.address) = false

theorem telemetry_received_iff (hprint : ∀ ip : A, IpAddr.parse (IpAddr.toString ip) = some ip)
    (e : Engine F A) {i : Nat} {l : EngineLinkConfig} {ip : A} (hl : e.config.links[i]? = some l)
    (hip : IpAddr.parse l.address = some ip) (hdocument : ∃ u ∈ e.documentLinks, u.ip = ip) :
    (∃ l', e.syncRunnerStats.config.links[i]? = some l' ∧
        ∃ u ∈ e.documentLinks, u.ip = ip ∧ Shows u l') ↔
      e.Addressed ip i l ∨ ∃ u ∈ e.documentLinks, u.ip = ip ∧ Shows u l := by
  rw [syncRunnerStats_links, getElem?_syncLinks_link, hl, Option.map_some]
  -- the entries that are found by the text of the address
  have hentries : ∀ u ∈ e.documentLinks.filter (fun u => IpAddr.toString u.ip == l.address),
      u ∈ e.documentLinks ∧ u.ip = ip ∧ l.address = IpAddr.toString ip := by
    intro u hu
    obtain ⟨hmem, haddress⟩ := List.mem_filter.mp hu
    have haddress := beq_iff_eq.mp haddress
    have hsame : u.ip = ip := by
      have hparse := hprint u.ip
      rw [haddress, hip] at hparse
      exact (Option.some.inj hparse).symm
    exact ⟨hmem, hsame, by rw [← haddress, hsame]⟩
  by_cases haddressed : e.Addressed ip i l
  · refine iff_of_true ⟨_, rfl, ?_⟩ (.inl haddressed)
    obtain ⟨u, hu, rfl⟩ := hdocument
    have hfound : u ∈ e.documentLinks.filter (fun u => IpAddr.toString u.ip == l.address) :=
      List.mem_filter.mpr ⟨hu, beq_iff_eq.mpr haddressed.printed.symm⟩
    rw [haddressed.first]
    obtain ⟨before, last, hlast⟩ :
        ∃ before last, e.documentLinks.filter (fun u => IpAddr.toString u.ip == l.address) =
          before ++ [last] := by
      have hne := List.ne_nil_of_mem hfound
      exact ⟨_, _, (List.dropLast_append_getLast hne).symm⟩
    obtain ⟨hmem, hsame, -⟩ := hentries last (by simp [hlast])
    refine ⟨last, hmem, hsame, ?_⟩
    simp only [hlast, List.foldl_append, List.foldl_cons, List.foldl_nil, Bool.false_eq_true,
      if_false]
    exact shows_syncLink last _
  · have hkept : (if (e.config.links.take i).any (·.address == l.address) then l
        else (e.documentLinks.filter fun u => IpAddr.toString u.ip == l.address).foldl
          (fun l u => syncLink u l) l) = l := by
      cases hfirst : (e.config.links.take i).any (·.address == l.address) with
      | true => rfl
      | false =>
        have hnone : e.documentLinks.filter (fun u => IpAddr.toString u.ip == l.address) = [] := by
          rw [List.eq_nil_iff_forall_not_mem]
          intro u hu
          exact haddressed ⟨(hentries u hu).2.2, hfirst⟩
        rw [hnone]
        rfl
    rw [hkept]
    constructor
    · rintro ⟨l', hl', hshown⟩
      obtain rfl := Option.some.inj hl'
      exact .inr hshown
    · rintro (hwritten | hshown)
      · exact absurd hwritten haddressed
      · exact ⟨l, rfl, hshown⟩

theorem telemetry_received_described :
    ∃ l', describedEngine.syncRunnerStats.config.links[1]? = some l' ∧
      ∃ u ∈ describedEngine.documentLinks, u.ip = ⟨[192, 0, 2, 33], rfl⟩ ∧ Shows u l' :=
  (telemetry_received_iff Ipv4.parse_toString describedEngine
    (l := { id := 2, label := "lte", address := "192.0.2.33" }) (by decide) (by decide)
    (by decide)).mpr (.inl ⟨by decide, by decide⟩)

def twinEngine : Engine ℚ Ipv4 :=
  reached { links := [{ id := 1, label := "usb0", address := "192.0.2.50" },
                      { id := 2, label := "usb1", address := "192.0.2.50" }] }
    [.start, .runner (.publish (some
      { links := (["192.0.2.50"].filterMap Ipv4.parse).map liveEntry }))]

/-- Both links were handed to the runner, and one entry describes both: the second of them
stays without it. -/
theorem twin_unreported :
    (embeddedLinks Ipv4 twinEngine.config.links).map (·.id) = [1, 2] ∧
      twinEngine.documentLinks.map (fun u => (IpAddr.toString u.ip, u.connected)) =
        [("192.0.2.50", true)] ∧
      twinEngine.syncRunnerStats.config.links.map (fun l => (l.connected, l.targetBps)) =
        [(true, 4000000), (false, 0)] := by
  decide +kernel

end Engine

end Srtla
