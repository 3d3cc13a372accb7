import SrtlaOutput.Engine.Ipv4
import SrtlaOutput.Engine.Visible
import SrtlaOutput.Engine.Frame
import SrtlaOutput.Engine.Links
import SrtlaOutput.Abr.Range

/-! What a stop and a start carry over. Both reset the session, the statistics, the
controller and the queues; the link records survive inside the configuration with their
telemetry, and later snapshots show it. -/

namespace Srtla
open Abr Reactive FirstMatch
variable {F A : Type}

theorem contribution_modifyFirst {p : EngineLinkConfig → Bool}
    {f : EngineLinkConfig → EngineLinkConfig} {links : List EngineLinkConfig} {l : EngineLinkConfig}
    (h : links.find? p = some l) :
    ((modifyFirst p f links).map contribution).sum + contribution l =
      (links.map contribution).sum + contribution (f l) := by
  induction links with
  | nil => cases h
  | cons a links ih =>
    cases hp : p a with
    | true =>
      obtain rfl : a = l := by simpa [hp] using h
      rw [modifyFirst_cons_of_pos hp, List.map_cons, List.map_cons, List.sum_cons, List.sum_cons]
      ac_rfl
    | false =>
      rw [List.find?_cons_of_neg (by simp [hp])] at h
      rw [modifyFirst_cons_of_neg hp, List.map_cons, List.map_cons, List.sum_cons, List.sum_cons,
        UInt64.add_assoc, ih h, UInt64.add_assoc]

theorem visibleLink_eq {l l' : EngineLinkConfig} (hsetup : linkSetup l = linkSetup l')
    (hshown : linkSnapshot l = linkSnapshot l')
    (htoggled : linkSnapshot (toggleLink true l) = linkSnapshot (toggleLink true l'))
    (hcontribution : contribution l = contribution l') : visibleLink l = visibleLink l' := by
  rcases l with ⟨_, _, _, enabled, connected, ready, payload, target, _, _, _, _, _, _, _, _, _, _⟩
  rcases l' with ⟨_, _, _, _, _, _, payload', _, _, _, _, _, _, _, _, _, _, _⟩
  simp only [linkSetup, Prod.mk.injEq] at hsetup
  obtain ⟨rfl, rfl, rfl, rfl⟩ := hsetup
  simp only [linkSnapshot, LinkSnapshot.mk.injEq, true_and] at hshown
  obtain ⟨rfl, hpayload, rfl, rfl, hstate, rfl, rfl, rfl, rfl, rfl, rfl, rfl, rfl, rfl⟩ := hshown
  have hflag : (payload && (connected || (enabled && ready && target != 0))) =
      (payload' && (connected || (enabled && ready && target != 0))) := by
    -- a connected link shows its payload flag, once it is enabled; of any other link the flag
    -- is seen in the capacity sum
    cases connected with
    | true =>
      cases enabled with
      | true => simpa using hpayload
      | false =>
        simpa [linkSnapshot, toggleLink] using congrArg LinkSnapshot.payloadEligible htoggled
    | false =>
      simp only [contribution] at hcontribution
      by_cases htarget : target = 0
      · simp [htarget]
      · cases enabled <;> cases ready <;> cases payload <;> cases payload' <;> simp_all
  simp only [visibleLink, payloadShown, hstate, hflag]

namespace Engine

/-- Two engines that are configured in one way, whatever their previous run left behind. -/
structure SameRunSetup (e e' : Engine F A) : Prop where
  config : { e.config with links := [] } = { e'.config with links := [] }
  links : e.config.links.map linkSetup = e'.config.links.map linkSetup
  limits : e.abr.config = e'.abr.config
  currentVideoBps : e.currentVideoBps = e'.currentVideoBps
  audioBps : e.audioBps = e'.audioBps
  inputCapacity : e.input.capacity = e'.input.capacity
  outputCapacity : e.output.capacity = e'.output.capacity

section Controller
variable [F64 F]

theorem freshRun_eq {e e' : Engine F A} (h : SameRunSetup e e') :
    e.stop.1.freshRun.withLinks [] = e'.stop.1.freshRun.withLinks [] := by
  have hreset := AbrController.resetForBitrate_congr h.limits e'.currentVideoBps
  simp only [withLinks, freshRun, stop, DatagramQueue.reopen, DatagramQueue.close, h.config,
    h.audioBps, h.currentVideoBps, h.inputCapacity, h.outputCapacity, hreset]

end Controller

/-! Reading the telemetry back. The handle of a new runner holds an empty document, so a
sync changes nothing until the runner has published one. -/

def Quiet (e : Engine F A) : Prop := ∀ r, e.runner = some r → r.stats = some {}

theorem tellRunner_quiet {e : Engine F A} (h : e.Quiet)
    {send : EmbeddedSender F A → EmbeddedSender F A × Bool}
    (hsend : ∀ r, (send r).1.stats = r.stats) (backpressure : String) :
    (e.tellRunner send backpressure).1.Quiet := by
  unfold tellRunner
  rcases hr : e.runner with _ | r
  · exact h
  · have hstats : (send r).1.stats = some {} := (hsend r).trans (h r hr)
    dsimp only
    split_ifs <;>
    · intro r' hr'
      obtain rfl := Option.some.inj hr'
      exact hstats

theorem trySend_stats (r : EmbeddedSender F A) (message : Control A) :
    (r.trySend message).1.stats = r.stats := by
  unfold EmbeddedSender.trySend
  split_ifs <;> rfl

section Addresses
variable [IpAddr A]

theorem ensureRunner_quiet {e : Engine F A} (h : e.Quiet) : e.ensureRunner.Quiet := by
  unfold ensureRunner
  split_ifs
  · intro r hr
    obtain rfl := Option.some.inj hr
    rfl
  · exact h

theorem setLinkEnabled_quiet {e : Engine F A} (h : e.Quiet) {linkId : UInt64}
    (hmem : e.config.links.any (·.id == linkId) = true) :
    (e.setLinkEnabled linkId true).1.Quiet ∧ (e.setLinkEnabled linkId true).1.config.links =
      modifyFirst (·.id == linkId) (toggleLink true) e.config.links := by
  simp only [setLinkEnabled, hmem, Bool.not_true, Bool.and_false, Bool.false_and,
    Bool.false_eq_true, if_false]
  constructor
  · have hlinked : (e.withLinks (modifyFirst (·.id == linkId) (toggleLink true)
        e.config.links)).Quiet := h
    exact tellRunner_quiet (ensureRunner_quiet hlinked)
      (fun r => trySend_stats r (.setLink linkId true)) _
  · rw [tellRunner_config, ensureRunner_config]
    rfl

end Addresses

variable [F64 F] [IpAddr A]

def nextRun (e : Engine F A) (ins : List (Input F A)) : List Reply := replies step e.stop.1.start.1 ins

theorem restart_visible {e e' : Engine F A} (h : SameRunSetup e e')
    (hlinks : e.config.links.map visibleLink = e'.config.links.map visibleLink) :
    e.stop.1.start.1.visible = e'.stop.1.start.1.visible := by
  have hplain (e : Engine F A) : e.stop.1.start.1 =
      ((e.stop.1.freshRun.withLinks []).withLinks e.config.links).ensureRunner := start_eq _
  rw [hplain e, hplain e', freshRun_eq h]
  exact ensureRunner_visible hlinks

theorem syncRunnerStats_of_quiet {e : Engine F A} (h : e.Quiet) : e.syncRunnerStats = e := by
  unfold syncRunnerStats
  rcases hr : e.runner with _ | r
  · rfl
  · rw [Option.bind_some, h r hr]
    rfl

theorem restart_quiet (e : Engine F A) : e.stop.1.start.1.Quiet := by
  rw [start_eq]
  refine ensureRunner_quiet ?_
  intro r hr
  cases hr

theorem restart_links (e : Engine F A) : e.stop.1.start.1.config.links = e.config.links := by
  rw [start_eq, ensureRunner_config]
  rfl

/-- What reads the telemetry of a link back in the next run: a snapshot, at once, after the
link is switched on, and after its capacity is written over. -/
def telemetryProbes (linkId : UInt64) : List (List (Input F A)) :=
  [[.copyStatsJson], [.setLinkEnabled linkId true, .copyStatsJson],
    [.updateLinkStats (.array [{ id := linkId }]), .copyStatsJson]]

def Unprobed (e e' : Engine F A) (linkId : UInt64) : Prop :=
  ∀ ins ∈ telemetryProbes linkId, nextRun e ins = nextRun e' ins

theorem nextRun_snapshot {e e' : Engine F A} {linkId : UInt64} (h : Unprobed e e' linkId) :
    e.config.links.map linkSnapshot = e'.config.links.map linkSnapshot ∧
      (e.config.links.map contribution).sum = (e'.config.links.map contribution).sum := by
  have hsnap : e.stop.1.start.1.syncRunnerStats.snapshot = e'.stop.1.start.1.syncRunnerStats.snapshot := by
    simpa [nextRun, replies, step, copyStatsJson] using
      h [.copyStatsJson] (by simp [telemetryProbes])
  rw [syncRunnerStats_of_quiet (restart_quiet e), syncRunnerStats_of_quiet (restart_quiet e')] at hsnap
  have hlinks := congrArg EngineSnapshot.links hsnap
  have hcapacity := congrArg EngineSnapshot.linkCapacityBps hsnap
  simp only [snapshot, restart_links, linkCapacity_eq_sum] at hlinks hcapacity
  exact ⟨hlinks, hcapacity⟩

theorem nextRun_toggle {e e' : Engine F A} (hsetup : SameRunSetup e e') {linkId : UInt64}
    (h : Unprobed e e' linkId) (hmem : e.config.links.any (·.id == linkId) = true) :
    (modifyFirst (·.id == linkId) (toggleLink true) e.config.links).map linkSnapshot =
      (modifyFirst (·.id == linkId) (toggleLink true) e'.config.links).map linkSnapshot := by
  have hids := map_id_of_key (map_key_of_setup hsetup.links)
  have hany (links : List EngineLinkConfig) :
      links.any (·.id == linkId) = (links.map (·.id)).any (· == linkId) := by
    rw [List.any_map]
    rfl
  have hmem' : e'.config.links.any (·.id == linkId) = true := by
    rw [hany, ← hids, ← hany, hmem]
  have hrestart (e : Engine F A) (hmem : e.config.links.any (·.id == linkId) = true) :=
    setLinkEnabled_quiet (restart_quiet e) ((restart_links e).symm ▸ hmem)
  have hsnap : (e.stop.1.start.1.setLinkEnabled linkId true).1.syncRunnerStats.snapshot =
      (e'.stop.1.start.1.setLinkEnabled linkId true).1.syncRunnerStats.snapshot := by
    have hrun := h [.setLinkEnabled linkId true, .copyStatsJson] (by simp [telemetryProbes])
    simp only [nextRun, replies, step, copyStatsJson, List.cons.injEq, Reply.snapshot.injEq] at hrun
    exact hrun.2.1
  rw [syncRunnerStats_of_quiet (hrestart e hmem).1, syncRunnerStats_of_quiet (hrestart e' hmem').1]
    at hsnap
  have hlinks := congrArg EngineSnapshot.links hsnap
  simpa only [snapshot, (hrestart e hmem).2, (hrestart e' hmem').2, restart_links] using hlinks

theorem nextRun_silence {e e' : Engine F A} {linkId : UInt64} (h : Unprobed e e' linkId) :
    ((modifyFirst (·.id == linkId) (writeLinkStats { id := linkId }) e.config.links).map
        contribution).sum =
      ((modifyFirst (·.id == linkId) (writeLinkStats { id := linkId }) e'.config.links).map
        contribution).sum := by
  have hsnap : (e.stop.1.start.1.writeStats [{ id := linkId }]).1.syncRunnerStats.snapshot =
      (e'.stop.1.start.1.writeStats [{ id := linkId }]).1.syncRunnerStats.snapshot := by
    have hrun := h [.updateLinkStats (.array [{ id := linkId }]), .copyStatsJson]
      (by simp [telemetryProbes])
    simp only [nextRun, replies, step, copyStatsJson, List.cons.injEq, Reply.snapshot.injEq] at hrun
    exact hrun.2.1
  have hquiet (e : Engine F A) :
      (e.stop.1.start.1.writeStats [{ id := linkId }]).1.Quiet := restart_quiet e
  rw [syncRunnerStats_of_quiet (hquiet e), syncRunnerStats_of_quiet (hquiet e')] at hsnap
  have hcapacity := congrArg EngineSnapshot.linkCapacityBps hsnap
  simpa only [snapshot, writeStats, withLinks, restart_links, linkCapacity_eq_sum, List.foldl_cons,
    List.foldl_nil] using hcapacity

theorem visible_of_nextRun {e e' : Engine F A} (hsetup : SameRunSetup e e')
    (hids : (e.config.links.map (·.id)).Nodup) (h : ∀ linkId, Unprobed e e' linkId) :
    e.config.links.map visibleLink = e'.config.links.map visibleLink := by
  -- links with distinct ids that no probe tells apart are visibly the same
  obtain ⟨hshown, htotal⟩ := nextRun_snapshot (h 0)
  have hids' : (e'.config.links.map (·.id)).Nodup := by
    rwa [← map_id_of_key (map_key_of_setup hsetup.links)]
  -- at each index: the snapshot, the snapshot after a toggle, and the sum without the link
  refine map_eq_of_map_eq hsetup.links fun i l l' hl hl' => ?_
  have hmem : l ∈ e.config.links := List.mem_of_getElem? hl
  have hmem' : l' ∈ e'.config.links := List.mem_of_getElem? hl'
  have hsame : linkSetup l = linkSetup l' := map_getElem? hsetup.links hl hl'
  have hid : l'.id = l.id := (congrArg Prod.fst hsame).symm
  have htoggled : linkSnapshot (toggleLink true l) = linkSnapshot (toggleLink true l') := by
    have hmap := nextRun_toggle hsetup (h l.id)
      (List.any_eq_true.mpr ⟨l, hmem, beq_self_eq_true l.id⟩)
    rw [modifyFirst_eq_map hids, modifyFirst_eq_map hids', List.map_map, List.map_map] at hmap
    simpa [hid] using map_getElem? hmap hl hl'
  have hcontribution : contribution l = contribution l' := by
    have hzero (l : EngineLinkConfig) (id : UInt64) : contribution (writeLinkStats { id } l) = 0 := by
      simp [contribution, writeLinkStats]
    have hsum := contribution_modifyFirst (f := writeLinkStats { id := l.id })
      (find?_of_nodup hids hmem)
    have hsum' := contribution_modifyFirst (f := writeLinkStats { id := l.id })
      (find?_of_nodup hids' hmem')
    rw [hid, hzero, ← htotal, ← nextRun_silence (h l.id)] at hsum'
    rw [hzero, ← hsum'] at hsum
    exact (UInt64.add_right_inj _).mp hsum
  exact visibleLink_eq hsame (map_getElem? hshown hl hl') htoggled hcontribution

/-- A new run is isolated from the previous one where the surviving link records are
visibly the same; where their ids are distinct, only there. -/
theorem next_run_isolated {e e' : Engine F A} (hsetup : SameRunSetup e e') :
    (e.config.links.map visibleLink = e'.config.links.map visibleLink →
        ∀ ins, nextRun e ins = nextRun e' ins) ∧
      ((e.config.links.map (·.id)).Nodup → (∀ ins, nextRun e ins = nextRun e' ins) →
        e.config.links.map visibleLink = e'.config.links.map visibleLink) := by
  constructor
  · intro hlinks ins
    have hrun := forgets_visible.lockstep.replies (restart_visible hsetup hlinks) ins
    rwa [List.map_id, List.map_id] at hrun
  · intro hids h
    exact visible_of_nextRun hsetup hids fun _ ins _ => h ins

def shownRates : Reply → List UInt64
  | .snapshot s => s.links.map (·.deliveredBps)
  | _ => []

def afterRun (enabled : Bool) (stats : LinkStatsUpdate) : Engine ℚ Ipv4 :=
  exec step (create { links := [{ id := 1, label := "wan", enabled }] })
    [.start, .updateLinkStats (.array [stats])]

theorem next_run_isolated_standby :
    nextRun (afterRun false { id := 1, state := "Live" }) [.applyAbr 5, .copyStatsJson] =
      nextRun (afterRun false { id := 1, payloadEligible := true }) [.applyAbr 5, .copyStatsJson] :=
  (next_run_isolated ⟨rfl, rfl, rfl, rfl, rfl, rfl, rfl⟩).1 (by decide) _

/-- A rate that was delivered in the previous run is reported by the new one. -/
theorem next_run_reports_stale_rate :
    SameRunSetup (afterRun true { id := 1, deliveredBps := 700 }) (afterRun true { id := 1 }) ∧
      nextRun (afterRun true { id := 1, deliveredBps := 700 }) [.copyStatsJson] ≠
        nextRun (afterRun true { id := 1 }) [.copyStatsJson] := by
  refine ⟨⟨rfl, rfl, rfl, rfl, rfl, rfl, rfl⟩, fun h => ?_⟩
  have hrates := congrArg (List.map shownRates) h
  exact absurd hrates (by decide)

end Engine

end Srtla
