import SrtlaOutput.Engine.Defs
import SrtlaOutput.Lib.Reactive

/-! How far the links of an engine can be seen from outside. A link record holds telemetry
that no later reply depends on: the state text of a disabled link, which is overwritten
when the link is enabled, and the payload flag of a link that is not connected and
contributes nothing to the capacity. Every call answers and acts the same without it. -/

namespace Srtla
open Abr Reactive FirstMatch
variable {F A : Type}

/-- A snapshot can show the payload flag, at once or after the link is enabled. -/
def payloadShown (l : EngineLinkConfig) : Bool :=
  l.connected || (l.enabled && l.capacityReady && l.targetBps != 0)

def visibleLink (l : EngineLinkConfig) : EngineLinkConfig :=
  { l with
    state := if !l.enabled then "Standby" else if l.state = "" then "Warming" else l.state
    payloadEligible := l.payloadEligible && payloadShown l }

theorem visibleLink_visibleLink (l : EngineLinkConfig) :
    visibleLink (visibleLink l) = visibleLink l := by
  cases l
  simp only [visibleLink, payloadShown, Bool.and_assoc, Bool.and_self]
  split_ifs <;> simp_all

theorem linkSnapshot_visibleLink (l : EngineLinkConfig) :
    linkSnapshot (visibleLink l) = linkSnapshot l := by
  rcases l with ⟨_, _, _, enabled, connected, _⟩
  simp only [linkSnapshot, visibleLink, payloadShown]
  congr 1
  · cases connected <;> simp
  · split_ifs <;> simp_all

theorem toggleLink_of_enabled {l : EngineLinkConfig} (h : l.enabled = true) :
    toggleLink true l = l := by
  cases l
  cases h
  rfl

theorem toggleLink_visibleLink (enabled : Bool) (l : EngineLinkConfig) :
    visibleLink (toggleLink enabled (visibleLink l)) = visibleLink (toggleLink enabled l) := by
  rcases l with ⟨_, _, _, was, connected, _⟩
  cases enabled with
  | false => cases connected <;> simp [toggleLink, visibleLink, payloadShown]
  | true =>
    cases was with
    | true =>
      rw [toggleLink_of_enabled rfl, toggleLink_of_enabled rfl]
      exact visibleLink_visibleLink _
    | false => cases connected <;> simp [toggleLink, visibleLink, payloadShown]

def contribution (l : EngineLinkConfig) : UInt64 :=
  if l.enabled && l.payloadEligible && l.capacityReady then l.targetBps else 0

theorem linkCapacity_eq_sum (links : List EngineLinkConfig) :
    AbrController.linkCapacity (links.map linkCapacityOf) = (links.map contribution).sum := by
  induction links with
  | nil => rfl
  | cons l links ih =>
    rw [List.map_cons, List.map_cons, List.sum_cons, ← ih]
    unfold AbrController.linkCapacity contribution
    cases hl : l.enabled && l.payloadEligible && l.capacityReady <;>
      simp [linkCapacityOf, hl]

theorem contribution_visibleLink (l : EngineLinkConfig) :
    contribution (visibleLink l) = contribution l := by
  simp only [contribution, visibleLink, payloadShown]
  rcases l with ⟨_, _, _, enabled, _, ready, payload, target, _⟩
  by_cases ht : target = 0
  · simp [ht]
  · cases enabled <;> cases ready <;> simp [ht]

theorem decide_congr [F64 F] (c : AbrController F) (sample : AbrSample) {links : List LinkCapacity}
    (h : AbrController.linkCapacity links = AbrController.linkCapacity sample.links) (ready : Bool) :
    c.decide { sample with links, capacityReady := ready } = c.decide sample := by
  simp only [AbrController.decide, h, AbrController.decision, AbrController.control]

namespace Engine

def visible (e : Engine F A) : Engine F A := e.withLinks (e.config.links.map visibleLink)

theorem visible_visible (e : Engine F A) : e.visible.visible = e.visible := by
  simp only [visible, withLinks, List.map_map, Function.comp_def, visibleLink_visibleLink]

def LinkBlind {ω : Type} (call : Engine F A → Engine F A × ω) : Prop :=
  ∀ e links, call (e.withLinks links) = ((call e).1.withLinks links, (call e).2)

theorem LinkBlind.links {ω : Type} {call : Engine F A → Engine F A × ω} (h : LinkBlind call)
    (e : Engine F A) : (call e).1.config.links = e.config.links :=
  congrArg (fun r => r.1.config.links) (h e e.config.links)

theorem LinkBlind.visible {ω : Type} {call : Engine F A → Engine F A × ω} (h : LinkBlind call)
    (e : Engine F A) :
    (call e).1.visible = (call e.visible).1.visible ∧ (call e).2 = (call e.visible).2 := by
  have hcall : call e.visible = ((call e).1.visible, (call e).2) := by
    rw [Engine.visible, Engine.visible, h.links]
    exact h e _
  rw [hcall]
  exact ⟨(visible_visible _).symm, rfl⟩

theorem submitSrtDatagram_linkBlind (data : List UInt8) :
    LinkBlind fun e : Engine F A => e.submitSrtDatagram data := by
  rintro ⟨_, input, _, running, _, _, _, _, _, _, _, _, runner⟩ links
  unfold submitSrtDatagram
  cases data.isEmpty with
  | true => rfl
  | false =>
    cases running with
    | false => rfl
    | true =>
      cases runner with
      | none => cases hpush : (input.push data).2 <;> simp [hpush, withLinks]
      | some r => rcases h : (r.submit data).2 with (_ | _) | _ <;> simp [h, withLinks, submitResult]

theorem deliver_linkBlind (capacity : Nat) (packet : Option (List UInt8)) :
    LinkBlind fun e : Engine F A => e.deliver capacity packet := by
  intro e links
  cases packet with
  | none => rfl
  | some packet =>
    simp only [deliver]
    split_ifs <;> rfl

theorem receiveSrtDatagram_linkBlind (capacity : Nat) :
    LinkBlind fun e : Engine F A => e.receiveSrtDatagram capacity := by
  intro e links
  have hrunning : (e.withLinks links).running = e.running := rfl
  have hrunner : (e.withLinks links).runner = e.runner := rfl
  have houtput : (e.withLinks links).output = e.output := rfl
  simp only [receiveSrtDatagram, hrunning, hrunner, houtput]
  cases e.runner with
  | none =>
    dsimp only
    split_ifs
    · rfl
    · rfl
    · rfl
    · exact deliver_linkBlind capacity _ { e with output := e.output.pop.1, runner := none } links
  | some r =>
    dsimp only
    split_ifs
    · rfl
    · rfl
    · exact deliver_linkBlind capacity _ { e with runner := some r.receive.1 } links

theorem tellRunner_linkBlind (send : EmbeddedSender F A → EmbeddedSender F A × Bool)
    (backpressure : String) : LinkBlind fun e : Engine F A => e.tellRunner send backpressure := by
  rintro ⟨_, _, _, _, _, _, _, _, _, _, _, _, runner⟩ links
  cases runner with
  | none => rfl
  | some r => cases h : (send r).2 <;> simp [tellRunner, h, withLinks]

theorem updateSrtStats_linkBlind (stats : Option SrtlaSrtStats) :
    LinkBlind fun e : Engine F A => e.updateSrtStats stats := by
  intro e links
  cases stats with
  | none => rfl
  | some stats =>
    simp only [updateSrtStats]
    split_ifs <;> rfl

theorem setMaxVideoBitrate_linkBlind (maxVideoBps : Nat) :
    LinkBlind fun e : Engine F A => e.setMaxVideoBitrate maxVideoBps := by
  intro e links
  simp only [setMaxVideoBitrate]
  split_ifs <;> rfl

/-! Links compared up to `visibleLink`. -/

theorem modifyFirst_visibleLink {p : EngineLinkConfig → Bool}
    {f : EngineLinkConfig → EngineLinkConfig} (hp : ∀ l, p (visibleLink l) = p l)
    (hf : ∀ l, visibleLink (f (visibleLink l)) = visibleLink (f l)) (links : List EngineLinkConfig) :
    (modifyFirst p f (links.map visibleLink)).map visibleLink =
      (modifyFirst p f links).map visibleLink := by
  induction links with
  | nil => rfl
  | cons l links ih =>
    cases h : p l with
    | true =>
      rw [List.map_cons, modifyFirst_cons_of_pos h, modifyFirst_cons_of_pos (by rw [hp, h])]
      simp only [List.map_cons, hf, List.map_map, Function.comp_def, visibleLink_visibleLink]
    | false =>
      rw [List.map_cons, modifyFirst_cons_of_neg h, modifyFirst_cons_of_neg (by rw [hp, h]),
        List.map_cons, List.map_cons, ih, visibleLink_visibleLink]

theorem foldl_visibleLink {α : Type} {g : List EngineLinkConfig → α → List EngineLinkConfig}
    (hg : ∀ links a, (g (links.map visibleLink) a).map visibleLink = (g links a).map visibleLink)
    (as : List α) (links : List EngineLinkConfig) :
    (as.foldl g (links.map visibleLink)).map visibleLink = (as.foldl g links).map visibleLink := by
  induction as generalizing links with
  | nil => simp only [List.foldl_nil, List.map_map, Function.comp_def, visibleLink_visibleLink]
  | cons a as ih =>
    rw [List.foldl_cons, List.foldl_cons, ← ih (g (links.map visibleLink) a), hg, ih]

theorem writeStats_visible (e : Engine F A) (updates : List LinkStatsUpdate) :
    (e.visible.writeStats updates).1.visible = (e.writeStats updates).1.visible := by
  refine congrArg e.withLinks (foldl_visibleLink (fun links update => ?_) updates e.config.links)
  exact modifyFirst_visibleLink (fun _ => rfl) (fun _ => rfl) links

theorem updateLinkStats_visible (e : Engine F A) (stats : JsonArg LinkStatsUpdate) :
    (e.visible.updateLinkStats stats).1.visible = (e.updateLinkStats stats).1.visible ∧
      (e.visible.updateLinkStats stats).2 = (e.updateLinkStats stats).2 := by
  cases stats with
  | null => exact ⟨visible_visible e, rfl⟩
  | invalid => exact ⟨visible_visible { e with lastError := "invalid link stats JSON" }, rfl⟩
  | array updates => exact ⟨writeStats_visible e updates, rfl⟩
  | object config => exact ⟨writeStats_visible e _, rfl⟩

theorem snapshot_visible (e : Engine F A) : e.visible.snapshot = e.snapshot := by
  have hlinks : e.visible.config.links = e.config.links.map visibleLink := rfl
  -- beside `connected` the payload flag is shown
  have hlive : (e.config.links.map visibleLink).any (fun l => l.enabled && l.connected &&
      l.payloadEligible) = e.config.links.any fun l => l.enabled && l.connected &&
      l.payloadEligible := by
    rw [List.any_map]
    refine congrArg e.config.links.any (funext fun l => ?_)
    rcases l with ⟨_, _, _, enabled, connected, _⟩
    cases connected <;> simp [visibleLink, payloadShown]
  have hcapacity : AbrController.linkCapacity ((e.config.links.map visibleLink).map linkCapacityOf) =
      AbrController.linkCapacity (e.config.links.map linkCapacityOf) := by
    rw [linkCapacity_eq_sum, linkCapacity_eq_sum, List.map_map]
    simp only [Function.comp_def, contribution_visibleLink]
  have hshown : (e.config.links.map visibleLink).map linkSnapshot =
      e.config.links.map linkSnapshot := by
    rw [List.map_map]
    simp only [Function.comp_def, linkSnapshot_visibleLink]
  have hup : (e.config.links.map visibleLink).any (fun l => l.enabled && l.connected) =
      e.config.links.any fun l => l.enabled && l.connected := by
    rw [List.any_map]
    rfl
  have henabled : (e.config.links.map visibleLink).any (·.enabled) =
      e.config.links.any (·.enabled) := by
    rw [List.any_map]
    rfl
  simp only [snapshot, hlinks, hlive, hcapacity, hshown, hup, henabled]
  rfl

section Addresses
variable [IpAddr A]

theorem embeddedLinks_visibleLink (links : List EngineLinkConfig) :
    embeddedLinks A (links.map visibleLink) = embeddedLinks A links := by
  rw [embeddedLinks, List.filterMap_map]
  rfl

theorem ensureRunner_withLinks (e : Engine F A) (links : List EngineLinkConfig) :
    (e.withLinks links).ensureRunner =
      (e.withLinks (links.map visibleLink)).ensureRunner.withLinks links := by
  have hwants : (e.withLinks (links.map visibleLink)).wantsRunner =
      (e.withLinks links).wantsRunner := by
    simp only [wantsRunner, withLinks, List.any_map]
    rfl
  have hrunning (links : List EngineLinkConfig) : (e.withLinks links).running = e.running := rfl
  simp only [ensureRunner, hwants, hrunning]
  cases e.running && (e.withLinks links).wantsRunner with
  | true => simp only [if_true, startRunner, withLinks, embeddedLinks_visibleLink]
  | false => rfl

theorem ensureRunner_visible {e : Engine F A} {links links' : List EngineLinkConfig}
    (h : links.map visibleLink = links'.map visibleLink) :
    (e.withLinks links).ensureRunner.visible = (e.withLinks links').ensureRunner.visible := by
  rw [ensureRunner_withLinks e links, ensureRunner_withLinks e links', ← h]
  exact congrArg (Engine.withLinks _) h

theorem tellRunner_visible {e : Engine F A} {links links' : List EngineLinkConfig}
    (h : links.map visibleLink = links'.map visibleLink)
    (send : EmbeddedSender F A → EmbeddedSender F A × Bool) (backpressure : String) :
    ((e.withLinks links).ensureRunner.tellRunner send backpressure).1.visible =
        ((e.withLinks links').ensureRunner.tellRunner send backpressure).1.visible ∧
      ((e.withLinks links).ensureRunner.tellRunner send backpressure).2 =
        ((e.withLinks links').ensureRunner.tellRunner send backpressure).2 := by
  rw [ensureRunner_withLinks e links, ensureRunner_withLinks e links', ← h]
  have hblind := tellRunner_linkBlind send backpressure
    (e.withLinks (links.map visibleLink)).ensureRunner
  dsimp only at hblind
  rw [hblind links, hblind links']
  exact ⟨congrArg (Engine.withLinks _) h, rfl⟩

theorem setLinkEnabled_visible (e : Engine F A) (linkId : UInt64) (enabled : Bool) :
    (e.visible.setLinkEnabled linkId enabled).1.visible =
        (e.setLinkEnabled linkId enabled).1.visible ∧
      (e.visible.setLinkEnabled linkId enabled).2 = (e.setLinkEnabled linkId enabled).2 := by
  have hlinks : e.visible.config.links = e.config.links.map visibleLink := rfl
  have hrunning : e.visible.running = e.running := rfl
  have hany : (e.config.links.map visibleLink).any (·.id == linkId) =
      e.config.links.any (·.id == linkId) := by
    rw [List.any_map]
    rfl
  have hfound : ((e.config.links.map visibleLink).find? (·.id == linkId)).any (·.enabled) =
      (e.config.links.find? (·.id == linkId)).any (·.enabled) := by
    rw [List.find?_map, Option.any_map]
    rfl
  have hcount : ((e.config.links.map visibleLink).filter (·.enabled)).length =
      (e.config.links.filter (·.enabled)).length := by
    rw [List.filter_map, List.length_map]
    rfl
  simp only [setLinkEnabled, hlinks, hrunning, hany, hfound, hcount]
  split_ifs
  · exact ⟨visible_visible e, rfl⟩
  · exact ⟨visible_visible e, rfl⟩
  · exact tellRunner_visible (modifyFirst_visibleLink (fun _ => rfl) (toggleLink_visibleLink enabled)
      e.config.links) _ _

theorem carryChoice_visibleLink (old : List EngineLinkConfig) (l : EngineLinkConfig) :
    carryChoice (old.map visibleLink) l = carryChoice old l := by
  have hfind : (old.map visibleLink).find? (·.id == l.id) =
      (old.find? (·.id == l.id)).map visibleLink := List.find?_map
  unfold carryChoice
  rw [hfind]
  cases old.find? (·.id == l.id) <;> rfl

theorem replaceLinks_visible (e : Engine F A) (links : List EngineLinkConfig) :
    e.visible.replaceLinks links = e.replaceLinks links := by
  have hcarry : carryChoice e.visible.config.links = carryChoice e.config.links :=
    funext (carryChoice_visibleLink e.config.links)
  rw [replaceLinks, hcarry]
  rfl

theorem updateAdapters_visible (e : Engine F A) (adapters : JsonArg EngineLinkConfig) :
    (e.visible.updateAdapters adapters).1.visible = (e.updateAdapters adapters).1.visible ∧
      (e.visible.updateAdapters adapters).2 = (e.updateAdapters adapters).2 := by
  cases adapters with
  | null => exact ⟨visible_visible e, rfl⟩
  | invalid => exact ⟨visible_visible { e with lastError := "invalid adapter JSON" }, rfl⟩
  | array links => simp only [updateAdapters, replaceLinks_visible, and_self]
  | object config => simp only [updateAdapters, replaceLinks_visible, and_self]

end Addresses

section Controller
variable [F64 F]

theorem setSessionState_linkBlind (state : Nat) (error : Option String) :
    LinkBlind fun e : Engine F A => e.setSessionState state error := by
  intro e links
  simp only [setSessionState]
  by_cases hstate : state > sessionStopped
  · rw [if_pos hstate, if_pos hstate]
  · rw [if_neg hstate, if_neg hstate]
    rfl

theorem decideAbr_visible (e : Engine F A) (nowMs : Nat) :
    (e.visible.decideAbr nowMs).1 = (e.decideAbr nowMs).1.visible ∧
      (e.visible.decideAbr nowMs).2 = (e.decideAbr nowMs).2 := by
  have hcapacity : AbrController.linkCapacity (e.visible.abrSample nowMs).links =
      AbrController.linkCapacity (e.abrSample nowMs).links := by
    show AbrController.linkCapacity (List.map _ (List.map _ _)) = _
    rw [linkCapacity_eq_sum, List.map_map]
    simp only [Function.comp_def, contribution_visibleLink]
    exact (linkCapacity_eq_sum _).symm
  have hdown : e.visible.allLinksDown = e.allLinksDown := by
    simp only [allLinksDown, visible, withLinks, List.any_map]
    rfl
  have hdecide : e.visible.abr.decide (e.visible.abrSample nowMs) = e.abr.decide (e.abrSample nowMs) := by
    refine Eq.trans ?_ (decide_congr e.abr (e.abrSample nowMs) hcapacity (e.visible.abrSample nowMs).capacityReady)
    simp only [abrSample, hdown]
    rfl
  simp only [decideAbr, hdecide, and_true]
  rfl

end Controller

variable [F64 F] [IpAddr A]

theorem syncStats_visible (e : Engine F A) (stats : RunnerStats F A) :
    (e.visible.syncStats stats).visible = (e.syncStats stats).visible := by
  have hlinks : (syncLinks stats.links (e.config.links.map visibleLink)).map visibleLink =
      (syncLinks stats.links e.config.links).map visibleLink :=
    foldl_visibleLink (fun links update =>
      modifyFirst_visibleLink (fun _ => rfl) (fun _ => rfl) links) stats.links e.config.links
  exact congrArg (Engine.withLinks (e.syncStats stats)) hlinks

theorem syncRunnerStats_visible (e : Engine F A) :
    e.visible.syncRunnerStats.visible = e.syncRunnerStats.visible := by
  have hrunner : e.visible.runner = e.runner := rfl
  simp only [syncRunnerStats, hrunner]
  cases e.runner.bind (·.stats) with
  | none => exact visible_visible e
  | some stats => exact syncStats_visible e stats

def freshRun (e : Engine F A) : Engine F A :=
  { e with
    input := e.input.reopen
    output := e.output.reopen
    lastError := ""
    sessionState := sessionIdle
    sessionError := ""
    srtStats := {}
    lastAbrDecision := {}
    abr := e.abr.resetForBitrate e.currentVideoBps
    running := true }

theorem start_eq (e : Engine F A) : e.start.1 = e.freshRun.ensureRunner := by
  show { (if e.wantsRunner then _ else _ : Engine F A) with running := true } =
    if true && e.wantsRunner then _ else _
  cases e.wantsRunner <;> rfl

theorem start_visible (e : Engine F A) : e.visible.start.1.visible = e.start.1.visible := by
  rw [start_eq, start_eq]
  show (e.freshRun.withLinks (e.config.links.map visibleLink)).ensureRunner.visible =
    (e.freshRun.withLinks e.config.links).ensureRunner.visible
  refine ensureRunner_visible ?_
  simp only [List.map_map, Function.comp_def, visibleLink_visibleLink]

theorem applyAbr_visible (e : Engine F A) (nowMs : Nat) :
    (e.visible.applyAbr nowMs).1.visible = (e.applyAbr nowMs).1.visible ∧
      (e.visible.applyAbr nowMs).2 = (e.applyAbr nowMs).2 := by
  have hvisible := decideAbr_visible e.visible.syncRunnerStats nowMs
  have hplain := decideAbr_visible e.syncRunnerStats nowMs
  rw [syncRunnerStats_visible] at hvisible
  exact ⟨hvisible.1.symm.trans hplain.1,
    congrArg AbrDecision.appliedBps (hvisible.2.symm.trans hplain.2)⟩

theorem copyStatsJson_visible (e : Engine F A) :
    e.visible.copyStatsJson.1.visible = e.copyStatsJson.1.visible ∧
      e.visible.copyStatsJson.2 = e.copyStatsJson.2 := by
  refine ⟨syncRunnerStats_visible e, ?_⟩
  rw [copyStatsJson, copyStatsJson, ← snapshot_visible, syncRunnerStats_visible, snapshot_visible]

/-- What one step keeps and answers depends on the links only as far as they are visible. -/
theorem forgets_visible : Forgets (step (F := F) (A := A)) visible id where
  keeps e i := by
    cases i with
    | start => exact (start_visible e).symm
    | stop => exact (visible_visible e.stop.1).symm
    | submitSrtDatagram data => exact ((submitSrtDatagram_linkBlind data).visible e).1
    | receiveSrtDatagram capacity => exact ((receiveSrtDatagram_linkBlind capacity).visible e).1
    | setLinkEnabled linkId enabled => exact (setLinkEnabled_visible e linkId enabled).1.symm
    | updateAdapters adapters => exact (updateAdapters_visible e adapters).1.symm
    | updateLinkStats stats => exact (updateLinkStats_visible e stats).1.symm
    | updateSrtStats stats => exact ((updateSrtStats_linkBlind stats).visible e).1
    | setAudioBitrate bps => exact (visible_visible (e.setAudioBitrate bps).1).symm
    | setVideoBitrate bps => exact (visible_visible (e.setVideoBitrate bps).1).symm
    | setMaxVideoBitrate bps => exact ((setMaxVideoBitrate_linkBlind bps).visible e).1
    | setSessionState state error => exact ((setSessionState_linkBlind state error).visible e).1
    | applyAbr nowMs => exact (applyAbr_visible e nowMs).1.symm
    | copyStatsJson => exact (copyStatsJson_visible e).1.symm
    | lastError => exact (visible_visible e).symm
    | runner effect => exact (visible_visible (e.step (.runner effect)).1).symm
  agrees e i := by
    cases i with
    | submitSrtDatagram data =>
      exact congrArg Reply.code ((submitSrtDatagram_linkBlind data).visible e).2
    | receiveSrtDatagram capacity =>
      have h := ((receiveSrtDatagram_linkBlind capacity).visible e).2
      exact congrArg (fun r : Int × List UInt8 => Reply.received r.1 r.2) h
    | setLinkEnabled linkId enabled =>
      exact congrArg Reply.code (setLinkEnabled_visible e linkId enabled).2.symm
    | updateAdapters adapters => exact congrArg Reply.code (updateAdapters_visible e adapters).2.symm
    | updateLinkStats stats => exact congrArg Reply.code (updateLinkStats_visible e stats).2.symm
    | updateSrtStats stats =>
      exact congrArg Reply.code ((updateSrtStats_linkBlind stats).visible e).2
    | setMaxVideoBitrate bps =>
      exact congrArg Reply.code ((setMaxVideoBitrate_linkBlind bps).visible e).2
    | setSessionState state error =>
      exact congrArg Reply.code ((setSessionState_linkBlind state error).visible e).2
    | applyAbr nowMs => exact congrArg Reply.bitrate (applyAbr_visible e nowMs).2.symm
    | copyStatsJson => exact congrArg Reply.snapshot (copyStatsJson_visible e).2.symm
    | _ => rfl

end Engine

end Srtla
