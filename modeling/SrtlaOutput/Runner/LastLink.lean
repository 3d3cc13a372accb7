import Mathlib.Data.List.Induction
import SrtlaOutput.Engine.Frame
import SrtlaOutput.Engine.Ipv4
import SrtlaOutput.Engine.Links
import SrtlaOutput.Engine.Visible
import SrtlaOutput.Runner.Defs

/-! Whether some link stays enabled. The guard on the last enabled link is part of
`srtla_engine_set_link_enabled` only. An adapter list or a stats document can disable
every link: the list that names no enabled link, and the document that is older than the
flags it overwrites. -/

namespace Srtla
open FirstMatch Schedule
variable {F A : Type}

def HasEnabled (links : List EngineLinkConfig) : Prop := ∃ l ∈ links, l.enabled = true

theorem hasEnabled_iff_flags {links : List EngineLinkConfig} :
    HasEnabled links ↔ true ∈ links.map (·.enabled) := by
  simp [HasEnabled]

theorem hasEnabled_iff_countP {links : List EngineLinkConfig} :
    HasEnabled links ↔ 0 < links.countP (·.enabled) := by
  rw [List.countP_pos_iff]
  rfl

theorem hasEnabled_toggle {links : List EngineLinkConfig} (h : HasEnabled links) {id : UInt64}
    {enabled : Bool} (hknown : links.any (·.id == id) = true)
    (hguard : enabled = false → (links.find? (·.id == id)).any (·.enabled) = true →
      1 < (links.filter (·.enabled)).length) :
    HasEnabled (modifyFirst (·.id == id) (toggleLink enabled) links) := by
  obtain ⟨t, ht⟩ : ∃ t, links.find? (·.id == id) = some t := by
    rw [← Option.isSome_iff_exists, List.find?_isSome]
    simpa using hknown
  obtain ⟨-, -, -, hflag⟩ := toggleLink_fields enabled t
  cases enabled with
  | true => exact ⟨_, mem_modifyFirst ht (toggleLink true), hflag⟩
  | false =>
    cases htarget : t.enabled with
    | false =>
      -- the link is disabled already, so no flag changes
      have hflags : (modifyFirst (·.id == id) (toggleLink false) links).map (·.enabled) =
          links.map (·.enabled) := by
        refine map_modifyFirst fun l hl => ?_
        obtain rfl : t = l := Option.some.inj (ht.symm.trans hl)
        rw [hflag, htarget]
      rw [hasEnabled_iff_flags, hflags]
      exact hasEnabled_iff_flags.mp h
    | true =>
      -- one flag goes, and there were at least two
      have hmany := hguard rfl (by rw [ht]; exact htarget)
      have hone := countP_le_modifyFirst (·.enabled) (·.id == id) (toggleLink false) links
      rw [← List.countP_eq_length_filter] at hmany
      rw [hasEnabled_iff_countP]
      omega

theorem hasEnabled_carryChoice (old new : List EngineLinkConfig) :
    HasEnabled (new.map (carryChoice old)) ↔
      ∃ l ∈ new, (old.find? (·.id == l.id)).any (·.enabled) = true := by
  simp only [HasEnabled, List.mem_map, exists_exists_and_eq_and, carryChoice_enabled]

section Document
variable [IpAddr A]

def lastFlag (updates : List (RunnerLinkStats F A)) (address : String) : Option Bool :=
  (updates.reverse.find? fun u => IpAddr.toString u.ip == address).map (·.adminEnabled)

/-- The flag that a sync leaves at an index. Only the first link of an address is written. -/
def syncedFlag (updates : List (RunnerLinkStats F A)) (links : List EngineLinkConfig) (i : Nat)
    (l : EngineLinkConfig) : Bool :=
  if (links.take i).any (·.address == l.address) then l.enabled
  else (lastFlag updates l.address).getD l.enabled

def DocumentKeeps (updates : List (RunnerLinkStats F A)) (links : List EngineLinkConfig) : Prop :=
  ∃ i : Fin links.length, syncedFlag updates links i links[i] = true

instance (updates : List (RunnerLinkStats F A)) (links : List EngineLinkConfig) :
    Decidable (DocumentKeeps updates links) :=
  inferInstanceAs (Decidable (∃ i : Fin links.length, syncedFlag updates links i links[i] = true))

variable [F64 F]

theorem getElem?_syncLinks (updates : List (RunnerLinkStats F A)) (links : List EngineLinkConfig)
    (i : Nat) :
    (syncLinks updates links)[i]?.map (·.enabled) = links[i]?.map (syncedFlag updates links i) := by
  rw [getElem?_syncLinks_link, Option.map_map]
  refine congrArg (links[i]?.map ·) (funext fun l => ?_)
  rw [Function.comp_apply, syncedFlag]
  split_ifs
  · rfl
  · exact foldl_filter_last syncLink_enabled updates l

theorem hasEnabled_syncLinks (updates : List (RunnerLinkStats F A))
    (links : List EngineLinkConfig) :
    HasEnabled (syncLinks updates links) ↔ DocumentKeeps updates links := by
  rw [hasEnabled_iff_flags, List.mem_iff_getElem?]
  constructor
  · rintro ⟨i, hi⟩
    rw [List.getElem?_map, getElem?_syncLinks] at hi
    obtain ⟨l, hl, hflag⟩ := Option.map_eq_some_iff.mp hi
    obtain ⟨hlt, rfl⟩ := List.getElem?_eq_some_iff.mp hl
    exact ⟨⟨i, hlt⟩, hflag⟩
  · rintro ⟨i, hflag⟩
    refine ⟨i, ?_⟩
    rw [List.getElem?_map, getElem?_syncLinks, List.getElem?_eq_getElem i.isLt, Option.map_some]
    exact congrArg some hflag

end Document

namespace Engine

structure LinkUp (e : Engine F A) : Prop where
  running : e.running = true
  enabled : HasEnabled e.config.links

theorem linkUp_congr {e e' : Engine F A} (hrunning : e'.running = e.running)
    (hflags : e'.config.links.map (·.enabled) = e.config.links.map (·.enabled)) :
    e'.LinkUp ↔ e.LinkUp := by
  have henabled : HasEnabled e'.config.links ↔ HasEnabled e.config.links := by
    rw [hasEnabled_iff_flags, hflags, ← hasEnabled_iff_flags]
  constructor
  · rintro ⟨hr, he⟩
    exact ⟨hrunning ▸ hr, henabled.mp he⟩
  · rintro ⟨hr, he⟩
    exact ⟨hrunning.trans hr, henabled.mpr he⟩

theorem updateSrtStats_running (e : Engine F A) (stats : Option SrtlaSrtStats) :
    (e.updateSrtStats stats).1.running = e.running := by
  cases stats with
  | none => rfl
  | some stats =>
    simp only [updateSrtStats]
    split_ifs <;> rfl

theorem updateLinkStats_flags (e : Engine F A) (stats : JsonArg LinkStatsUpdate) :
    (e.updateLinkStats stats).1.config.links.map (·.enabled) = e.config.links.map (·.enabled) := by
  have hwrite (updates : List LinkStatsUpdate) :
      (e.writeStats updates).1.config.links.map (·.enabled) = e.config.links.map (·.enabled) := by
    have hsetup := writeStats_setup updates e.config.links
    have hflags := congrArg (List.map fun s : UInt64 × String × String × Bool => s.2.2.2) hsetup
    rwa [List.map_map, List.map_map] at hflags
  cases stats with
  | null => rfl
  | invalid => rfl
  | array updates => exact hwrite updates
  | object config => exact hwrite _

section Addresses
variable [IpAddr A]

theorem setLinkEnabled_linkUp {e : Engine F A} (h : e.LinkUp) (id : UInt64) (enabled : Bool) :
    (e.setLinkEnabled id enabled).1.LinkUp := by
  refine ⟨(setLinkEnabled_peripheral e id enabled).running.trans h.running, ?_⟩
  simp only [setLinkEnabled]
  split_ifs with hunknown hlast
  · exact h.enabled
  · exact h.enabled
  · rw [tellRunner_config, ensureRunner_config]
    refine hasEnabled_toggle h.enabled (by simpa using hunknown) ?_
    rintro rfl htarget
    rw [h.running, htarget] at hlast
    simpa using hlast

def NamesEnabled (old : List EngineLinkConfig) : JsonArg EngineLinkConfig → Prop
  | .array new => ∃ l ∈ new, (old.find? (·.id == l.id)).any (·.enabled) = true
  | .object config => ∃ l ∈ config.links, (old.find? (·.id == l.id)).any (·.enabled) = true
  | .null => True
  | .invalid => True

theorem updateAdapters_linkUp_iff {e : Engine F A} (h : e.LinkUp)
    (adapters : JsonArg EngineLinkConfig) :
    (e.updateAdapters adapters).1.LinkUp ↔ NamesEnabled e.config.links adapters := by
  have hrunning := (updateAdapters_peripheral e adapters).running.trans h.running
  have hlinks : (e.updateAdapters adapters).1.LinkUp ↔
      HasEnabled (e.updateAdapters adapters).1.config.links := ⟨(·.enabled), fun he => ⟨hrunning, he⟩⟩
  rw [hlinks]
  cases adapters with
  | null => exact iff_of_true h.enabled trivial
  | invalid => exact iff_of_true h.enabled trivial
  | array new =>
    rw [updateAdapters, replaceLinks_links]
    exact hasEnabled_carryChoice _ new
  | object config =>
    rw [updateAdapters, replaceLinks_links]
    exact hasEnabled_carryChoice _ config.links

def SyncKeeps (e : Engine F A) : Prop :=
  ∀ r ∈ e.runner, ∀ stats ∈ r.stats, DocumentKeeps stats.links e.config.links

def LinkKept (e : Engine F A) : Input F A → Prop
  | .updateAdapters adapters => NamesEnabled e.config.links adapters
  | .applyAbr _ => e.SyncKeeps
  | .copyStatsJson => e.SyncKeeps
  | .stop => False
  | _ => True

variable [F64 F]

theorem sync_linkUp_iff {e : Engine F A} (h : e.LinkUp) :
    e.syncRunnerStats.LinkUp ↔ e.SyncKeeps := by
  have hrunning := (syncRunnerStats_peripheral e).running.trans h.running
  have hlinks : e.syncRunnerStats.LinkUp ↔ HasEnabled e.syncRunnerStats.config.links :=
    ⟨(·.enabled), fun he => ⟨hrunning, he⟩⟩
  rw [hlinks, syncRunnerStats, SyncKeeps]
  rcases hr : e.runner with _ | r
  · exact iff_of_true h.enabled (by simp)
  · rcases hstats : r.stats with _ | stats
    · rw [Option.bind_some, hstats]
      exact iff_of_true h.enabled (by simp [hstats])
    · rw [Option.bind_some, hstats]
      refine Iff.trans (hasEnabled_syncLinks stats.links e.config.links) ?_
      simp [hstats]

theorem step_linkUp_iff {e : Engine F A} (h : e.LinkUp) (i : Input F A) :
    (e.step i).1.LinkUp ↔ e.LinkKept i := by
  have hkept {e' : Engine F A} (hrunning : e'.running = e.running)
      (hlinks : e'.config.links = e.config.links) : e'.LinkUp ↔ True :=
    iff_true_intro ((linkUp_congr hrunning (by rw [hlinks])).mpr h)
  cases i with
  | start =>
    refine iff_true_intro ⟨rfl, ?_⟩
    show HasEnabled (e.step .start).1.config.links
    rw [Engine.step, start_eq, ensureRunner_config]
    exact h.enabled
  | stop => exact iff_false_intro fun hstop => Bool.noConfusion hstop.running
  | submitSrtDatagram data =>
    exact hkept (submitSrtDatagram_peripheral e data).running
      ((submitSrtDatagram_linkBlind data).links e)
  | receiveSrtDatagram capacity =>
    exact hkept (receiveSrtDatagram_peripheral e capacity).running
      ((receiveSrtDatagram_linkBlind capacity).links e)
  | setLinkEnabled linkId enabled => exact iff_true_intro (setLinkEnabled_linkUp h linkId enabled)
  | updateAdapters adapters => exact updateAdapters_linkUp_iff h adapters
  | updateLinkStats stats =>
    exact iff_true_intro ((linkUp_congr (updateLinkStats_peripheral e stats).running
      (updateLinkStats_flags e stats)).mpr h)
  | updateSrtStats stats =>
    exact hkept (updateSrtStats_running e stats) ((updateSrtStats_linkBlind stats).links e)
  | setAudioBitrate bps => exact hkept rfl rfl
  | setVideoBitrate bps => exact hkept rfl rfl
  | setMaxVideoBitrate bps =>
    refine hkept ?_ ((setMaxVideoBitrate_linkBlind bps).links e)
    simp only [Engine.step, setMaxVideoBitrate]
    split_ifs <;> rfl
  | setSessionState state error =>
    refine hkept ?_ ((setSessionState_linkBlind state error).links e)
    simp only [Engine.step, setSessionState]
    split_ifs <;> rfl
  | applyAbr nowMs =>
    have hdecide : (e.step (.applyAbr nowMs)).1.LinkUp ↔ e.syncRunnerStats.LinkUp :=
      linkUp_congr rfl rfl
    exact hdecide.trans (sync_linkUp_iff h)
  | copyStatsJson => exact sync_linkUp_iff h
  | lastError => exact hkept rfl rfl
  | runner effect => exact hkept rfl rfl

def act (e : Engine F A) (i : Input F A) : Option (Engine F A) := some (e.step i).1

/-- Through every run of a running engine whose steps leave a link enabled, whatever
documents the runner publishes, some link is enabled. -/
theorem last_link_kept {e t : Engine F A} (hrunning : e.running = true)
    (hsome : ∃ l ∈ e.config.links, l.enabled = true) {ins : List (Input F A)}
    (hrun : Run act LinkKept e ins t) : ∃ l ∈ t.config.links, l.enabled = true := by
  have hstep : ∀ (e : Engine F A) (i : Input F A) (t : Engine F A),
      e.LinkUp → e.LinkKept i → act e i = some t → t.LinkUp := by
    intro e i t h hok ht
    obtain rfl := Option.some.inj ht
    exact (step_linkUp_iff h i).mpr hok
  exact (hrun.invariant hstep ⟨hrunning, hsome⟩).enabled

end Addresses

section Decide
variable [IpAddr A]

instance (old : List EngineLinkConfig) (adapters : JsonArg EngineLinkConfig) :
    Decidable (NamesEnabled old adapters) :=
  match adapters with
  | .array new => inferInstanceAs (Decidable
      (∃ l ∈ new, (old.find? (·.id == l.id)).any (·.enabled) = true))
  | .object config => inferInstanceAs (Decidable
      (∃ l ∈ config.links, (old.find? (·.id == l.id)).any (·.enabled) = true))
  | .null => instDecidableTrue
  | .invalid => instDecidableTrue

instance (e : Engine F A) : Decidable e.SyncKeeps :=
  inferInstanceAs (Decidable (∀ r ∈ e.runner, ∀ stats ∈ r.stats,
    DocumentKeeps stats.links e.config.links))

instance (e : Engine F A) (i : Input F A) : Decidable (e.LinkKept i) :=
  match i with
  | .updateAdapters adapters => inferInstanceAs (Decidable (NamesEnabled e.config.links adapters))
  | .applyAbr _ => inferInstanceAs (Decidable e.SyncKeeps)
  | .copyStatsJson => inferInstanceAs (Decidable e.SyncKeeps)
  | .stop => instDecidableFalse
  | .start => instDecidableTrue
  | .submitSrtDatagram _ => instDecidableTrue
  | .receiveSrtDatagram _ => instDecidableTrue
  | .setLinkEnabled _ _ => instDecidableTrue
  | .updateLinkStats _ => instDecidableTrue
  | .updateSrtStats _ => instDecidableTrue
  | .setAudioBitrate _ => instDecidableTrue
  | .setVideoBitrate _ => instDecidableTrue
  | .setMaxVideoBitrate _ => instDecidableTrue
  | .setSessionState _ _ => instDecidableTrue
  | .lastError => instDecidableTrue
  | .runner _ => instDecidableTrue

end Decide

/-! Two links of which the second is a standby, and the schedule that disables both. -/

def withStandby : EngineConfig where
  links :=
    [{ id := 1, label := "wan", address := "10.0.0.1" },
      { id := 2, label := "lte", address := "10.0.0.2", enabled := false }]

def flagged (ip : Ipv4) (adminEnabled : Bool) : RunnerLinkStats ℚ Ipv4 :=
  { ip, adminEnabled, qualityMultiplier := 1 }

def standbyRun : List (Input ℚ Ipv4) :=
  [.setLinkEnabled 2 true, .runner (.publish (some { links := [flagged ⟨[10, 0, 0, 1], rfl⟩ true] })),
    .setLinkEnabled 1 false, .applyAbr 0, .updateAdapters (.array withStandby.links)]

def afterStandby : Engine ℚ Ipv4 :=
  (exec (guard act LinkKept) (create withStandby).start.1 standbyRun).get (by decide)

theorem last_link_kept_standby : ∃ l ∈ afterStandby.config.links, l.enabled = true := by
  have hrun : Run act LinkKept (create withStandby).start.1 standbyRun afterStandby :=
    .of_exec (Option.some_get _).symm
  exact last_link_kept (by decide) (by decide) hrun

end Engine

namespace System

def everyOpened (_ : Ipv4) : Bool := true

def standbyToggles : List (Event ℚ Ipv4) :=
  [.connect fun _ => true, .setLinkEnabled 2 true, .control everyOpened, .setLinkEnabled 2 false,
    .control everyOpened, .housekeeping everyOpened fun _ ip => Engine.flagged ip true,
    .setLinkEnabled 2 true]

def linkLeaves : List (Event ℚ Ipv4) :=
  [.updateAdapters (.array [{ id := 2, label := "lte", address := "10.0.0.2" }]), .copyStatsJson]

/-- The poll names link 2, which is enabled, and the runner has a link enabled at every
moment. The document is from before the last toggle, so its sync disables link 2. -/
theorem last_link_lost :
    ∃ s t : System ℚ Ipv4,
      exec next (started Engine.withStandby) standbyToggles = some s ∧
        s.engine.config.links.map (fun l => (l.id, l.enabled)) = [(1, true), (2, true)] ∧
        exec next s linkLeaves = some t ∧
        t.engine.config.links.map (fun l => (l.id, l.enabled)) = [(2, false)] ∧
        ∀ events ∈ (standbyToggles ++ linkLeaves).inits,
          ∃ u ∈ exec next (started Engine.withStandby) events,
            0 < EmbeddedRunner.enabledCount u.thread.configuredLinks := by
  refine ⟨_, _, rfl, ?_, rfl, ?_, ?_⟩ <;> decide

end System
end Srtla
