import SrtlaOutput.Runner.Turns

/-! A refresh of the adapter list that names the links as they are. -/

namespace Srtla
open Abr Reactive Mailbox Engine FirstMatch
variable {F A : Type}

def JsonArg.Lists (links : List EngineLinkConfig) : JsonArg EngineLinkConfig → Prop
  | .array links' => links' = links
  | .object config => config.links = links
  | _ => False

namespace Engine

section Call
variable [IpAddr A]

def Supplied (e : Engine F A) : Prop := e.running = true → e.wantsRunner = false

theorem ensureRunner_of_supplied {e : Engine F A} (h : e.Supplied) : e.ensureRunner = e := by
  rw [ensureRunner, if_neg]
  intro hstarts
  obtain ⟨hrunning, hwants⟩ := Bool.and_eq_true_iff.mp hstarts
  rw [h hrunning] at hwants
  cases hwants

theorem ensureRunner_supplied (e : Engine F A) : e.ensureRunner.Supplied := by
  unfold ensureRunner
  split_ifs with hstarts
  · exact fun _ => rfl
  · intro hrunning
    simpa [hrunning] using hstarts

theorem Supplied.congr {e e' : Engine F A} (h : e.Supplied) (hrunning : e'.running = e.running)
    (hlinks : e'.config.links.map linkKey = e.config.links.map linkKey)
    (hrunner : e'.runner.isNone = e.runner.isNone) : e'.Supplied := by
  intro hon
  rw [wantsRunner_of_setup hlinks hrunner]
  exact h (hrunning ▸ hon)

theorem Supplied.of_stats {e e' : Engine F A} (h : e.Supplied) (hrunning : e'.running = e.running)
    (hlinks : e'.config.links = e.config.links)
    (hstats : e'.runner.map (·.stats) = e.runner.map (·.stats)) : e'.Supplied := by
  refine h.congr hrunning (congrArg _ hlinks) ?_
  rw [← Option.not_isSome, ← Option.not_isSome, isSome_of_stats hstats]

theorem tellRunner_supplied {e : Engine F A} (h : e.Supplied) (message : Control A)
    (backpressure : String) : (e.tellRunner (·.trySend message) backpressure).1.Supplied := by
  have hrunning := (tellRunner_peripheral e (·.trySend message) backpressure).running
  have hconfig := tellRunner_config e (·.trySend message) backpressure
  exact h.of_stats hrunning (congrArg _ hconfig) (tellRunner_stats e message backpressure)

theorem carried_key (old adapters : List EngineLinkConfig) :
    (adapters.map (carryChoice old)).map linkKey = adapters.map linkKey := by
  rw [List.map_map]
  refine List.map_congr_left fun adapter _ => ?_
  rw [Function.comp_apply, carryChoice_eq]
  rfl

theorem setLinkEnabled_supplied {e : Engine F A} (h : e.Supplied) (linkId : UInt64) (enabled : Bool) :
    (e.setLinkEnabled linkId enabled).1.Supplied := by
  simp only [setLinkEnabled]
  split_ifs
  · exact h
  · exact h
  · exact tellRunner_supplied (ensureRunner_supplied _) _ _

theorem updateAdapters_supplied {e : Engine F A} (h : e.Supplied) (adapters : JsonArg EngineLinkConfig) :
    (e.updateAdapters adapters).1.Supplied := by
  cases adapters with
  | null => exact h
  | invalid => exact h.congr rfl rfl rfl
  | array links => exact tellRunner_supplied (ensureRunner_supplied _) _ _
  | object config => exact tellRunner_supplied (ensureRunner_supplied _) _ _

theorem updateLinkStats_supplied {e : Engine F A} (h : e.Supplied)
    (stats : JsonArg LinkStatsUpdate) : (e.updateLinkStats stats).1.Supplied := by
  cases stats with
  | null => exact h
  | invalid => exact h.congr rfl rfl rfl
  | array updates => exact h.congr rfl (map_key_of_setup (writeStats_setup updates e.config.links)) rfl
  | object config => exact h.congr rfl (map_key_of_setup (writeStats_setup _ e.config.links)) rfl

variable [F64 F]

theorem syncRunnerStats_supplied {e : Engine F A} (h : e.Supplied) : e.syncRunnerStats.Supplied := by
  unfold syncRunnerStats
  cases hstats : e.runner.bind (·.stats) with
  | none => exact h
  | some stats =>
    -- there is a document, so there is a runner
    intro _
    rcases hr : e.runner with _ | r
    · rw [hr] at hstats
      cases hstats
    · have hrunner : (e.syncStats stats).runner = some r := hr
      simp only [wantsRunner, hrunner, Option.isNone_some, Bool.false_and]

theorem step_supplied {e : Engine F A} (h : e.Supplied) (i : Input F A) : (e.step i).1.Supplied := by
  cases i with
  | start =>
    show e.start.1.Supplied
    rw [start_eq]
    exact ensureRunner_supplied _
  | stop => exact fun hrunning => by cases hrunning
  | submitSrtDatagram data =>
    exact h.of_stats (submitSrtDatagram_peripheral e data).running
      ((submitSrtDatagram_linkBlind data).links e) (submitSrtDatagram_stats e data)
  | receiveSrtDatagram capacity =>
    exact h.of_stats (receiveSrtDatagram_peripheral e capacity).running
      ((receiveSrtDatagram_linkBlind capacity).links e) (receiveSrtDatagram_stats e capacity)
  | setLinkEnabled linkId enabled => exact setLinkEnabled_supplied h linkId enabled
  | updateAdapters adapters => exact updateAdapters_supplied h adapters
  | updateLinkStats stats => exact updateLinkStats_supplied h stats
  | updateSrtStats stats =>
    simp only [Engine.step]
    cases stats with
    | none => exact h
    | some stats =>
      simp only [updateSrtStats]
      split_ifs
      · exact h
      · exact h.congr rfl rfl rfl
  | setAudioBitrate bps => exact h.congr rfl rfl rfl
  | setVideoBitrate bps => exact h.congr rfl rfl rfl
  | setMaxVideoBitrate bps =>
    simp only [Engine.step, setMaxVideoBitrate]
    split_ifs
    · exact h
    · exact h.congr rfl rfl rfl
  | setSessionState state error =>
    simp only [Engine.step, setSessionState]
    by_cases hstate : state > sessionStopped
    · rw [if_pos hstate]
      exact h
    · rw [if_neg hstate]
      exact h.congr rfl rfl rfl
  | applyAbr nowMs => exact (syncRunnerStats_supplied h).congr rfl rfl rfl
  | copyStatsJson => exact syncRunnerStats_supplied h
  | lastError => exact h
  | runner effect => exact h.congr rfl rfl Option.isNone_map

end Call

section Refresh
variable [IpAddr A] {e : Engine F A} {adapters : List EngineLinkConfig}

/-- A message that cannot be passed on leaves the text that is there already. -/
def Heard (e : Engine F A) : Prop :=
  e.Blocked → e.lastError = "adapter update queue backpressure"

theorem replaceLinks_eq (h : e.Supplied) (hkey : adapters.map linkKey = e.config.links.map linkKey) :
    e.replaceLinks adapters = (e.withLinks (adapters.map (carryChoice e.config.links))).tellRunner
      (·.trySend (.updateLinks (embeddedLinks A (adapters.map (carryChoice e.config.links)))))
      "adapter update queue backpressure" := by
  have hsupplied : (e.withLinks (adapters.map (carryChoice e.config.links))).Supplied :=
    h.congr rfl ((carried_key e.config.links adapters).trans hkey) rfl
  rw [replaceLinks, ensureRunner_of_supplied hsupplied]
  rfl

theorem refresh_undone (h : e.Supplied) (hkey : adapters.map linkKey = e.config.links.map linkKey)
    (hheard : e.Heard) :
    (mail e).length ≤ (mail (e.replaceLinks adapters).1).length ∧
      e = ((e.replaceLinks adapters).1.withLinks e.config.links).withControl (mail e) := by
  rw [replaceLinks_eq h hkey]
  generalize adapters.map (carryChoice e.config.links) = fresh
  generalize Control.updateLinks (embeddedLinks A fresh) = message
  by_cases hblocked : e.Blocked
  · have hblocked' : (e.withLinks fresh).Blocked := hblocked
    rw [tellRunner_of_blocked hblocked']
    refine ⟨le_rfl, ?_⟩
    have htext := hheard hblocked
    rw [← htext]
    exact (withControl_mail e).symm
  · rcases e with ⟨config, _, _, _, _, _, _, _, _, _, _, _, runner⟩
    cases runner with
    | none => exact ⟨le_rfl, rfl⟩
    | some r =>
      have haccepts : ¬r.Refuses := fun hrefuses => hblocked ⟨r, rfl, hrefuses⟩
      rcases r with ⟨_, control, alive, _, _, _⟩
      obtain ⟨halive, hroom⟩ := not_or.mp haccepts
      obtain rfl : alive = true := by simpa using halive
      have hroom : control.length < controlCapacity := Nat.lt_of_not_le hroom
      constructor
      · simp [tellRunner, EmbeddedSender.trySend, hroom, mail, withLinks]
      · simp only [tellRunner, EmbeddedSender.trySend, hroom, decide_true, Bool.and_self, if_true,
          withLinks]
        rfl

theorem replaceLinks_stats (h : e.Supplied)
    (hkey : adapters.map linkKey = e.config.links.map linkKey) :
    (e.replaceLinks adapters).1.runner.map (·.stats) = e.runner.map (·.stats) := by
  rw [replaceLinks_eq h hkey]
  exact tellRunner_stats _ _ _

/-- Each adapter says of its link what can be seen of it. -/
structure RefreshShows (e : Engine F A) (adapters : List EngineLinkConfig) : Prop where
  flags : FlagsHeld e.config.links
  shown : List.Forall₂ Restates adapters e.config.links
  heard : e.Heard

/-- What the adapters leave out, the document of the runner has. -/
structure RefreshRefills (e : Engine F A) (adapters : List EngineLinkConfig) : Prop where
  runner : e.runner.isSome = true
  flags : FlagsHeld e.config.links
  recovers : Recovers e.documentLinks [] adapters e.config.links
  heard : e.Heard

theorem recovers_carried {updates : List (RunnerLinkStats F A)} {before : List String}
    {old adapters links : List EngineLinkConfig} (h : Recovers updates before adapters links) :
    Recovers updates before (adapters.map (carryChoice old)) links := by
  induction h using Recovers.induction with
  | nil before => trivial
  | cons before adapter link adapters links hlink hrest ih =>
    refine ⟨hlink.imp_left fun hrestates => ?_, ih⟩
    rw [carryChoice_eq]
    exact hrestates

theorem RefreshShows.behind (hrefresh : e.RefreshShows adapters) (h : e.Supplied)
    (hkey : adapters.map linkKey = e.config.links.map linkKey) :
    Behind (e.replaceLinks adapters).1 e := by
  obtain ⟨hmail, hundone⟩ := refresh_undone h hkey hrefresh.heard
  refine ⟨mail e, hmail, ?_⟩
  have hvisible := (carried_visible_iff hkey hrefresh.flags).mpr hrefresh.shown
  have hlinks : (e.replaceLinks adapters).1.visible =
      ((e.replaceLinks adapters).1.withLinks e.config.links).visible := by
    rw [visible, replaceLinks_links, hvisible]
    rfl
  rw [hlinks, ← visible_withControl, ← hundone]

theorem RefreshRefills.pending [F64 F] (hrefresh : e.RefreshRefills adapters) (h : e.Supplied)
    (hkey : adapters.map linkKey = e.config.links.map linkKey) :
    Pending (e.replaceLinks adapters).1 e := by
  obtain ⟨hmail, hundone⟩ := refresh_undone h hkey hrefresh.heard
  have hstats := replaceLinks_stats h hkey
  have hrunner := (isSome_of_stats hstats).trans hrefresh.runner
  refine ⟨mail e, e.config.links, hmail, hundone, hrunner, ?_, ?_⟩
  · rw [replaceLinks_links]
    exact carried_setup hkey hrefresh.flags
  · rw [documentLinks_of_stats hstats, replaceLinks_links]
    exact recovers_carried hrefresh.recovers

theorem refresh_setup (h : e.Supplied) (hkey : adapters.map linkKey = e.config.links.map linkKey)
    (hflags : FlagsHeld e.config.links) : SameRunSetup (e.replaceLinks adapters).1 e := by
  have hsetup := carried_setup hkey hflags
  rw [replaceLinks_eq h hkey]
  obtain ⟨runner, text, htold⟩ := tellRunner_frame
    (e.withLinks (adapters.map (carryChoice e.config.links)))
    (.updateLinks (embeddedLinks A (adapters.map (carryChoice e.config.links))))
    "adapter update queue backpressure"
  rw [htold]
  exact ⟨rfl, hsetup, rfl, rfl, rfl, rfl, rfl⟩

variable [F64 F]

theorem restart_room (e : Engine F A) : e.stop.1.start.1.Room := by
  -- after a restart the runner has no message to take
  rw [start_eq, ensureRunner]
  intro r hr _
  split_ifs at hr
  · obtain rfl := Option.some.inj hr
    exact Nat.zero_lt_succ 31
  · cases hr

theorem along_probe (e : Engine F A) (linkId : UInt64) {ins : List (Input F A)}
    (hins : ins ∈ telemetryProbes linkId) :
    Along Engine.step FindsRoom e (.stop :: .start :: ins) := by
  refine ⟨trivial, trivial, ?_⟩
  simp only [telemetryProbes, List.mem_cons, List.not_mem_nil, or_false] at hins
  rcases hins with rfl | rfl | rfl
  · exact ⟨trivial, trivial⟩
  · exact ⟨restart_room e, trivial, trivial⟩
  · exact ⟨trivial, trivial, trivial⟩

omit [F64 F] [IpAddr A] in
theorem probe_isCall (linkId : UInt64) {ins : List (Input F A)}
    (hins : ins ∈ telemetryProbes linkId) :
    ∀ i ∈ Input.stop :: .start :: ins, i.isCall = true := by
  simp only [telemetryProbes, List.mem_cons, List.not_mem_nil, or_false] at hins
  rcases hins with rfl | rfl | rfl <;> simp [Input.isCall]

theorem refreshShows_of_replies (h : e.Supplied)
    (hkey : adapters.map linkKey = e.config.links.map linkKey)
    (hids : (e.config.links.map (·.id)).Nodup)
    (hsame : ∀ ins : List (Input F A), (∀ i ∈ ins, i.isCall = true) →
      Along Engine.step FindsRoom (e.replaceLinks adapters).1 ins →
        replies Engine.step (e.replaceLinks adapters).1 ins = replies Engine.step e ins) :
    e.RefreshShows adapters := by
  have hflags := flagsHeld_of_nodup hids
  have hsetup := refresh_setup h hkey hflags
  refine ⟨hflags, ?_, ?_⟩
  · have hunprobed : ∀ linkId, Unprobed (e.replaceLinks adapters).1 e linkId := by
      intro linkId ins hins
      have hrun := hsame (.stop :: .start :: ins) (probe_isCall linkId hins)
        (along_probe _ linkId hins)
      exact (List.cons.inj (List.cons.inj hrun).2).2
    have hids' : ((e.replaceLinks adapters).1.config.links.map (·.id)).Nodup := by
      rwa [map_id_of_key (map_key_of_setup hsetup.links)]
    have hvisible := visible_of_nextRun hsetup hids' hunprobed
    rw [replaceLinks_links] at hvisible
    exact (carried_visible_iff hkey hflags).mp hvisible
  · intro hblocked
    have hblocked' : (e.withLinks (adapters.map (carryChoice e.config.links))).Blocked := hblocked
    have htext := hsame [.lastError] (by simp [Input.isCall]) ⟨trivial, trivial⟩
    rw [replaceLinks_eq h hkey, tellRunner_of_blocked hblocked'] at htext
    simpa [Reactive.replies, Engine.step] using htext.symm

end Refresh

end Engine

/-! Both runs. -/

namespace System
variable [F64 F] [IpAddr A] [DecidableEq A]

theorem reached_supplied (config : EngineConfig) (ts : List (Turn F A)) :
    (exec turn (created config : System F A) ts).engine.Supplied := by
  refine exec_invariant (I := fun s : System F A => s.engine.Supplied) (fun s t h => ?_)
    (fun hrunning => by cases hrunning) ts
  rw [turn_engine]
  exact exec_invariant (I := Engine.Supplied) (fun _ i h => step_supplied h i) h _

omit [F64 F] [DecidableEq A] in
theorem updateAdapters_eq {argument : JsonArg EngineLinkConfig} {adapters : List EngineLinkConfig}
    (h : argument.Lists adapters) (e : Engine F A) :
    e.updateAdapters argument = e.replaceLinks adapters := by
  cases argument with
  | null => cases h
  | invalid => cases h
  | array links =>
    cases h
    rfl
  | object config =>
    cases h
    rfl

omit [DecidableEq A] in
theorem twin_of_refresh {s : System F A} {argument : JsonArg EngineLinkConfig}
    {adapters : List EngineLinkConfig} (hargument : argument.Lists adapters)
    (h : s.engine.Supplied) (hkey : adapters.map linkKey = s.engine.config.links.map linkKey)
    {ins : List (Input F A)}
    (hshows : ShowsAlike ins (s.engine.updateAdapters argument).1 s.engine) :
    Twin (embeddedLinks A (s.call (.updateAdapters argument)).engine.config.links)
      (added s.control (s.call (.updateAdapters argument)).control) ins
      (s.call (.updateAdapters argument)) s := by
  have hengine :
      (s.call (.updateAdapters argument)).engine = (s.engine.updateAdapters argument).1 :=
    spawn_engine s _
  have hrefreshed := updateAdapters_eq hargument s.engine
  refine ⟨hengine ▸ hshows, ?_, ?_⟩
  · have hrunner := isSome_of_stats (replaceLinks_stats h hkey)
    rw [← hrefreshed] at hrunner
    exact spawn_thread hrunner
  · refine extra_added ?_
    show mail _ = mail _ ++ _ ∨ mail _ = mail _
    rw [hengine, hrefreshed, replaceLinks_links, replaceLinks_eq h hkey]
    exact (tellRunner_mail _ _ _).imp_right And.left

/-- A refresh that names the links as they are is transparent where its records show what the links
showed, or the document of the runner brings the rest back before it is exposed, and the runner is
done with its links when it takes the message. With distinct ids it is transparent to every later
run only where the records show the same. -/
theorem unchanged_refresh_transparent (config : EngineConfig) (before : List (Turn F A))
    (argument : JsonArg EngineLinkConfig) (adapters : List EngineLinkConfig)
    (hargument : argument.Lists adapters)
    (hkey : adapters.map linkKey =
      (exec turn (created config : System F A) before).engine.config.links.map linkKey) :
    let s : System F A := exec turn (created config) before
    let refreshed := s.call (.updateAdapters argument)
    let links := embeddedLinks A refreshed.engine.config.links
    let position := added s.control refreshed.control
    (∀ ts, Along turn FindsRoom refreshed ts → TakenSettled links position refreshed ts →
      s.engine.RefreshShows adapters ∨
        s.engine.RefreshRefills adapters ∧ refreshed.engine.KeepsTelemetry (refreshed.trace ts) →
        refreshed.answers ts = s.answers (refreshed.without position ts)) ∧
    ((s.engine.config.links.map (·.id)).Nodup →
      (∀ ts, Along turn FindsRoom refreshed ts → TakenSettled links position refreshed ts →
        refreshed.answers ts = s.answers (refreshed.without position ts)) →
      s.engine.RefreshShows adapters) := by
  intro s refreshed links position
  have hsupplied : s.engine.Supplied := reached_supplied config before
  have hengine : refreshed.engine = (s.engine.replaceLinks adapters).1 :=
    (spawn_engine s _).trans (congrArg Prod.fst (updateAdapters_eq hargument s.engine))
  constructor
  · intro ts hroom htaken hrefresh
    have hshows : ShowsAlike (refreshed.trace ts) (s.engine.updateAdapters argument).1 s.engine := by
      rw [updateAdapters_eq hargument]
      rcases hrefresh with hshows | ⟨hrefills, hkeeps⟩
      · exact .inl (hshows.behind hsupplied hkey)
      · exact .inr ⟨hrefills.pending hsupplied hkey, hengine ▸ hkeeps⟩
    have htwin := twin_of_refresh hargument hsupplied hkey hshows
    exact htwin.answers hroom htaken
  · intro hids hsame
    refine refreshShows_of_replies hsupplied hkey hids fun ins hins hroom => ?_
    obtain ⟨is, rfl⟩ : ∃ is : List { i : Input F A // i.isCall = true }, is.map (·.val) = ins :=
      ⟨ins.attachWith _ hins, List.attachWith_map_subtype_val hins⟩
    rw [← hengine] at hroom ⊢
    have hrun := hsame (calls is) (along_calls hroom)
      (takenSettled_calls links position refreshed is)
    rwa [without_calls, answers_calls, answers_calls] at hrun

def measuredTick : Turn ℚ Ipv4 :=
  .housekeeping (fun _ => true) fun _ ip =>
    { ip, connected := true, payloadEligible := true, capacityReady := true, ccTargetBps := 4000000
      qualityMultiplier := 1 }

def measuredTurns : List (Turn ℚ Ipv4) :=
  [.call ⟨.start, rfl⟩, .call ⟨.setSessionState sessionConnected none, rfl⟩, .connect fun _ => true,
    measuredTick, .call ⟨.copyStatsJson, rfl⟩]

def measuredConfig : EngineConfig :=
  { links := [{ id := 1, label := "wan", address := "172.16.0.9" }] }

/-- The refreshed record has no telemetry; the next sync reads it from the document, and the message
finds the thread with its link open. -/
theorem unchanged_refresh_transparent_measured :
    let s : System ℚ Ipv4 := exec turn (created measuredConfig) measuredTurns
    let refreshed := s.call (.updateAdapters (.array measuredConfig.links))
    refreshed.answers [.call ⟨.lastError, rfl⟩, .control fun _ => false, .call ⟨.copyStatsJson, rfl⟩,
        measuredTick, .call ⟨.applyAbr 5, rfl⟩] =
      s.answers [.call ⟨.lastError, rfl⟩, .call ⟨.copyStatsJson, rfl⟩, measuredTick,
        .call ⟨.applyAbr 5, rfl⟩] := by
  have h := unchanged_refresh_transparent measuredConfig measuredTurns (.array measuredConfig.links)
    measuredConfig.links rfl (by decide +kernel)
  refine h.1 [.call ⟨.lastError, rfl⟩, .control fun _ => false, .call ⟨.copyStatsJson, rfl⟩,
    measuredTick, .call ⟨.applyAbr 5, rfl⟩] ⟨trivial, trivial, trivial, trivial, trivial, trivial⟩ ?_
    (.inr ⟨⟨?_, ?_, ?_, ?_⟩, ?_⟩)
  · decide +kernel
  · decide +kernel
  · decide +kernel
  · exact ⟨.inr ⟨by decide +kernel, by decide⟩, trivial⟩
  · rintro ⟨r, hr, hrefuses⟩
    obtain rfl := Option.some.inj hr
    rcases hrefuses with hdead | hfull
    · cases hdead
    · exact absurd hfull (by decide)
  · exact .inr ⟨trivial, .inr ⟨trivial, .inl rfl⟩⟩

/-- The one link is up, by the statistics of the caller: there is no runner. -/
def reportedTurns : List (Turn ℚ Ipv4) :=
  [.call ⟨.start, rfl⟩, .call ⟨.setSessionState sessionConnected none, rfl⟩,
    .call ⟨.updateLinkStats (.array [{ id := 1, connected := true, payloadEligible := true }]), rfl⟩]

/-- After the refresh the link is down, and the bitrate falls to the minimum. -/
theorem unchanged_refresh_disconnects :
    let s : System ℚ Ipv4 := exec turn (created { links := [{ id := 1, label := "wan" }] }) reportedTurns
    [{ id := 1, label := "wan" }].map linkKey = s.engine.config.links.map linkKey ∧
      s.answers [.call ⟨.applyAbr 5, rfl⟩] = [.bitrate 1500000] ∧
      (s.call (.updateAdapters (.array [{ id := 1, label := "wan" }]))).answers
        [.call ⟨.applyAbr 5, rfl⟩] = [.bitrate 500000] := by
  decide +kernel

end System
end Srtla
