import Mathlib.Data.List.Nodup
import SrtlaOutput.Engine.Frame
import SrtlaOutput.Engine.Ipv4
import SrtlaOutput.Engine.Links
import SrtlaOutput.Engine.Visible
import SrtlaOutput.Lib.Mailbox
import SrtlaOutput.Runner.Defs

/-! Whose choice the flags of the links hold. The engine writes a flag when the operator
toggles a link and sends the choice to the runner; the runner follows its mailbox. A stats
document that is older than the last toggle makes the engine take the old flag back, and
the next adapter poll sends it to the runner. -/

namespace Srtla
open FirstMatch Mailbox Schedule
variable {F A : Type}

namespace EmbeddedRunner

theorem configure_addresses (links : List (EmbeddedLink A)) (id : UInt64) (enabled : Bool) :
    (configure links (.setLink id enabled)).map (·.address) = links.map (·.address) := by
  simp only [configure]
  split_ifs
  · rfl
  · exact map_modifyFirst fun _ _ => rfl

/-- The thread follows the links the engine last sent: the mailbox takes the configured
links there, and each connection has the flag of its configured link. -/
structure InStep (thread : EmbeddedRunner A) (mailbox : List (Control A))
    (links : List (EmbeddedLink A)) : Prop where
  tracks : Tracks configure thread.configuredLinks mailbox links
  addresses : thread.configuredLinks.map (·.address) = links.map (·.address)
  queued : ∀ new, .updateLinks new ∈ mailbox → new.map (·.address) = links.map (·.address)
  flagged : ∀ c ∈ thread.connections, ∀ link ∈ thread.configuredLinks,
    link.address = c.localIp → c.adminEnabled = link.enabled

variable {thread : EmbeddedRunner A} {mailbox : List (Control A)} {links : List (EmbeddedLink A)}

theorem InStep.fresh (links : List (EmbeddedLink A)) : InStep { configuredLinks := links } [] links where
  tracks := rfl
  addresses := rfl
  queued := by simp
  flagged := by simp

theorem InStep.send (h : InStep thread mailbox links) {m : Control A}
    (hkept : (configure links m).map (·.address) = links.map (·.address)) :
    InStep thread (mailbox ++ [m]) (configure links m) where
  tracks := h.tracks.send m
  addresses := h.addresses.trans hkept.symm
  queued new hnew := by
    rcases List.mem_append.mp hnew with hold | hlast
    · exact (h.queued new hold).trans hkept.symm
    · obtain rfl := List.mem_singleton.mp hlast
      rfl
  flagged := h.flagged

theorem InStep.opened (h : InStep thread mailbox links) (hdistinct : (links.map (·.address)).Nodup)
    {connections : List (SrtlaConnection A)} (started : Bool)
    (hopen : ∀ c ∈ connections, c.adminEnabled = true ∧ c.localIp ∈ enabledIps thread.configuredLinks) :
    InStep { thread with connections, started } mailbox links := by
  refine ⟨h.tracks, h.addresses, h.queued, ?_⟩
  intro c hc link hlink haddress
  obtain ⟨hflag, hip⟩ := hopen c hc
  obtain ⟨link', hlink', heq⟩ := List.mem_map.mp hip
  obtain ⟨hmem, henabled⟩ := List.mem_filter.mp hlink'
  have hdistinct' : (thread.configuredLinks.map (·.address)).Nodup := h.addresses ▸ hdistinct
  have hsame : link = link' := List.inj_on_of_nodup_map hdistinct' hlink hmem (haddress.trans heq.symm)
  rw [hflag, hsame, henabled]

theorem InStep.connect (h : InStep thread mailbox links) (hdistinct : (links.map (·.address)).Nodup)
    (opened : Nat → Bool) : InStep (thread.connect opened) mailbox links := by
  refine h.opened hdistinct true fun c hc => ?_
  obtain ⟨ip, hip, rfl⟩ := List.mem_map.mp hc
  exact ⟨rfl, List.fst_mem_of_mem_zipIdx (List.mem_filter.mp hip).1⟩

variable [DecidableEq A]

theorem setAdminEnabled_flagged {configured : List (EmbeddedLink A)}
    (h : (configured.map (·.address)).Nodup) (connections : List (SrtlaConnection A)) :
    ∀ c ∈ setAdminEnabled configured connections, ∀ link ∈ configured,
      link.address = c.localIp → c.adminEnabled = link.enabled := by
  intro c hc link hlink haddress
  obtain ⟨c₀, -, rfl⟩ := List.mem_map.mp hc
  have hip : link.address = c₀.localIp := by
    rw [haddress]
    split <;> rfl
  have hfind := find?_of_nodup h hlink
  rw [hip] at hfind
  simp only [hfind]

theorem handle_cases (thread : EmbeddedRunner A) (opened : A → Bool) (m : Control A) :
    (thread.handle opened m).configuredLinks = configure thread.configuredLinks m ∧
      ((thread.handle opened m).connections = thread.connections ∧
          configure thread.configuredLinks m = thread.configuredLinks ∨
        ∃ connections, (thread.handle opened m).connections =
          setAdminEnabled (configure thread.configuredLinks m) connections) := by
  cases m with
  | updateLinks new => exact ⟨rfl, .inr ⟨_, rfl⟩⟩
  | setLink id enabled =>
    have habsent (h : thread.configuredLinks.find? (·.id == id) = none) :
        configure thread.configuredLinks (.setLink id enabled) = thread.configuredLinks := by
      simp only [configure]
      split_ifs
      · rfl
      · exact modifyFirst_eq_self fun a ha => by simp [h] at ha
    simp only [handle, setLink]
    split
    · rename_i hnone
      exact ⟨(habsent hnone).symm, .inl ⟨rfl, habsent hnone⟩⟩
    · by_cases hlast : (!enabled && decide (enabledCount thread.configuredLinks ≤ 1)) = true
      · have hsame : configure thread.configuredLinks (.setLink id enabled) =
            thread.configuredLinks := if_pos hlast
        rw [if_pos hlast]
        exact ⟨hsame.symm, .inl ⟨rfl, hsame⟩⟩
      · rw [if_neg hlast]
        exact ⟨rfl, .inr ⟨_, rfl⟩⟩

theorem InStep.handle {m : Control A} (h : InStep thread (m :: mailbox) links)
    (hdistinct : (links.map (·.address)).Nodup) (opened : A → Bool) :
    InStep (thread.handle opened m) mailbox links := by
  obtain ⟨hconfigured, hconnections⟩ := handle_cases thread opened m
  have haddresses : (configure thread.configuredLinks m).map (·.address) =
      links.map (·.address) := by
    cases m with
    | setLink id enabled => exact (configure_addresses _ id enabled).trans h.addresses
    | updateLinks new => exact h.queued new List.mem_cons_self
  refine ⟨hconfigured ▸ h.tracks.take, hconfigured ▸ haddresses,
    fun new hnew => h.queued new (List.mem_cons_of_mem m hnew), ?_⟩
  rw [hconfigured]
  rcases hconnections with ⟨hsame, hlinks⟩ | ⟨connections, hset⟩
  · rw [hsame, hlinks]
    exact h.flagged
  · rw [hset]
    exact setAdminEnabled_flagged (haddresses ▸ hdistinct) connections

theorem InStep.reconnect (h : InStep thread mailbox links)
    (hdistinct : (links.map (·.address)).Nodup) (opened : A → Bool) :
    InStep (thread.reconnect opened) mailbox links := by
  unfold EmbeddedRunner.reconnect
  split_ifs
  · refine h.opened hdistinct thread.started fun c hc => ?_
    simp only [applyConnectionChanges, List.filter_nil, List.nil_append, List.mem_map,
      List.mem_filter, List.mem_eraseDups] at hc
    obtain ⟨ip, hip, rfl⟩ := hc
    exact ⟨rfl, hip.1.1⟩
  · exact h

end EmbeddedRunner
namespace System

theorem spawn_eq (s : System F A) {e : Engine F A}
    (h : e.runner.isNone = s.engine.runner.isNone) : s.spawn e = { s with engine := e } := by
  unfold spawn
  rcases hs : s.engine.runner with _ | _ <;> rcases he : e.runner with _ | _ <;>
    simp_all

theorem trySend_of_room {r : EmbeddedSender F A}
    (h : r.alive = true ∧ r.control.length < controlCapacity) (m : Control A) :
    r.trySend m = ({ r with control := r.control ++ [m] }, true) := by
  simp [EmbeddedSender.trySend, h.1, h.2]

def push (m : Control A) (r : EmbeddedSender F A) : EmbeddedSender F A :=
  { r with control := r.control ++ [m] }

theorem tellRunner_of_room {e : Engine F A}
    (h : ∀ r, e.runner = some r → r.alive = true ∧ r.control.length < controlCapacity)
    (m : Control A) (backpressure : String) :
    e.tellRunner (·.trySend m) backpressure = ({ e with runner := e.runner.map (push m) }, 0) := by
  rcases e with ⟨_, _, _, _, _, _, _, _, _, _, _, _, runner⟩
  cases runner with
  | none => rfl
  | some r => simp [Engine.tellRunner, trySend_of_room (h r rfl), push]

theorem tellRunner_runner (e : Engine F A) (m : Control A) (backpressure : String) :
    (e.tellRunner (·.trySend m) backpressure).1.runner = e.runner ∨
      (e.tellRunner (·.trySend m) backpressure).1.runner = e.runner.map (push m) := by
  rcases e with ⟨_, _, _, _, _, _, _, _, _, _, _, _, runner⟩
  cases runner with
  | none => exact .inl rfl
  | some r =>
    by_cases h : (r.alive && decide (r.control.length < controlCapacity)) = true
    · right
      simp only [Engine.tellRunner, EmbeddedSender.trySend, h, if_true, Option.map_some, push]
    · left
      simp only [Engine.tellRunner, EmbeddedSender.trySend, h, Bool.false_eq_true, if_false]

variable [IpAddr A]

def UnchangedAdapters (links : List EngineLinkConfig) : JsonArg EngineLinkConfig → Prop
  | .array adapters => adapters.map linkKey = links.map linkKey
  | .object config => config.links.map linkKey = links.map linkKey
  | .null => True
  | .invalid => True

/-- The step does not disturb the operator's choice. A toggle finds room in the control
channel and does not disable the only link the runner has enabled; an adapter list
is unchanged; and a sync reads a document that agrees with the flags of the engine. -/
def Undisturbed (s : System F A) : Event F A → Prop
  | .setLinkEnabled linkId enabled =>
    (∀ r ∈ s.engine.runner, r.alive = true ∧ r.control.length < controlCapacity) ∧
      (enabled = false → ∀ link ∈ embeddedLinks A s.engine.config.links, link.id = linkId →
        link.enabled = true →
          1 < EmbeddedRunner.enabledCount (embeddedLinks A s.engine.config.links))
  | .updateAdapters adapters => UnchangedAdapters s.engine.config.links adapters
  | .applyAbr _ => s.engine.SyncAgrees
  | .copyStatsJson => s.engine.SyncAgrees
  | _ => True

instance (links : List EngineLinkConfig) (adapters : JsonArg EngineLinkConfig) :
    Decidable (UnchangedAdapters links adapters) :=
  match adapters with
  | .array adapters => inferInstanceAs (Decidable (adapters.map linkKey = links.map linkKey))
  | .object config => inferInstanceAs (Decidable (config.links.map linkKey = links.map linkKey))
  | .null => instDecidableTrue
  | .invalid => instDecidableTrue

instance (s : System F A) (event : Event F A) : Decidable (s.Undisturbed event) :=
  match event with
  | .setLinkEnabled linkId enabled => inferInstanceAs (Decidable
      ((∀ r ∈ s.engine.runner, r.alive = true ∧ r.control.length < controlCapacity) ∧
        (enabled = false → ∀ link ∈ embeddedLinks A s.engine.config.links, link.id = linkId →
          link.enabled = true →
            1 < EmbeddedRunner.enabledCount (embeddedLinks A s.engine.config.links))))
  | .updateAdapters adapters =>
    inferInstanceAs (Decidable (UnchangedAdapters s.engine.config.links adapters))
  | .applyAbr _ => inferInstanceAs (Decidable (s.engine.SyncAgrees))
  | .copyStatsJson => inferInstanceAs (Decidable (s.engine.SyncAgrees))
  | .updateLinkStats _ => instDecidableTrue
  | .connect _ => instDecidableTrue
  | .control _ => instDecidableTrue
  | .housekeeping _ _ => instDecidableTrue
  | .fail _ => instDecidableTrue

structure Faithful (s : System F A) : Prop where
  ids : (s.engine.config.links.map (·.id)).Nodup
  addresses : ((embeddedLinks A s.engine.config.links).map (·.address)).Nodup
  choice : ∀ l ∈ s.engine.config.links, l.enabled = s.choice l.id
  runner : s.engine.wantsRunner = false
  inStep : ∀ r, s.engine.runner = some r →
    s.thread.InStep r.control (embeddedLinks A s.engine.config.links)

theorem Faithful.kept {s : System F A} (h : s.Faithful) {e : Engine F A}
    (hlinks : e.config.links.map linkSetup = s.engine.config.links.map linkSetup)
    (hrunner : e.runner = s.engine.runner) : Faithful { s with engine := e } := by
  have hkey := map_key_of_setup hlinks
  have hembedded : embeddedLinks A e.config.links = embeddedLinks A s.engine.config.links :=
    embeddedLinks_of_setup hlinks
  exact
    { ids := map_id_of_key hkey ▸ h.ids
      addresses := hembedded ▸ h.addresses
      choice := forall_of_setup (P := fun id enabled => enabled = s.choice id) hlinks.symm h.choice
      runner := (wantsRunner_of_setup hkey (by rw [hrunner])).trans h.runner
      inStep := fun r hr => hembedded ▸ h.inStep r (hrunner ▸ hr) }

theorem embeddedLinks_configure {links : List EngineLinkConfig} (hids : (links.map (·.id)).Nodup)
    {id : UInt64} {enabled : Bool}
    (hlast : enabled = false → ∀ link ∈ embeddedLinks A links, link.id = id →
      link.enabled = true → 1 < EmbeddedRunner.enabledCount (embeddedLinks A links)) :
    embeddedLinks A (modifyFirst (·.id == id) (toggleLink enabled) links) =
      EmbeddedRunner.configure (embeddedLinks A links) (.setLink id enabled) := by
  rw [embeddedLinks_toggle hids]
  simp only [EmbeddedRunner.configure]
  split_ifs with hguard
  · -- the runner keeps its last enabled link, so the link to disable is disabled already
    refine modifyFirst_eq_self fun link hlink => ?_
    obtain ⟨hoff, hfew⟩ : enabled = false ∧ EmbeddedRunner.enabledCount (embeddedLinks A links) ≤ 1 := by
      simpa using hguard
    have hid : link.id = id := by simpa using List.find?_some hlink
    have hflag : link.enabled = false := by
      by_contra hne
      exact absurd (hlast hoff link (List.mem_of_find?_eq_some hlink) hid (by simpa using hne))
        (Nat.not_lt.mpr hfew)
    rw [hoff, ← hflag]
  · rfl

theorem setLinkEnabled_cases {e : Engine F A} (hrunner : e.wantsRunner = false) (id : UInt64)
    (enabled : Bool)
    (hroom : ∀ r, e.runner = some r → r.alive = true ∧ r.control.length < controlCapacity) :
    ((e.setLinkEnabled id enabled).1 = e ∧ (e.setLinkEnabled id enabled).2 ≠ 0) ∨
      e.setLinkEnabled id enabled =
        ({ e.withLinks (modifyFirst (·.id == id) (toggleLink enabled) e.config.links) with
            runner := e.runner.map (push (.setLink id enabled)) }, 0) := by
  have hkey := map_key_toggle e.config.links id enabled
  have hwants : (e.withLinks (modifyFirst (·.id == id) (toggleLink enabled)
      e.config.links)).wantsRunner = false := by
    refine Eq.trans (wantsRunner_of_setup ?_ ?_) hrunner
    · exact hkey
    · rfl
  simp only [Engine.setLinkEnabled]
  split_ifs
  · exact .inl ⟨rfl, show (-2 : Int) ≠ 0 by decide⟩
  · exact .inl ⟨rfl, show (-3 : Int) ≠ 0 by decide⟩
  · rw [ensureRunner_of_not_wants hwants]
    exact .inr (tellRunner_of_room
      (e := e.withLinks (modifyFirst (·.id == id) (toggleLink enabled) e.config.links)) hroom
      (.setLink id enabled) "link control queue backpressure")

theorem Faithful.told {s : System F A} (h : s.Faithful) {m : Control A}
    (hm : EmbeddedRunner.configure (embeddedLinks A s.engine.config.links) m =
      embeddedLinks A s.engine.config.links) (backpressure : String) :
    Faithful { s with engine := (s.engine.tellRunner (·.trySend m) backpressure).1 } := by
  have hconfig := Engine.tellRunner_config s.engine (·.trySend m) backpressure
  have hrunner := tellRunner_runner s.engine m backpressure
  generalize (s.engine.tellRunner (·.trySend m) backpressure).1 = e at hconfig hrunner
  have hnone : e.runner.isNone = s.engine.runner.isNone := by
    rcases hrunner with hsame | hpushed
    · rw [hsame]
    · rw [hpushed, Option.isNone_map]
  refine ⟨hconfig ▸ h.ids, hconfig ▸ h.addresses, hconfig ▸ h.choice,
    (wantsRunner_of_setup (by rw [hconfig]) hnone).trans h.runner, ?_⟩
  intro r hr
  show s.thread.InStep r.control (embeddedLinks A e.config.links)
  rw [hconfig]
  rcases hrunner with hsame | hpushed
  · exact h.inStep r (hsame ▸ hr)
  · obtain ⟨r₀, hr₀, rfl⟩ := Option.map_eq_some_iff.mp (hpushed ▸ hr)
    have hsend := (h.inStep r₀ hr₀).send (m := m) (by rw [hm])
    rwa [hm] at hsend

theorem Faithful.replaceLinks {s : System F A} (h : s.Faithful) {adapters : List EngineLinkConfig}
    (hkey : adapters.map linkKey = s.engine.config.links.map linkKey) :
    (s.spawn (s.engine.replaceLinks adapters).1).Faithful := by
  obtain ⟨links, hlinks⟩ : ∃ links, adapters.map (carryChoice s.engine.config.links) = links :=
    ⟨_, rfl⟩
  have hlinked : Faithful { s with engine := s.engine.withLinks links } :=
    h.kept (hlinks ▸ carryChoice_setup h.ids hkey) rfl
  have hnone : ((s.engine.withLinks links).tellRunner (·.updateLinks (embeddedLinks A links))
      "adapter update queue backpressure").1.runner.isNone = s.engine.runner.isNone := by
    rcases tellRunner_runner (s.engine.withLinks links) (.updateLinks (embeddedLinks A links))
      "adapter update queue backpressure" with hsame | hpushed
    · exact congrArg Option.isNone hsame
    · exact (congrArg Option.isNone hpushed).trans Option.isNone_map
  have hwants : (s.engine.withLinks links).wantsRunner = false := hlinked.runner
  have htold := hlinked.told (m := .updateLinks (embeddedLinks A links)) rfl
    "adapter update queue backpressure"
  rw [Engine.replaceLinks, hlinks, ensureRunner_of_not_wants hwants]
  exact (spawn_eq s hnone).symm ▸ htold

variable [F64 F]

theorem syncRunnerStats_runner (e : Engine F A) : e.syncRunnerStats.runner = e.runner := by
  unfold Engine.syncRunnerStats
  cases e.runner.bind (·.stats) <;> rfl

theorem Faithful.of_call {s : System F A} (h : s.Faithful) {i : Input F A}
    (hlinks : (s.engine.step i).1.config.links.map linkSetup =
      s.engine.config.links.map linkSetup)
    (hrunner : (s.engine.step i).1.runner = s.engine.runner) : (s.call i).Faithful := by
  rw [call, spawn_eq s (by rw [hrunner])]
  exact h.kept hlinks hrunner

theorem Faithful.of_effect {s : System F A} (h : s.Faithful) {e : RunnerEffect F A}
    {thread : EmbeddedRunner A}
    (hthread : ∀ r, s.engine.runner = some r →
      thread.InStep (r.after e).control (embeddedLinks A s.engine.config.links)) :
    Faithful { s.effect e with thread } := by
  have hwants : (s.effect e).engine.wantsRunner = s.engine.wantsRunner :=
    wantsRunner_of_setup rfl Option.isNone_map
  refine ⟨h.ids, h.addresses, h.choice, hwants.trans h.runner, ?_⟩
  intro r hr
  obtain ⟨r₀, hr₀, rfl⟩ := Option.map_eq_some_iff.mp hr
  exact hthread r₀ hr₀

theorem started_faithful {config : EngineConfig} (hids : (config.links.map (·.id)).Nodup)
    (haddresses : ((embeddedLinks A config.links).map (·.address)).Nodup) :
    (started config : System F A).Faithful := by
  have hchoice : ∀ l ∈ config.links, l.enabled = initialChoice config.links l.id := by
    intro l hl
    rw [initialChoice, find?_of_nodup hids hl, Option.any_some]
  have hstart : (started config : System F A) = spawn ⟨Engine.create config, ⟨[], [], false⟩,
      initialChoice config.links⟩ (Engine.create config : Engine F A).freshRun.ensureRunner := by
    rw [started, call, Engine.step, Engine.start_eq]
  rw [hstart]
  cases hwants : (Engine.create config : Engine F A).freshRun.wantsRunner with
  | true =>
    -- the start creates the runner
    have hensure : (Engine.create config : Engine F A).freshRun.ensureRunner =
        (Engine.create config : Engine F A).freshRun.startRunner := by
      rw [Engine.ensureRunner, hwants, Bool.and_true]
      rfl
    rw [hensure]
    refine ⟨hids, haddresses, hchoice, rfl, ?_⟩
    intro r hr
    obtain rfl := Option.some.inj hr
    exact .fresh (embeddedLinks A config.links)
  | false =>
    rw [ensureRunner_of_not_wants hwants,
      spawn_eq _ (e := (Engine.create config : Engine F A).freshRun) rfl]
    refine ⟨hids, haddresses, hchoice, hwants, ?_⟩
    intro r hr
    cases hr

variable [DecidableEq A]

theorem Faithful.setLinkEnabled {s : System F A} (h : s.Faithful) {id : UInt64} {enabled : Bool}
    (hok : s.Undisturbed (.setLinkEnabled id enabled)) {t : System F A}
    (ht : s.next (.setLinkEnabled id enabled) = some t) : t.Faithful := by
  obtain ⟨hroom, hlast⟩ := hok
  obtain rfl := Option.some.inj ht
  rcases setLinkEnabled_cases h.runner id enabled hroom with ⟨hsame, hcode⟩ | hsent
  · rw [if_neg hcode, call]
    rw [Engine.step, hsame, spawn_eq s rfl]
    exact h
  · have hcode : (s.engine.setLinkEnabled id enabled).2 = 0 := by rw [hsent]
    rw [if_pos hcode, call, Engine.step, hsent, spawn_eq s Option.isNone_map]
    have hkey := map_key_toggle s.engine.config.links id enabled
    have hembedded := embeddedLinks_configure h.ids hlast
    refine ⟨map_id_of_key hkey ▸ h.ids, ?_, ?_, ?_, ?_⟩
    · show ((embeddedLinks A (modifyFirst _ _ _)).map _).Nodup
      rw [hembedded, EmbeddedRunner.configure_addresses]
      exact h.addresses
    · intro l hl
      have hmem : l ∈ modifyFirst (fun l : EngineLinkConfig => l.id == id) (toggleLink enabled)
          s.engine.config.links := hl
      rw [modifyFirst_eq_map h.ids] at hmem
      obtain ⟨l₀, hl₀, rfl⟩ := List.mem_map.mp hmem
      obtain ⟨hid, -, -, henabled⟩ := toggleLink_fields enabled l₀
      by_cases heq : l₀.id = id
      · simp [heq, hid, henabled]
      · simpa [heq] using h.choice l₀ hl₀
    · exact (wantsRunner_of_setup (e := s.engine) hkey Option.isNone_map).trans h.runner
    · intro r hr
      obtain ⟨r₀, hr₀, rfl⟩ := Option.map_eq_some_iff.mp hr
      show s.thread.InStep (r₀.control ++ [.setLink id enabled]) (embeddedLinks A (modifyFirst _ _ _))
      rw [hembedded]
      exact (h.inStep r₀ hr₀).send (EmbeddedRunner.configure_addresses _ id enabled)

theorem Faithful.step {s t : System F A} (h : s.Faithful) {event : Event F A}
    (hok : s.Undisturbed event) (ht : s.next event = some t) : t.Faithful := by
  cases event with
  | setLinkEnabled linkId enabled => exact h.setLinkEnabled hok ht
  | updateAdapters adapters =>
    obtain rfl := Option.some.inj ht
    cases adapters with
    | null => exact h.of_call rfl rfl
    | invalid => exact h.of_call rfl rfl
    | array adapters => exact h.replaceLinks hok
    | object config => exact h.replaceLinks hok
  | updateLinkStats stats =>
    obtain rfl := Option.some.inj ht
    cases stats with
    | null => exact h.of_call rfl rfl
    | invalid => exact h.of_call rfl rfl
    | array updates => exact h.of_call (writeStats_setup updates _) rfl
    | object config => exact h.of_call (writeStats_setup _ _) rfl
  | applyAbr nowMs =>
    obtain rfl := Option.some.inj ht
    exact h.of_call (Engine.sync_setup hok) (syncRunnerStats_runner s.engine)
  | copyStatsJson =>
    obtain rfl := Option.some.inj ht
    exact h.of_call (Engine.sync_setup hok) (syncRunnerStats_runner s.engine)
  | connect opened =>
    simp only [next] at ht
    split_ifs at ht
    obtain rfl := Option.some.inj ht
    exact ⟨h.ids, h.addresses, h.choice, h.runner,
      fun r hr => (h.inStep r hr).connect h.addresses opened⟩
  | control opened =>
    simp only [next] at ht
    split_ifs at ht
    split at ht
    · cases ht
    · rename_i message mailbox hmailbox
      obtain rfl := Option.some.inj ht
      -- the first message leaves the mailbox as the thread handles it
      refine h.of_effect fun r hr => ?_
      have hcontrol : r.control = message :: mailbox := by simpa [control, hr] using hmailbox
      have hin := h.inStep r hr
      rw [hcontrol] at hin
      rw [EmbeddedSender.after, hcontrol]
      exact hin.handle h.addresses opened
  | housekeeping opened telemetry =>
    simp only [next] at ht
    split_ifs at ht
    obtain rfl := Option.some.inj ht
    exact h.of_effect fun r hr => (h.inStep r hr).reconnect h.addresses opened
  | fail error =>
    simp only [next] at ht
    split_ifs at ht
    obtain rfl := Option.some.inj ht
    have hpublished : (s.effect (.publish (some { state := "Error", error }))).Faithful :=
      h.of_effect h.inStep
    exact hpublished.of_effect hpublished.inStep

/-- In every run of a started engine whose steps do not disturb the operator's choice, once
the control channel is empty every flag is the operator's last accepted choice: in the
engine, in the configuration of the runner, and on its connections. -/
theorem operator_choice_kept {config : EngineConfig} (hids : (config.links.map (·.id)).Nodup)
    (haddresses : ((embeddedLinks A config.links).map (·.address)).Nodup)
    {events : List (Event F A)} {t : System F A}
    (hrun : Run next Undisturbed (started config) events t) (hempty : t.control = []) :
    (∀ l ∈ t.engine.config.links, l.enabled = t.choice l.id) ∧
      (t.engine.runner.isSome → (∀ r ∈ t.thread.configuredLinks, r.enabled = t.choice r.id) ∧
        ∀ c ∈ t.thread.connections, ∀ l ∈ t.engine.config.links,
          IpAddr.parse l.address = some c.localIp → c.adminEnabled = t.choice l.id) := by
  have h : t.Faithful := hrun.invariant (fun _ _ _ hs hok ht => hs.step hok ht)
    (started_faithful hids haddresses)
  refine ⟨h.choice, ?_⟩
  intro hsome
  obtain ⟨r, hr⟩ := Option.isSome_iff_exists.mp hsome
  have hin := h.inStep r hr
  have hcontrol : r.control = [] := by simpa [control, hr] using hempty
  rw [hcontrol] at hin
  have hdrained : t.thread.configuredLinks = embeddedLinks A t.engine.config.links := hin.tracks.drained
  constructor
  · intro link hlink
    rw [hdrained, mem_embeddedLinks] at hlink
    obtain ⟨l, hl, -, hid, -, henabled⟩ := hlink
    rw [henabled, hid, h.choice l hl]
  · intro c hc l hl haddress
    have hlink : { id := l.id, label := l.label, address := c.localIp, enabled := l.enabled } ∈
        t.thread.configuredLinks := by
      rw [hdrained, mem_embeddedLinks]
      exact ⟨l, hl, haddress, rfl, rfl, rfl⟩
    rw [hin.flagged c hc _ hlink rfl, h.choice l hl]

/-! Two links, and the schedule that loses the operator's choice. -/

def twoLinks : EngineConfig where
  links :=
    [{ id := 1, label := "wan", address := "10.0.0.1" },
      { id := 2, label := "lte", address := "10.0.0.2" }]

def measured (ip : Ipv4) : RunnerLinkStats ℚ Ipv4 := { ip, qualityMultiplier := 1 }

def toggled : System ℚ Ipv4 :=
  (exec (guard next Undisturbed) (started twoLinks) [.connect fun _ => true,
    .housekeeping (fun _ => true) (fun _ => measured), .copyStatsJson, .setLinkEnabled 1 false,
    .updateAdapters (.array twoLinks.links), .control fun _ => true, .control fun _ => true,
    .housekeeping (fun _ => true) (fun _ => measured), .applyAbr 0]).get (by decide)

theorem operator_choice_kept_toggled :
    toggled.engine.config.links.map (·.enabled) =
      toggled.engine.config.links.map fun l => toggled.choice l.id :=
  List.map_congr_left
    (operator_choice_kept (by decide) (by decide) (.of_exec (Option.some_get _).symm) (by decide)).1

/-- Link 1 is disabled while the engine still holds a document from before. The sync of
`srtla_engine_apply_abr` enables it again, the adapter poll sends that to the runner, and
the document published once the channel is empty confirms it. -/
theorem operator_choice_lost :
    ∃ s t : System ℚ Ipv4,
      exec next (started twoLinks)
          [.connect fun _ => true, .housekeeping (fun _ => true) (fun _ => measured), .setLinkEnabled 1 false,
            .applyAbr 0, .updateAdapters (.array twoLinks.links), .control fun _ => true,
            .control fun _ => true] = some s ∧
        s.control = [] ∧
        exec next s [.housekeeping (fun _ => true) (fun _ => measured), .copyStatsJson] = some t ∧
        t.engine.config.links.map (fun l => (l.id, l.enabled, t.choice l.id)) =
          [(1, true, false), (2, true, true)] ∧
        t.thread.configuredLinks.map (fun l => (l.id, l.enabled)) = [(1, true), (2, true)] := by
  refine ⟨_, _, rfl, ?_, rfl, ?_, ?_⟩ <;> decide

end System
end Srtla
