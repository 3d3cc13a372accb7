import Std.Data.String.ToNat
import SrtlaOutput.Engine.Backlog
import SrtlaOutput.Runner.LastLink
import SrtlaOutput.Runner.OperatorChoice

/-! What a link shows after it was switched on again. The call clears its capacity, its target
and its delivered rate, and sends the choice to the runner; but the next sync takes over
whatever the runner last published, which may be from before. -/

namespace Srtla
open FirstMatch Schedule
variable {F A : Type}

abbrev Measures := Bool × UInt64 × UInt64

def noMeasures : Measures := (false, 0, 0)

def EngineLinkConfig.measures (l : EngineLinkConfig) : Measures :=
  (l.capacityReady, l.targetBps, l.deliveredBps)

def LinkSnapshot.measures (l : LinkSnapshot) : Measures :=
  (l.capacityReady, l.targetBps, l.deliveredBps)

def RunnerLinkStats.measures (u : RunnerLinkStats F A) : Measures :=
  (u.capacityReady, u.ccTargetBps, u.deliveredBps)

def LinkStatsUpdate.measures (u : LinkStatsUpdate) : Measures :=
  (u.capacityReady, u.targetBps, u.deliveredBps)

/-- The link that a call by `id` is about, the first of that id, is cleared. -/
def Cleared (id : UInt64) (links : List EngineLinkConfig) : Prop :=
  ∀ l ∈ links.find? (·.id == id), l.measures = noMeasures

instance (id : UInt64) (links : List EngineLinkConfig) : Decidable (Cleared id links) :=
  inferInstanceAs (Decidable (∀ l ∈ links.find? (·.id == id), l.measures = noMeasures))

theorem find?_id_none {links links' : List EngineLinkConfig}
    (h : links'.map (·.id) = links.map (·.id)) {id : UInt64}
    (hnone : links.find? (·.id == id) = none) : links'.find? (·.id == id) = none := by
  have hfind := congrArg (List.find? (· == id)) h
  rw [List.find?_map, List.find?_map] at hfind
  have hmap : (links.find? ((· == id) ∘ fun l : EngineLinkConfig => l.id)).map (·.id) = none :=
    congrArg _ hnone
  rw [hmap, Option.map_eq_none_iff] at hfind
  exact hfind

theorem Cleared.modifyFirst {id : UInt64} {links : List EngineLinkConfig} (h : Cleared id links)
    {p : EngineLinkConfig → Bool} {f : EngineLinkConfig → EngineLinkConfig}
    (hid : ∀ l, (f l).id = l.id)
    (hf : ∀ l, links.find? p = some l → l.id = id → l.measures = noMeasures →
      (f l).measures = noMeasures) : Cleared id (modifyFirst p f links) := by
  -- an update of the first link for some test keeps a link cleared where it leaves that link so
  rcases hl : links.find? (·.id == id) with _ | l
  · have hnone : (FirstMatch.modifyFirst p f links).find? (·.id == id) = none :=
      find?_id_none (map_modifyFirst fun l _ => hid l) hl
    intro l hmem
    rw [hnone] at hmem
    cases hmem
  · have hmatch : l.id = id := by simpa using List.find?_some hl
    have hzero := h l hl
    rcases find?_modifyFirst (p := p) (f := f) hl fun c _ => by rw [hid] with
      ⟨hp, hfirst⟩ | ⟨-, hfirst⟩
    · intro l' hl'
      rw [hfirst] at hl'
      obtain rfl := Option.some.inj hl'
      exact hf l hp hmatch hzero
    · intro l' hl'
      rw [hfirst] at hl'
      obtain rfl := Option.some.inj hl'
      exact hzero

theorem toggleLink_measures (enabled : Bool) {l : EngineLinkConfig} (h : l.measures = noMeasures) :
    (toggleLink enabled l).measures = noMeasures := by
  obtain ⟨hready, htarget, hdelivered⟩ : l.capacityReady = false ∧ l.targetBps = 0 ∧ l.deliveredBps = 0 := by
    simpa [EngineLinkConfig.measures, noMeasures] using h
  cases enabled <;> cases hl : l.enabled <;>
    simp [toggleLink, EngineLinkConfig.measures, noMeasures, hl, hready, htarget, hdelivered]

theorem toggleLink_reenabled {l : EngineLinkConfig} (h : l.enabled = false) :
    (toggleLink true l).measures = noMeasures := by
  simp [toggleLink, EngineLinkConfig.measures, noMeasures, h]

theorem Cleared.toggle {id : UInt64} {links : List EngineLinkConfig} (h : Cleared id links)
    (linkId : UInt64) (enabled : Bool) :
    Cleared id (FirstMatch.modifyFirst (·.id == linkId) (toggleLink enabled) links) :=
  h.modifyFirst (fun l => (toggleLink_fields enabled l).1) fun _ _ _ => toggleLink_measures enabled

theorem cleared_of_reenabled {id : UInt64} {links : List EngineLinkConfig}
    (h : (links.find? (·.id == id)).any (!·.enabled) = true) :
    Cleared id (modifyFirst (·.id == id) (toggleLink true) links) := by
  rcases hl : links.find? (·.id == id) with _ | l
  · rw [hl] at h
    cases h
  · have hoff : l.enabled = false := by simpa [hl] using h
    rcases find?_modifyFirst (p := (·.id == id)) (f := toggleLink true) hl
      fun c _ => by rw [(toggleLink_fields true c).1] with ⟨-, hfirst⟩ | ⟨hne, -⟩
    · intro l' hl'
      rw [hfirst] at hl'
      obtain rfl := Option.some.inj hl'
      exact toggleLink_reenabled hoff
    · exact absurd hl hne

theorem Cleared.writeStats {id : UInt64} {links : List EngineLinkConfig} (h : Cleared id links)
    {updates : List LinkStatsUpdate} (hupdates : ∀ u ∈ updates, u.id = id → u.measures = noMeasures) :
    Cleared id (updates.foldl (fun links update =>
      FirstMatch.modifyFirst (·.id == update.id) (writeLinkStats update) links) links) := by
  induction updates generalizing links with
  | nil => exact h
  | cons u updates ih =>
    rw [List.foldl_cons]
    refine ih (h.modifyFirst (fun _ => rfl) fun l hl hid _ => ?_) fun v hv =>
      hupdates v (List.mem_cons_of_mem u hv)
    have hmatch : l.id = u.id := by simpa using List.find?_some hl
    exact hupdates u List.mem_cons_self (hmatch.symm.trans hid)

theorem cleared_carryChoice {id : UInt64} {links : List EngineLinkConfig} (h : Cleared id links)
    (old : List EngineLinkConfig) : Cleared id (links.map (carryChoice old)) := by
  intro l' hl'
  rw [List.find?_map] at hl'
  obtain ⟨l, hl, rfl⟩ := Option.map_eq_some_iff.mp hl'
  have hfind : links.find? (·.id == id) = some l := by
    rw [← hl]
    refine congrArg (List.find? · links) (funext fun c => ?_)
    rw [Function.comp_apply, carryChoice_id]
  rw [← h l hfind]
  unfold carryChoice
  cases old.find? (·.id == l.id) <;> rfl

/-! What a sync writes into a link. -/

section Document
variable [IpAddr A]

/-- The last entry of a document for the address of a link, where the link is the first of its
address. -/
def written (updates : List (RunnerLinkStats F A)) (links : List EngineLinkConfig)
    (l : EngineLinkConfig) : Option (RunnerLinkStats F A) :=
  if links.find? (·.address == l.address) = some l then
    updates.reverse.find? fun u => IpAddr.toString u.ip == l.address
  else none

def DocumentClears (id : UInt64) (updates : List (RunnerLinkStats F A))
    (links : List EngineLinkConfig) : Prop :=
  ∀ l ∈ links.find? (·.id == id), ∀ u ∈ written updates links l, u.measures = noMeasures

instance (id : UInt64) (updates : List (RunnerLinkStats F A)) (links : List EngineLinkConfig) :
    Decidable (DocumentClears id updates links) :=
  inferInstanceAs (Decidable
    (∀ l ∈ links.find? (·.id == id), ∀ u ∈ written updates links l, u.measures = noMeasures))

theorem first_of_key {links links' : List EngineLinkConfig}
    (h : links'.map linkKey = links.map linkKey) {id : UInt64} {address : String}
    {l l' : EngineLinkConfig} (hl : links.find? (·.id == id) = some l)
    (hl' : links'.find? (·.id == id) = some l')
    (hfirst : links.find? (·.address == address) = some l) :
    links'.find? (·.address == address) = some l' := by
  -- with the keys kept, the first link of an id stays or does not stay the first of its address
  have hid : l.id = id := by simpa using List.find?_some hl
  have haddress : l.address = address := by simpa using List.find?_some hfirst
  have hkey : linkKey l' = linkKey l := by
    have hfind := congrArg (List.find? (·.1 == id)) h
    rw [List.find?_map, List.find?_map] at hfind
    have hmap : some (linkKey l') = some (linkKey l) :=
      (congrArg (Option.map linkKey) hl').symm.trans (hfind.trans (congrArg (Option.map linkKey) hl))
    exact Option.some.inj hmap
  have hfind := congrArg (List.find? (·.2.2 == address)) h
  rw [List.find?_map, List.find?_map] at hfind
  obtain ⟨m, hm, hmkey⟩ := Option.map_eq_some_iff.mp
    (hfind.trans (congrArg (Option.map linkKey) hfirst))
  have hmid : m.id = id := (congrArg Prod.fst hmkey).trans hid
  have haddress' : l'.address = address := (congrArg (·.2.2) hkey).trans haddress
  have hfound : links'.find? (·.address == address) = some m := hm
  rwa [find?_unique hfound hl' (by simpa using hmid) (by simpa using haddress')] at hfound

variable [F64 F]

theorem syncLinks_key (updates : List (RunnerLinkStats F A)) (links : List EngineLinkConfig) :
    (syncLinks updates links).map linkKey = links.map linkKey := by
  induction updates generalizing links with
  | nil => rfl
  | cons u updates ih =>
    rw [syncLinks, List.foldl_cons]
    refine (ih _).trans (map_modifyFirst fun l hl => ?_)
    have haddress : l.address = IpAddr.toString u.ip := by simpa using List.find?_some hl
    rw [linkKey, linkKey, haddress]
    rfl

theorem first_syncLinks (updates : List (RunnerLinkStats F A)) {links : List EngineLinkConfig}
    {id : UInt64} {l : EngineLinkConfig} (hl : links.find? (·.id == id) = some l) :
    ∃ m, (syncLinks updates links).find? (·.id == id) = some m ∧ m.address = l.address ∧
      m.measures = ((written updates links l).map (·.measures)).getD l.measures := by
  -- from the end, because the last entry for an address counts
  induction updates using List.reverseRecOn with
  | nil => exact ⟨l, hl, rfl, by simp [written]⟩
  | append_singleton updates u ih =>
    obtain ⟨m, hm, haddress, hmeasures⟩ := ih
    have hlast : syncLinks (updates ++ [u]) links = modifyFirst
        (fun l => l.address == IpAddr.toString u.ip) (syncLink u) (syncLinks updates links) := by
      rw [syncLinks, List.foldl_append]
      rfl
    have hkey := syncLinks_key updates links
    rw [hlast]
    rcases find?_modifyFirst (p := (·.address == IpAddr.toString u.ip)) (f := syncLink u) hm
      fun _ _ => rfl with ⟨hfirst, hfind⟩ | ⟨hother, hfind⟩
    · -- the entry is the last for this link
      have hip : IpAddr.toString u.ip = l.address := by
        rw [← haddress]
        exact (by simpa using List.find?_some hfirst : m.address = _).symm
      have hwritten : written (updates ++ [u]) links l = some u := by
        rw [hip] at hfirst
        rw [written, if_pos (first_of_key hkey.symm hm hl hfirst), List.reverse_append,
          List.reverse_singleton, List.singleton_append, List.find?_cons_of_pos (by simpa using hip)]
      refine ⟨_, hfind, hip, ?_⟩
      rw [hwritten]
      rfl
    · refine ⟨m, hfind, haddress, hmeasures.trans ?_⟩
      have hsame : written (updates ++ [u]) links l = written updates links l := by
        unfold written
        split_ifs with hfirst
        · have hip : IpAddr.toString u.ip ≠ l.address := by
            intro hip
            rw [hip] at hother
            exact hother (first_of_key hkey hl hm hfirst)
          rw [List.reverse_append, List.reverse_singleton, List.singleton_append,
            List.find?_cons_of_neg (by simpa using hip)]
        · rfl
      rw [hsame]

theorem cleared_syncLinks {id : UInt64} {links : List EngineLinkConfig} (h : Cleared id links)
    (updates : List (RunnerLinkStats F A)) :
    Cleared id (syncLinks updates links) ↔ DocumentClears id updates links := by
  rcases hl : links.find? (·.id == id) with _ | l
  · have hnone := find?_id_none (map_id_of_key (syncLinks_key updates links)) hl
    simp [Cleared, DocumentClears, hnone, hl]
  · obtain ⟨m, hm, -, hmeasures⟩ := first_syncLinks updates hl
    have hzero : l.measures = noMeasures := h l hl
    rw [hzero] at hmeasures
    rw [Cleared, DocumentClears, hm, hl]
    rcases hw : written updates links l with _ | u
    · simp [hw, hmeasures]
    · simp [hw, hmeasures]

def Engine.SyncClears (e : Engine F A) (id : UInt64) : Prop :=
  ∀ r ∈ e.runner, ∀ stats ∈ r.stats, DocumentClears id stats.links e.config.links

omit [F64 F] in
instance (e : Engine F A) (id : UInt64) : Decidable (e.SyncClears id) :=
  inferInstanceAs (Decidable (∀ r ∈ e.runner, ∀ stats ∈ r.stats,
    DocumentClears id stats.links e.config.links))

theorem Cleared.sync {e : Engine F A} {id : UInt64} (h : Cleared id e.config.links)
    (hdocument : e.SyncClears id) : Cleared id e.syncRunnerStats.config.links := by
  unfold Engine.syncRunnerStats
  rcases hr : e.runner with _ | r
  · exact h
  · rcases hstats : r.stats with _ | stats
    · rw [Option.bind_some, hstats]
      exact h
    · rw [Option.bind_some, hstats]
      exact (cleared_syncLinks h stats.links).mpr (hdocument r hr stats hstats)

end Document

/-! The control channel. -/

section Calls
variable [IpAddr A]

theorem setLinkEnabled_links (e : Engine F A) (linkId : UInt64) (enabled : Bool) :
    (e.setLinkEnabled linkId enabled).1.config.links = e.config.links ∨
      (e.setLinkEnabled linkId enabled).1.config.links =
        modifyFirst (·.id == linkId) (toggleLink enabled) e.config.links := by
  simp only [Engine.setLinkEnabled]
  split_ifs
  · exact .inl rfl
  · exact .inl rfl
  · right
    rw [Engine.tellRunner_config, Engine.ensureRunner_config]
    rfl

theorem setLinkEnabled_mail (e : Engine F A) (linkId : UInt64) (enabled : Bool) :
    mail (e.setLinkEnabled linkId enabled).1 = mail e ++ [.setLink linkId enabled] ∨
      mail (e.setLinkEnabled linkId enabled).1 = mail e ∧
        ((e.setLinkEnabled linkId enabled).2 = 0 → mail e = []) := by
  simp only [Engine.setLinkEnabled]
  split_ifs
  · exact .inr ⟨rfl, fun h => absurd h (show (-2 : Int) ≠ 0 by decide)⟩
  · exact .inr ⟨rfl, fun h => absurd h (show (-3 : Int) ≠ 0 by decide)⟩
  · have h := tellRunner_mail (e.withLinks (modifyFirst (·.id == linkId) (toggleLink enabled)
      e.config.links)).ensureRunner (.setLink linkId enabled) "link control queue backpressure"
    rw [ensureRunner_mail] at h
    exact h

theorem setLinkEnabled_reenabled {e : Engine F A} {id : UInt64}
    (h : (e.config.links.find? (·.id == id)).any (!·.enabled) = true) :
    (e.setLinkEnabled id true).1.config.links =
      modifyFirst (·.id == id) (toggleLink true) e.config.links := by
  -- a known link that is off is switched on, whatever the channel says
  have hknown : e.config.links.any (·.id == id) = true := by
    rcases hl : e.config.links.find? (·.id == id) with _ | l
    · rw [hl] at h
      cases h
    · have hid : (l.id == id) = true := by simpa using List.find?_some hl
      exact List.any_eq_true.mpr ⟨l, List.mem_of_find?_eq_some hl, hid⟩
  simp only [Engine.setLinkEnabled, hknown, Bool.not_true, Bool.and_false, Bool.false_and,
    Bool.false_eq_true, if_false]
  rw [Engine.tellRunner_config, Engine.ensureRunner_config]
  rfl

theorem replaceLinks_mail (e : Engine F A) (links : List EngineLinkConfig) :
    ∃ more, mail (e.replaceLinks links).1 = mail e ++ more := by
  rcases tellRunner_mail (e.withLinks (links.map (carryChoice e.config.links))).ensureRunner
      (.updateLinks (embeddedLinks A (e.withLinks (links.map (carryChoice
        e.config.links))).ensureRunner.config.links)) "adapter update queue backpressure" with h | ⟨h, -⟩
  · exact ⟨_, h.trans (congrArg (· ++ _) (ensureRunner_mail _))⟩
  · exact ⟨[], h.trans ((ensureRunner_mail _).trans (List.append_nil _).symm)⟩

end Calls

/-! From the call to the document. -/

/-- How far the last call that switched a link on has come. -/
inductive Watch
  /-- There was none, or a document from after the runner applied it has been synced. -/
  | idle
  /-- The runner did not take the message. -/
  | refused
  /-- So many messages are before it. -/
  | sent (before : Nat)
  /-- The runner has applied it, and its document is older. -/
  | applied
  /-- The document was published after the runner had applied it. -/
  | published
  deriving DecidableEq, Repr

namespace Watch

def take : Watch → Watch
  | .sent 0 => .applied
  | .sent (n + 1) => .sent n
  | w => w

def publish : Watch → Watch
  | .applied => .published
  | w => w

def sync : Watch → Watch
  | .published => .idle
  | w => w

/-! The steps of the runner and a sync open no watch, and only a taken message moves one. -/

theorem open_of_take {w : Watch} (h : w.take ≠ .idle) : w ≠ .idle := by
  rintro rfl
  exact h rfl

theorem open_of_publish {w : Watch} (h : w.publish ≠ .idle) : w ≠ .idle := by
  rintro rfl
  exact h rfl

theorem open_of_sync {w : Watch} (h : w.sync ≠ .idle) : w ≠ .idle := by
  rintro rfl
  exact h rfl

theorem sent_of_take {w : Watch} {n : Nat} (h : w.take = .sent n) : w = .sent (n + 1) := by
  cases w with
  | sent before =>
    cases before with
    | zero => cases h
    | succ before => exact congrArg Watch.sent (congrArg (· + 1) (Watch.sent.inj h))
  | _ => cases h

theorem sent_of_publish {w : Watch} {n : Nat} (h : w.publish = .sent n) : w = .sent n := by
  cases w with
  | sent before => exact h
  | _ => cases h

theorem sent_of_sync {w : Watch} {n : Nat} (h : w.sync = .sent n) : w = .sent n := by
  cases w with
  | sent before => exact h
  | _ => cases h

end Watch

structure Watched (F A : Type) where
  system : System F A
  watch : Watch := .idle

namespace Watched
variable [F64 F] [IpAddr A]

def Reenables (id : UInt64) (x : Watched F A) (linkId : UInt64) (enabled : Bool) : Prop :=
  linkId = id ∧ enabled = true ∧
    (x.system.engine.config.links.find? (·.id == id)).any (!·.enabled) = true

omit [F64 F] [IpAddr A] in
instance (id : UInt64) (x : Watched F A) (linkId : UInt64) (enabled : Bool) :
    Decidable (x.Reenables id linkId enabled) := instDecidableAnd

/-- Where the message went. Without a runner there is nobody to tell: one that is created
later starts from the flags of the links. -/
def sentBy (x : Watched F A) (id : UInt64) : Watch :=
  if (x.system.engine.setLinkEnabled id true).2 = 0 then
    match (x.system.call (.setLinkEnabled id true)).control.length with
    | 0 => .applied
    | n + 1 => .sent n
  else .refused

def track (id : UInt64) (x : Watched F A) : Event F A → Watch
  | .setLinkEnabled linkId enabled => if x.Reenables id linkId enabled then x.sentBy id else x.watch
  | .control _ => x.watch.take
  | .housekeeping _ _ => x.watch.publish
  | .fail _ => x.watch.publish
  | .applyAbr _ => x.watch.sync
  | .copyStatsJson => x.watch.sync
  | _ => x.watch

def StatsClear (id : UInt64) : JsonArg LinkStatsUpdate → Prop
  | .array updates => ∀ u ∈ updates, u.id = id → u.measures = noMeasures
  | .object config => ∀ l ∈ config.links, l.id = id → l.measures = noMeasures
  | .null => True
  | .invalid => True

def AdaptersClear (id : UInt64) : JsonArg EngineLinkConfig → Prop
  | .array links => Cleared id links
  | .object config => Cleared id config.links
  | .null => True
  | .invalid => True

/-- While the link is watched, no document from before the runner applied the call measures it:
not the one that a sync reads, and not an argument of the host. -/
def Timely (id : UInt64) (x : Watched F A) : Event F A → Prop
  | .applyAbr _ => x.watch.sync ≠ .idle → x.system.engine.SyncClears id
  | .copyStatsJson => x.watch.sync ≠ .idle → x.system.engine.SyncClears id
  | .updateLinkStats stats => x.watch ≠ .idle → StatsClear id stats
  | .updateAdapters adapters => x.watch ≠ .idle → AdaptersClear id adapters
  | _ => True

instance (id : UInt64) (stats : JsonArg LinkStatsUpdate) : Decidable (StatsClear id stats) :=
  match stats with
  | .array updates => inferInstanceAs (Decidable (∀ u ∈ updates, u.id = id → u.measures = noMeasures))
  | .object config =>
    inferInstanceAs (Decidable (∀ l ∈ config.links, l.id = id → l.measures = noMeasures))
  | .null => instDecidableTrue
  | .invalid => instDecidableTrue

instance (id : UInt64) (adapters : JsonArg EngineLinkConfig) : Decidable (AdaptersClear id adapters) :=
  match adapters with
  | .array links => inferInstanceAs (Decidable (Cleared id links))
  | .object config => inferInstanceAs (Decidable (Cleared id config.links))
  | .null => instDecidableTrue
  | .invalid => instDecidableTrue

omit [F64 F] in
instance (id : UInt64) (x : Watched F A) (event : Event F A) : Decidable (x.Timely id event) :=
  match event with
  | .applyAbr _ => inferInstanceAs (Decidable (x.watch.sync ≠ .idle → x.system.engine.SyncClears id))
  | .copyStatsJson =>
    inferInstanceAs (Decidable (x.watch.sync ≠ .idle → x.system.engine.SyncClears id))
  | .updateLinkStats stats => inferInstanceAs (Decidable (x.watch ≠ .idle → StatsClear id stats))
  | .updateAdapters adapters =>
    inferInstanceAs (Decidable (x.watch ≠ .idle → AdaptersClear id adapters))
  | .setLinkEnabled _ _ => instDecidableTrue
  | .connect _ => instDecidableTrue
  | .control _ => instDecidableTrue
  | .housekeeping _ _ => instDecidableTrue
  | .fail _ => instDecidableTrue

/-- The link is cleared while it is watched, and the watch knows where its message is. -/
structure Held (id : UInt64) (x : Watched F A) : Prop where
  cleared : x.watch ≠ .idle → Cleared id x.system.engine.config.links
  sent : ∀ n, x.watch = .sent n → x.system.control[n]? = some (.setLink id true)

omit [F64 F] in
theorem updateAdapters_cleared {e : Engine F A} {id : UInt64} (h : Cleared id e.config.links)
    {adapters : JsonArg EngineLinkConfig} (hclear : AdaptersClear id adapters) :
    Cleared id (e.updateAdapters adapters).1.config.links := by
  cases adapters with
  | null => exact h
  | invalid => exact h
  | array links =>
    show Cleared id (e.replaceLinks links).1.config.links
    rw [Engine.replaceLinks_links]
    exact cleared_carryChoice hclear _
  | object config =>
    show Cleared id (e.replaceLinks config.links).1.config.links
    rw [Engine.replaceLinks_links]
    exact cleared_carryChoice hclear _

omit [F64 F] in
theorem updateAdapters_mail (e : Engine F A) (adapters : JsonArg EngineLinkConfig) :
    ∃ more, mail (e.updateAdapters adapters).1 = mail e ++ more := by
  cases adapters with
  | null => exact ⟨[], (List.append_nil _).symm⟩
  | invalid => exact ⟨[], (List.append_nil _).symm⟩
  | array links => exact replaceLinks_mail e links
  | object config => exact replaceLinks_mail e config.links

omit [F64 F] [IpAddr A] in
theorem updateLinkStats_cleared {e : Engine F A} {id : UInt64} (h : Cleared id e.config.links)
    {stats : JsonArg LinkStatsUpdate} (hclear : StatsClear id stats) :
    Cleared id (e.updateLinkStats stats).1.config.links := by
  cases stats with
  | null => exact h
  | invalid => exact h
  | array updates => exact h.writeStats hclear
  | object config =>
    refine h.writeStats fun u hu => ?_
    obtain ⟨l, hl, rfl⟩ := List.mem_map.mp hu
    exact hclear l hl

theorem call_engine (s : System F A) (i : Input F A) : (s.call i).engine = (s.engine.step i).1 := by
  unfold System.call System.spawn
  split <;> rfl

theorem getElem?_more {α : Type} {as : List α} {n : Nat} {a : α} (h : as[n]? = some a)
    (more : List α) : (as ++ more)[n]? = some a := by
  rw [List.getElem?_append_left (List.getElem?_eq_some_iff.mp h).1, h]

theorem sentBy_sent {x : Watched F A} {id : UInt64} {n : Nat} (h : x.sentBy id = .sent n) :
    (x.system.call (.setLinkEnabled id true)).control[n]? = some (.setLink id true) := by
  unfold sentBy at h
  split_ifs at h with hcode
  have hcontrol : (x.system.call (.setLinkEnabled id true)).control =
      mail (x.system.engine.setLinkEnabled id true).1 :=
    congrArg mail (call_engine x.system (.setLinkEnabled id true))
  rw [hcontrol] at h ⊢
  rcases setLinkEnabled_mail x.system.engine id true with hmail | ⟨hsame, hnone⟩
  · -- the message is the last one
    rw [hmail, List.length_append, List.length_singleton] at h
    obtain rfl : (mail x.system.engine).length = n := Watch.sent.inj h
    rw [hmail, List.getElem?_concat_length]
  · rw [hsame, hnone hcode] at h
    cases h

omit [F64 F] [IpAddr A] in
theorem Held.keeps {id : UInt64} {x y : Watched F A} (h : x.Held id)
    (hopen : y.watch ≠ .idle → x.watch ≠ .idle)
    (hsent : ∀ n, y.watch = .sent n → x.watch = .sent n)
    (hcleared : y.watch ≠ .idle → Cleared id x.system.engine.config.links →
      Cleared id y.system.engine.config.links)
    (hmail : ∃ more, y.system.control = x.system.control ++ more) : y.Held id := by
  refine ⟨fun hy => hcleared hy (h.cleared (hopen hy)), ?_⟩
  intro n hn
  obtain ⟨more, hmore⟩ := hmail
  rw [hmore]
  exact getElem?_more (h.sent n (hsent n hn)) more

theorem Held.setLinkEnabled {id : UInt64} {x : Watched F A} (h : x.Held id) (linkId : UInt64)
    (enabled : Bool) {t : System F A} (ht : t.engine = (x.system.engine.setLinkEnabled linkId enabled).1) :
    Held id { system := t, watch := x.track id (.setLinkEnabled linkId enabled) } := by
  by_cases hon : x.Reenables id linkId enabled
  · have hwatch : x.track id (.setLinkEnabled linkId enabled) = x.sentBy id := if_pos hon
    obtain ⟨rfl, rfl, hoff⟩ := hon
    rw [hwatch]
    constructor
    · intro _
      show Cleared linkId t.engine.config.links
      rw [ht, setLinkEnabled_reenabled hoff]
      exact cleared_of_reenabled hoff
    · intro n hn
      have hcontrol : t.control = (x.system.call (.setLinkEnabled linkId true)).control :=
        congrArg mail (ht.trans (call_engine x.system (.setLinkEnabled linkId true)).symm)
      show t.control[n]? = _
      rw [hcontrol]
      exact sentBy_sent hn
  · have hwatch : x.track id (.setLinkEnabled linkId enabled) = x.watch := if_neg hon
    rw [hwatch]
    refine h.keeps (fun hopen => hopen) (fun _ hsent => hsent) (fun _ hold => ?_) ?_
    · show Cleared id t.engine.config.links
      rw [ht]
      rcases setLinkEnabled_links x.system.engine linkId enabled with hsame | htoggled
      · rw [hsame]
        exact hold
      · rw [htoggled]
        exact hold.toggle linkId enabled
    · have hcontrol : t.control = mail (x.system.engine.setLinkEnabled linkId enabled).1 :=
        congrArg mail ht
      show ∃ more, t.control = _
      rw [hcontrol]
      rcases setLinkEnabled_mail x.system.engine linkId enabled with hmore | ⟨hsame, -⟩
      · exact ⟨_, hmore⟩
      · exact ⟨[], hsame.trans (List.append_nil _).symm⟩

theorem Held.call {id : UInt64} {x : Watched F A} (h : x.Held id) (i : Input F A)
    (hcleared : x.watch ≠ .idle → Cleared id (x.system.engine.step i).1.config.links)
    (hmail : ∃ more, mail (x.system.engine.step i).1 = mail x.system.engine ++ more) :
    Held id { system := x.system.call i, watch := x.watch } := by
  have hengine := call_engine x.system i
  refine h.keeps (fun hopen => hopen) (fun _ hsent => hsent) (fun hopen _ => ?_) ?_
  · show Cleared id (x.system.call i).engine.config.links
    rw [hengine]
    exact hcleared hopen
  · obtain ⟨more, hmore⟩ := hmail
    exact ⟨more, (congrArg mail hengine).trans hmore⟩

theorem effect_control (s : System F A) (e : RunnerEffect F A) :
    (s.effect e).control = ((s.engine.runner.map (·.after e)).map (·.control)).getD [] := rfl

theorem control_takeControl (s : System F A) : (s.effect .takeControl).control = s.control.tail := by
  rw [effect_control, System.control]
  cases s.engine.runner <;> rfl

theorem control_publish (s : System F A) (stats : Option (RunnerStats F A)) :
    (s.effect (.publish stats)).control = s.control := by
  rw [effect_control, System.control]
  cases s.engine.runner <;> rfl

theorem control_exit (s : System F A) : (s.effect .exit).control = s.control := by
  rw [effect_control, System.control]
  cases s.engine.runner <;> rfl

omit [F64 F] [IpAddr A] in
theorem Held.take {id : UInt64} {x : Watched F A} (h : x.Held id) {t : System F A}
    (hlinks : t.engine.config.links = x.system.engine.config.links)
    (hcontrol : t.control = x.system.control.tail) : Held id { system := t, watch := x.watch.take } := by
  constructor
  · intro hopen
    show Cleared id t.engine.config.links
    rw [hlinks]
    exact h.cleared (Watch.open_of_take hopen)
  · intro n hn
    show t.control[n]? = _
    rw [hcontrol, List.getElem?_tail]
    exact h.sent (n + 1) (Watch.sent_of_take hn)

theorem Held.sync {id : UInt64} {x : Watched F A} (h : x.Held id)
    (hdocument : x.watch.sync ≠ .idle → x.system.engine.SyncClears id) {t : System F A}
    (hlinks : t.engine.config.links = x.system.engine.syncRunnerStats.config.links)
    (hcontrol : t.control = x.system.control) : Held id { system := t, watch := x.watch.sync } := by
  refine h.keeps Watch.open_of_sync (fun _ => Watch.sent_of_sync) (fun hsync hold => ?_) ?_
  · show Cleared id t.engine.config.links
    rw [hlinks]
    exact hold.sync (hdocument hsync)
  · exact ⟨[], hcontrol.trans (List.append_nil _).symm⟩

omit [F64 F] [IpAddr A] in
theorem Held.publish {id : UInt64} {x : Watched F A} (h : x.Held id) {t : System F A}
    (hlinks : t.engine.config.links = x.system.engine.config.links)
    (hcontrol : t.control = x.system.control) : Held id { system := t, watch := x.watch.publish } := by
  refine h.keeps Watch.open_of_publish (fun _ => Watch.sent_of_publish) (fun _ hold => ?_) ?_
  · show Cleared id t.engine.config.links
    rw [hlinks]
    exact hold
  · exact ⟨[], hcontrol.trans (List.append_nil _).symm⟩

variable [DecidableEq A]

def next (id : UInt64) (x : Watched F A) (event : Event F A) : Option (Watched F A) :=
  (x.system.next event).map fun system => { system, watch := x.track id event }

def started (config : EngineConfig) : Watched F A := { system := System.started config }

theorem Held.next {id : UInt64} {x y : Watched F A} (h : x.Held id) {event : Event F A}
    (hok : x.Timely id event) (hnext : x.next id event = some y) : y.Held id := by
  obtain ⟨t, ht, rfl⟩ := Option.map_eq_some_iff.mp hnext
  have hsynced (i : Input F A)
      (hrunner : (x.system.engine.step i).1.runner = x.system.engine.syncRunnerStats.runner) :
      (x.system.call i).control = x.system.control := by
    rw [System.control, System.control, call_engine, hrunner, System.syncRunnerStats_runner]
  cases event with
  | setLinkEnabled linkId enabled =>
    apply h.setLinkEnabled
    obtain rfl := Option.some.inj ht
    have hengine := call_engine x.system (.setLinkEnabled linkId enabled)
    split_ifs <;> exact hengine
  | updateAdapters adapters =>
    obtain rfl := Option.some.inj ht
    refine h.call (.updateAdapters adapters) (fun hopen => ?_) ?_
    · exact updateAdapters_cleared (h.cleared hopen) (hok hopen)
    · exact updateAdapters_mail x.system.engine adapters
  | updateLinkStats stats =>
    obtain rfl := Option.some.inj ht
    refine h.call (.updateLinkStats stats) (fun hopen => ?_) ?_
    · exact updateLinkStats_cleared (h.cleared hopen) (hok hopen)
    · cases stats <;> exact ⟨[], (List.append_nil _).symm⟩
  | applyAbr nowMs =>
    obtain rfl := Option.some.inj ht
    refine h.sync hok ?_ ?_
    · rw [call_engine]
      rfl
    · exact hsynced (.applyAbr nowMs) rfl
  | copyStatsJson =>
    obtain rfl := Option.some.inj ht
    refine h.sync hok ?_ ?_
    · rw [call_engine]
      rfl
    · exact hsynced .copyStatsJson rfl
  | connect opened =>
    simp only [System.next] at ht
    split_ifs at ht
    obtain rfl := Option.some.inj ht
    exact ⟨h.cleared, h.sent⟩
  | control opened =>
    simp only [System.next] at ht
    split_ifs at ht
    split at ht
    · cases ht
    · obtain rfl := Option.some.inj ht
      exact h.take rfl (control_takeControl x.system)
  | housekeeping opened telemetry =>
    simp only [System.next] at ht
    split_ifs at ht
    obtain rfl := Option.some.inj ht
    exact h.publish rfl (control_publish x.system _)
  | fail error =>
    simp only [System.next] at ht
    split_ifs at ht
    obtain rfl := Option.some.inj ht
    exact h.publish rfl ((control_exit _).trans (control_publish x.system _))

theorem find?_linkSnapshot (links : List EngineLinkConfig) (id : UInt64) :
    (links.map linkSnapshot).find? (·.id == toString id.toNat) =
      (links.find? (·.id == id)).map linkSnapshot := by
  rw [List.find?_map]
  refine congrArg (fun p => (List.find? p links).map linkSnapshot) (funext fun l => ?_)
  rw [Function.comp_apply, Bool.eq_iff_iff, beq_iff_eq, beq_iff_eq]
  exact Nat.repr_inj.trans UInt64.toNat_inj

def ShownCleared (id : UInt64) (shown : EngineSnapshot) : Prop :=
  ∀ l ∈ shown.links.find? (·.id == toString id.toNat), l.measures = noMeasures

/-- A link that was switched on again shows no capacity, target or rate until a document from
after the runner applied the call is synced. -/
theorem reactivated_shows_nothing_stale {config : EngineConfig} {id : UInt64}
    {events : List (Event F A)} {x y : Watched F A}
    (hrun : Run (next id) (Timely id) (started config) events x) (hok : x.Timely id .copyStatsJson)
    (hcopy : x.next id .copyStatsJson = some y) (hopen : y.watch ≠ .idle) :
    ShownCleared id (x.system.engine.copyStatsJson).2 := by
  have hx : x.Held id := hrun.invariant (I := Held id) (fun _ _ _ hs hok ht => hs.next hok ht)
    ⟨fun h => absurd rfl h, fun n h => by cases h⟩
  have hy := (hx.next hok hcopy).cleared hopen
  obtain ⟨t, ht, rfl⟩ := Option.map_eq_some_iff.mp hcopy
  obtain rfl := Option.some.inj ht
  have hsynced : Cleared id x.system.engine.syncRunnerStats.config.links := by
    rwa [call_engine] at hy
  have hshown : (x.system.engine.copyStatsJson).2.links =
      x.system.engine.syncRunnerStats.config.links.map linkSnapshot := rfl
  intro l hl
  rw [hshown, find?_linkSnapshot] at hl
  obtain ⟨l₀, hl₀, rfl⟩ := Option.map_eq_some_iff.mp hl
  exact hsynced l₀ hl₀

def carrying (ip : Ipv4) : RunnerLinkStats ℚ Ipv4 :=
  { ip, connected := true, adminEnabled := true, payloadEligible := true, capacityReady := true
    ccTargetBps := 5000000, qualityMultiplier := 1, deliveredBps := 4000000 }

def rejoined : Watched ℚ Ipv4 :=
  (exec (guard (next 1) (Timely 1)) (started System.twoLinks) [.connect fun _ => true,
    .housekeeping (fun _ => true) (fun _ => System.measured), .copyStatsJson, .setLinkEnabled 1 false,
    .control fun _ => true, .setLinkEnabled 1 true, .copyStatsJson, .control fun _ => true]).get
      (by decide +kernel)

theorem reactivated_shows_nothing_stale_rejoined :
    ShownCleared 1 (rejoined.system.engine.copyStatsJson).2 :=
  reactivated_shows_nothing_stale (.of_exec (Option.some_get _).symm) (by decide +kernel) rfl
    (by decide +kernel)

/-- The document is from before the link was switched off and on again, so the snapshot after
the call shows the capacity, the target and the rate of that time. -/
theorem reactivated_shows_old_rate :
    ∃ x y : Watched ℚ Ipv4,
      exec (next 1) (started System.twoLinks)
          [.connect fun _ => true, .housekeeping (fun _ => true) (fun _ => carrying), .setLinkEnabled 1 false,
            .setLinkEnabled 1 true] = some x ∧
        x.next 1 .copyStatsJson = some y ∧ y.watch = .sent 1 ∧
        (x.system.engine.copyStatsJson).2.links.map (fun l => (l.id, l.measures)) =
          [("1", true, 5000000, 4000000), ("2", true, 5000000, 4000000)] := by
  refine ⟨_, _, rfl, rfl, ?_, ?_⟩ <;> decide

end Watched

end Srtla
