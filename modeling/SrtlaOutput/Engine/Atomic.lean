import SrtlaOutput.Engine.Ipv4
import SrtlaOutput.Engine.Range
import Mathlib.Data.List.Forall2

/-! What a control call that fails leaves behind. Two of the calls write the links before
they pass a message to the runner, and a refused message is reported after the write. -/

namespace Srtla
open FirstMatch
variable {F A : Type}

def EngineLinkConfig.Settled (l : EngineLinkConfig) (enabled : Bool) : Prop :=
  l.enabled = enabled ∧
    (enabled = false → l.capacityReady = false ∧ l.deliveredBps = 0 ∧ l.state = "Standby")

theorem toggleLink_eq_self_iff (enabled : Bool) (l : EngineLinkConfig) :
    toggleLink enabled l = l ↔ l.Settled enabled := by
  obtain ⟨_, _, _, flag, _, _, _, _, _, _, _, _, _, _, _, _, _, _⟩ := l
  cases enabled <;> cases flag <;> simp [toggleLink, EngineLinkConfig.Settled, eq_comm]

/-- The flag the links `old` hold for an id: that of the first of them with it. -/
def heldChoice (old : List EngineLinkConfig) (id : UInt64) : Bool :=
  (old.find? (·.id == id)).any (·.enabled)

theorem carryChoice_eq (old : List EngineLinkConfig) (link : EngineLinkConfig) :
    carryChoice old link = { link with enabled := heldChoice old link.id } := by
  unfold carryChoice heldChoice
  cases old.find? (·.id == link.id) <;> rfl

/-- An adapter list that says of every link what the engine holds already. The flags it
carries do not count, and the flag of a link is the one its id holds. -/
def Repeats (adapters old : List EngineLinkConfig) : Prop :=
  List.Forall₂ (fun adapter link =>
    { adapter with enabled := link.enabled } = link ∧ heldChoice old link.id = link.enabled)
    adapters old

theorem carryChoice_eq_iff (old : List EngineLinkConfig) (adapter link : EngineLinkConfig) :
    carryChoice old adapter = link ↔
      { adapter with enabled := link.enabled } = link ∧
        heldChoice old link.id = link.enabled := by
  rw [carryChoice_eq]
  constructor
  · rintro rfl
    exact ⟨rfl, rfl⟩
  · rintro ⟨hlink, hflag⟩
    have hid : adapter.id = link.id := congrArg (·.id) hlink
    have hheld : heldChoice old adapter.id = link.enabled := hid ▸ hflag
    rw [hheld]
    exact hlink

theorem map_carryChoice_eq_iff (adapters old : List EngineLinkConfig) :
    adapters.map (carryChoice old) = old ↔ Repeats adapters old := by
  have hentry : (fun adapter link => carryChoice old adapter = link) = fun adapter link =>
      { adapter with enabled := link.enabled } = link ∧
        heldChoice old link.id = link.enabled := by
    funext adapter link
    exact propext (carryChoice_eq_iff old adapter link)
  rw [← List.forall₂_eq_eq_eq, List.forall₂_map_left_iff, Repeats, ← hentry]

def EmbeddedSender.Refuses (s : EmbeddedSender F A) : Prop :=
  s.alive = false ∨ controlCapacity ≤ s.control.length

theorem EmbeddedSender.trySend_of_refuses {s : EmbeddedSender F A} (h : s.Refuses)
    (message : Control A) : s.trySend message = (s, false) := by
  unfold trySend
  rw [if_neg]
  rcases h with hdead | hfull
  · simp [hdead]
  · simp [Nat.not_lt.mpr hfull]

theorem EmbeddedSender.trySend_of_accepts {s : EmbeddedSender F A} (h : ¬s.Refuses)
    (message : Control A) : (s.trySend message).2 = true := by
  obtain ⟨halive, hroom⟩ := not_or.mp h
  have hlive : s.alive = true := by simpa using halive
  simp [trySend, hlive, Nat.lt_of_not_le hroom]

inductive ControlCall
  | setLinkEnabled (linkId : UInt64) (enabled : Bool)
  | updateAdapters (adapters : JsonArg EngineLinkConfig)
  | updateLinkStats (stats : JsonArg LinkStatsUpdate)
  | updateSrtStats (stats : Option SrtlaSrtStats)
  | setSessionState (state : Nat) (error : Option String)
  | setMaxVideoBitrate (maxVideoBps : Nat)

namespace Engine

def Untouched (e e' : Engine F A) : Prop := ∃ text, e' = { e with lastError := text }

theorem Untouched.refl (e : Engine F A) : Untouched e e := ⟨e.lastError, rfl⟩

theorem Untouched.links {e e' : Engine F A} (h : Untouched e e') :
    e'.config.links = e.config.links := by
  obtain ⟨text, rfl⟩ := h
  rfl

def Blocked (e : Engine F A) : Prop := ∃ runner, e.runner = some runner ∧ runner.Refuses

theorem tellRunner_of_blocked {e : Engine F A} (h : e.Blocked) (message : Control A)
    (backpressure : String) :
    e.tellRunner (·.trySend message) backpressure = ({ e with lastError := backpressure }, -2) := by
  obtain ⟨runner, hrunner, hrefuses⟩ := h
  simp only [tellRunner, hrunner, EmbeddedSender.trySend_of_refuses hrefuses]
  rw [← hrunner]
  rfl

theorem tellRunner_of_not_blocked {e : Engine F A} (h : ¬e.Blocked) (message : Control A)
    (backpressure : String) : (e.tellRunner (·.trySend message) backpressure).2 = 0 := by
  unfold tellRunner
  cases hrunner : e.runner with
  | none => rfl
  | some runner =>
    have haccepts : ¬runner.Refuses := fun hrefuses => h ⟨runner, hrunner, hrefuses⟩
    simp only [EmbeddedSender.trySend_of_accepts haccepts message, if_pos]

/-! These calls fail before they write. -/

theorem updateLinkStats_untouched (e : Engine F A) (stats : JsonArg LinkStatsUpdate)
    (hfails : (e.updateLinkStats stats).2 ≠ 0) : Untouched e (e.updateLinkStats stats).1 := by
  cases stats with
  | null => exact .refl e
  | invalid => exact ⟨_, rfl⟩
  | array updates => exact absurd rfl hfails
  | object config => exact absurd rfl hfails

theorem updateSrtStats_untouched (e : Engine F A) (stats : Option SrtlaSrtStats)
    (hfails : (e.updateSrtStats stats).2 ≠ 0) : Untouched e (e.updateSrtStats stats).1 := by
  cases stats with
  | none => exact .refl e
  | some stats =>
    by_cases hsize : stats.structSize < srtStatsSize
    · rw [updateSrtStats, if_pos hsize]
      exact .refl e
    · rw [updateSrtStats, if_neg hsize] at hfails
      exact absurd rfl hfails

theorem setMaxVideoBitrate_untouched (e : Engine F A) (bps : Nat)
    (hfails : (e.setMaxVideoBitrate bps).2 ≠ 0) : Untouched e (e.setMaxVideoBitrate bps).1 := by
  by_cases hzero : bps = 0
  · rw [setMaxVideoBitrate, if_pos hzero]
    exact .refl e
  · rw [setMaxVideoBitrate, if_neg hzero] at hfails
    exact absurd rfl hfails

theorem setSessionState_untouched [F64 F] (e : Engine F A) (state : Nat) (error : Option String)
    (hfails : (e.setSessionState state error).2 ≠ 0) :
    Untouched e (e.setSessionState state error).1 := by
  by_cases hstate : state > sessionStopped
  · rw [setSessionState, if_pos hstate]
    exact .refl e
  · rw [setSessionState, if_neg hstate] at hfails
    exact absurd rfl hfails

variable [IpAddr A]

theorem ensureRunner_blocked (e : Engine F A) : e.ensureRunner.Blocked ↔ e.Blocked := by
  -- a runner that the call itself starts has room for the message
  unfold ensureRunner
  split_ifs with hstarts
  · have hnone : e.runner = none := by
      have hwants := (Bool.and_eq_true_iff.mp hstarts).2
      simpa using (Bool.and_eq_true_iff.mp hwants).1
    constructor
    · rintro ⟨runner, hrunner, hrefuses⟩
      obtain rfl := Option.some.inj hrunner
      rcases hrefuses with hdead | hfull
      · cases hdead
      · exact absurd hfull (Nat.not_le.mpr (Nat.zero_lt_succ 31))
    · rintro ⟨runner, hrunner, _⟩
      rw [hnone] at hrunner
      cases hrunner
  · rfl

theorem ensureRunner_of_blocked {e : Engine F A} (h : e.Blocked) : e.ensureRunner = e := by
  obtain ⟨runner, hrunner, _⟩ := h
  simp [ensureRunner, wantsRunner, hrunner]

theorem write_then_tell (e : Engine F A) (links : List EngineLinkConfig) (message : Control A)
    (backpressure : String) :
    let told := (e.withLinks links).ensureRunner.tellRunner (·.trySend message) backpressure
    (told.2 ≠ 0 → Untouched e told.1) ↔ (e.Blocked → links = e.config.links) := by
  intro told
  have hblocked : (e.withLinks links).ensureRunner.Blocked ↔ e.Blocked :=
    ensureRunner_blocked (e.withLinks links)
  by_cases h : e.Blocked
  · have htold : told = ({ e.withLinks links with lastError := backpressure }, -2) := by
      rw [← ensureRunner_of_blocked (e := e.withLinks links) h]
      exact tellRunner_of_blocked (hblocked.mpr h) message backpressure
    rw [htold]
    constructor
    · intro huntouched _
      exact (huntouched (show (-2 : Int) ≠ 0 by decide)).links
    · intro hsame _
      exact ⟨backpressure, by rw [hsame h]; rfl⟩
  · have hzero : told.2 = 0 :=
      tellRunner_of_not_blocked (fun hafter => h (hblocked.mp hafter)) message backpressure
    constructor
    · intro _ hafter
      exact absurd hafter h
    · intro _ hfails
      exact absurd hzero hfails

/-- The disable that the engine refuses before it writes: of the last enabled link. -/
def LastLink (e : Engine F A) (linkId : UInt64) (enabled : Bool) : Prop :=
  e.running = true ∧ enabled = false ∧ heldChoice e.config.links linkId = true ∧
    (e.config.links.filter (·.enabled)).length ≤ 1

def WritesNothingLate (e : Engine F A) : ControlCall → Prop
  | .setLinkEnabled linkId enabled =>
    e.Blocked → e.LastLink linkId enabled ∨
      ∀ l, e.config.links.find? (·.id == linkId) = some l → l.Settled enabled
  | .updateAdapters (.array adapters) => e.Blocked → Repeats adapters e.config.links
  | .updateAdapters (.object config) => e.Blocked → Repeats config.links e.config.links
  | _ => True

theorem setLinkEnabled_untouched_iff (e : Engine F A) (linkId : UInt64) (enabled : Bool) :
    ((e.setLinkEnabled linkId enabled).2 ≠ 0 → Untouched e (e.setLinkEnabled linkId enabled).1) ↔
      (e.Blocked → e.LastLink linkId enabled ∨
        ∀ l, e.config.links.find? (·.id == linkId) = some l → l.Settled enabled) := by
  unfold setLinkEnabled
  dsimp only
  split_ifs with hunknown hlast
  · have hnone : e.config.links.find? (·.id == linkId) = none := by simpa using hunknown
    constructor
    · intro _ _
      exact .inr (by simp [hnone])
    · intro _ _
      exact .refl e
  · have hguard : e.LastLink linkId enabled := by
      simpa [LastLink, heldChoice, and_assoc] using hlast
    constructor
    · intro _ _
      exact .inl hguard
    · intro _ _
      exact .refl e
  · have hguard : ¬e.LastLink linkId enabled := by
      intro hguard
      exact hlast (by simpa [LastLink, heldChoice, and_assoc] using hguard)
    refine (write_then_tell e _ (.setLink linkId enabled) _).trans ?_
    simp only [hguard, false_or, modifyFirst_eq_self_iff, toggleLink_eq_self_iff]

theorem replaceLinks_untouched_iff (e : Engine F A) (adapters : List EngineLinkConfig) :
    ((e.replaceLinks adapters).2 ≠ 0 → Untouched e (e.replaceLinks adapters).1) ↔
      (e.Blocked → Repeats adapters e.config.links) := by
  refine (write_then_tell e _ (.updateLinks _) _).trans ?_
  rw [map_carryChoice_eq_iff]

variable [F64 F]

def control (e : Engine F A) : ControlCall → Engine F A × Int
  | .setLinkEnabled linkId enabled => e.setLinkEnabled linkId enabled
  | .updateAdapters adapters => e.updateAdapters adapters
  | .updateLinkStats stats => e.updateLinkStats stats
  | .updateSrtStats stats => e.updateSrtStats stats
  | .setSessionState state error => e.setSessionState state error
  | .setMaxVideoBitrate maxVideoBps => e.setMaxVideoBitrate maxVideoBps

/-- A call that fails leaves everything but the error text as it was, exactly where no
link is written before a refused message. This is so in every state, reachable or not. -/
theorem failed_call_untouched_iff (e : Engine F A) (call : ControlCall) :
    ((e.control call).2 ≠ 0 → Untouched e (e.control call).1) ↔ e.WritesNothingLate call := by
  cases call with
  | setLinkEnabled linkId enabled => exact setLinkEnabled_untouched_iff e linkId enabled
  | updateAdapters adapters =>
    cases adapters with
    | null => exact iff_of_true (fun _ => .refl e) trivial
    | invalid => exact iff_of_true (fun _ => ⟨_, rfl⟩) trivial
    | array adapters => exact replaceLinks_untouched_iff e adapters
    | object config => exact replaceLinks_untouched_iff e config.links
  | updateLinkStats stats => exact iff_of_true (updateLinkStats_untouched e stats) trivial
  | updateSrtStats stats => exact iff_of_true (updateSrtStats_untouched e stats) trivial
  | setSessionState state error =>
    exact iff_of_true (setSessionState_untouched e state error) trivial
  | setMaxVideoBitrate bps => exact iff_of_true (setMaxVideoBitrate_untouched e bps) trivial

def withTwoLinks : EngineConfig where
  links :=
    [{ id := 1, label := "wan", address := "10.0.0.1" },
      { id := 2, label := "lte", address := "10.0.0.2" }]

def floodedRun : List (Input ℚ Ipv4) :=
  .start :: (List.range controlCapacity).map fun n => .setLinkEnabled 1 (n % 2 == 1)

/-- The next toggle reports a failure and has disabled the link. -/
theorem failed_toggle_kept :
    let e : Engine ℚ Ipv4 := reached withTwoLinks floodedRun
    (e.control (.setLinkEnabled 1 false)).2 = -2 ∧
      e.config.links.map (·.enabled) = [true, true] ∧
      (e.control (.setLinkEnabled 1 false)).1.config.links.map (·.enabled) = [false, true] := by
  decide +kernel

end Engine
end Srtla
