import SrtlaOutput.Engine.Visible
import SrtlaOutput.Lib.Mailbox

/-! The messages that the runner has not taken yet. They only count: a message more or less
changes no reply, as long as the channel has room for the next one. -/

namespace Srtla
open Abr Reactive FirstMatch Mailbox
variable {F A : Type}

def mail (e : Engine F A) : List (Control A) := (e.runner.map (·.control)).getD []

theorem tellRunner_mail (e : Engine F A) (m : Control A) (backpressure : String) :
    mail (e.tellRunner (·.trySend m) backpressure).1 = mail e ++ [m] ∨
      mail (e.tellRunner (·.trySend m) backpressure).1 = mail e ∧
        ((e.tellRunner (·.trySend m) backpressure).2 = 0 → mail e = []) := by
  rcases e with ⟨_, _, _, _, _, _, _, _, _, _, _, _, runner⟩
  cases runner with
  | none => exact .inr ⟨rfl, fun _ => rfl⟩
  | some r =>
    by_cases h : (r.alive && decide (r.control.length < controlCapacity)) = true
    · left
      simp [mail, Engine.tellRunner, EmbeddedSender.trySend, h]
    · right
      simp [mail, Engine.tellRunner, EmbeddedSender.trySend, h]

section Calls
variable [IpAddr A]

theorem ensureRunner_mail (e : Engine F A) : mail e.ensureRunner = mail e := by
  unfold Engine.ensureRunner
  split_ifs with h
  · -- a runner is created only where there is none
    have hnone : e.runner = none := by
      have hwants := (Bool.and_eq_true_iff.mp h).2
      exact Option.isNone_iff_eq_none.mp (Bool.and_eq_true_iff.mp hwants).1
    simp [mail, Engine.startRunner, EmbeddedSender.start, hnone]
  · rfl

end Calls

def Input.move : Input F A → Move
  | .stop => .drop
  | .runner .takeControl => .take
  | _ => .put

namespace Engine

def withControl (e : Engine F A) (messages : List (Control A)) : Engine F A :=
  { e with runner := e.runner.map fun r => { r with control := messages } }

def Room (e : Engine F A) : Prop :=
  ∀ r, e.runner = some r → r.alive = true → r.control.length < controlCapacity

theorem withControl_of_none {e : Engine F A} (h : e.runner = none) (messages : List (Control A)) :
    e.withControl messages = e := by
  rcases e with ⟨_, _, _, _, _, _, _, _, _, _, _, _, runner⟩
  cases h
  rfl

theorem withControl_mail (e : Engine F A) : e.withControl (mail e) = e := by
  rcases e with ⟨_, _, _, _, _, _, _, _, _, _, _, _, runner⟩
  cases runner <;> rfl

theorem visible_withControl (e : Engine F A) (messages : List (Control A)) :
    (e.withControl messages).visible = e.visible.withControl messages := rfl

/-- The second engine is the first with fewer messages for the runner, as far as the links can
be seen. -/
def Behind (s t : Engine F A) : Prop :=
  ∃ messages : List (Control A), messages.length ≤ (mail s).length ∧
    t.visible = s.visible.withControl messages

/-- From an engine with fewer messages a call answers the same, and the same happens to the
messages. -/
def Counts {ω : Type} (move : Move) (call : Engine F A → Engine F A × ω) (e : Engine F A) : Prop :=
  ∀ messages : List (Control A), messages.length ≤ (mail e).length →
    ∃ left : List (Control A),
      call (e.withControl messages) = ((call e).1.withControl left, (call e).2) ∧
      Moved move (mail e) (mail (call e).1) messages left

theorem Counts.of_none {ω : Type} {call : Engine F A → Engine F A × ω} {e : Engine F A}
    (h : e.runner = none) : Counts .put call e := by
  intro messages hmessages
  refine ⟨mail (call e).1, ?_, ?_⟩
  · rw [withControl_of_none h, withControl_mail]
  · have hmail : mail e = [] := by
      rw [mail, h]
      rfl
    rw [hmail] at hmessages ⊢
    obtain rfl := List.eq_nil_of_length_eq_zero (Nat.le_zero.mp hmessages)
    exact .put (mail (call e).1)

theorem Counts.of_runner {ω : Type} {call : Engine F A → Engine F A × ω}
    (h : ∀ e runner, call { e with runner } = ({ (call e).1 with runner }, (call e).2))
    (e : Engine F A) : Counts .put call e := by
  intro messages _
  have hrunner : (call e).1.runner = e.runner := congrArg (·.1.runner) (h e e.runner)
  refine ⟨messages, ?_, ?_⟩
  · rw [withControl, h, withControl, hrunner]
  · rw [mail, mail, hrunner]
    exact .same

theorem Counts.reply {ω : Type} {call : Engine F A → Engine F A × ω} {e : Engine F A}
    {move : Move} (h : Counts move call e) (f : ω → Reply) :
    Counts move (fun e => ((call e).1, f (call e).2)) e := by
  intro messages hmessages
  obtain ⟨left, hcall, hleft⟩ := h messages hmessages
  exact ⟨left, congrArg (fun r : Engine F A × ω => (r.1, f r.2)) hcall, hleft⟩

theorem submitSrtDatagram_counts (data : List UInt8) (e : Engine F A) :
    Counts .put (fun e : Engine F A => e.submitSrtDatagram data) e := by
  rcases e with ⟨_, input, _, running, _, _, _, _, _, _, _, _, runner⟩
  cases runner with
  | none => exact .of_none rfl
  | some r =>
    intro messages _
    refine ⟨messages, ?_, ?_⟩
    · unfold submitSrtDatagram
      cases data.isEmpty <;> cases running <;> cases halive : r.alive <;>
        simp [EmbeddedSender.submit, halive, submitResult, withControl]
    · unfold submitSrtDatagram
      cases data.isEmpty <;> cases running <;> cases halive : r.alive <;>
        simpa [EmbeddedSender.submit, halive, submitResult, mail] using Moved.same

theorem deliver_counts (capacity : Nat) (packet : Option (List UInt8)) (e : Engine F A) :
    Counts .put (fun e : Engine F A => e.deliver capacity packet) e := by
  refine Counts.of_runner (fun e runner => ?_) e
  cases packet with
  | none => rfl
  | some packet =>
    simp only [deliver]
    split_ifs <;> rfl

theorem receiveSrtDatagram_counts (capacity : Nat) (e : Engine F A) :
    Counts .put (fun e : Engine F A => e.receiveSrtDatagram capacity) e := by
  rcases e with ⟨config, input, output, running, abr, video, audio, error, session, text, srt, decision, runner⟩
  cases runner with
  | none => exact .of_none rfl
  | some r =>
    intro messages hmessages
    have hreceive : ({ r with control := messages } : EmbeddedSender F A).receive =
        ({ r.receive.1 with control := messages }, r.receive.2) := by
      unfold EmbeddedSender.receive
      cases hr : r.output <;> simp [hr]
    have hcontrol : r.receive.1.control = r.control := by
      unfold EmbeddedSender.receive
      cases r.output <;> rfl
    have hdelivered := deliver_counts capacity r.receive.2
      { config, input, output, running, abr, currentVideoBps := video, audioBps := audio
        lastError := error, sessionState := session, sessionError := text, srtStats := srt
        lastAbrDecision := decision, runner := some r.receive.1 } messages
        (by simpa [mail, hcontrol] using hmessages)
    by_cases hcapacity : capacity = 0
    · refine ⟨messages, ?_, ?_⟩
      · simp [receiveSrtDatagram, hcapacity, withControl]
      · simpa [receiveSrtDatagram, hcapacity] using Moved.same
    · cases running with
      | false =>
        refine ⟨messages, ?_, ?_⟩
        · simp [receiveSrtDatagram, hcapacity, withControl]
        · simpa [receiveSrtDatagram, hcapacity] using Moved.same
      | true =>
        simp only [receiveSrtDatagram, hcapacity, if_false, withControl, Option.map_some,
          Bool.not_true, Bool.false_eq_true, hreceive, mail, hcontrol] at hdelivered ⊢
        exact hdelivered

theorem tellRunner_counts {e : Engine F A} (hroom : e.Room) (m : Control A) (backpressure : String) :
    Counts .put (fun e : Engine F A => e.tellRunner (·.trySend m) backpressure) e := by
  rcases e with ⟨_, _, _, _, _, _, _, _, _, _, _, _, runner⟩
  cases runner with
  | none => exact .of_none rfl
  | some r =>
    intro messages hmessages
    have hle : messages.length ≤ r.control.length := hmessages
    cases halive : r.alive with
    | false =>
      refine ⟨messages, ?_, ?_⟩
      · simp [tellRunner, EmbeddedSender.trySend, halive, withControl]
      · simpa [tellRunner, EmbeddedSender.trySend, halive, mail] using Moved.same
    | true =>
      have hlt : r.control.length < controlCapacity := hroom r rfl halive
      have hfewer : messages.length < controlCapacity := hle.trans_lt hlt
      refine ⟨messages ++ [m], ?_, ?_⟩
      · simp [tellRunner, EmbeddedSender.trySend, halive, hlt, hfewer, withControl]
      · simpa [tellRunner, EmbeddedSender.trySend, halive, hlt, mail] using Moved.put [m]

theorem updateSrtStats_counts (stats : Option SrtlaSrtStats) (e : Engine F A) :
    Counts .put (fun e : Engine F A => e.updateSrtStats stats) e := by
  refine Counts.of_runner (fun e runner => ?_) e
  cases stats with
  | none => rfl
  | some stats =>
    simp only [updateSrtStats]
    split_ifs <;> rfl

theorem setMaxVideoBitrate_counts (maxVideoBps : Nat) (e : Engine F A) :
    Counts .put (fun e : Engine F A => e.setMaxVideoBitrate maxVideoBps) e := by
  refine Counts.of_runner (fun e runner => ?_) e
  simp only [setMaxVideoBitrate]
  split_ifs <;> rfl

theorem updateLinkStats_counts (stats : JsonArg LinkStatsUpdate) (e : Engine F A) :
    Counts .put (fun e : Engine F A => e.updateLinkStats stats) e := by
  refine Counts.of_runner (fun e runner => ?_) e
  cases stats <;> rfl

section Addresses
variable [IpAddr A]

theorem ensureRunner_of_some {e : Engine F A} {r : EmbeddedSender F A} (h : e.runner = some r) :
    e.ensureRunner = e := by
  simp [ensureRunner, wantsRunner, h]

theorem ensureRunner_withLinks_of_some {e : Engine F A} {r : EmbeddedSender F A}
    (h : e.runner = some r) (links : List EngineLinkConfig) :
    (e.withLinks links).ensureRunner = e.withLinks links := ensureRunner_of_some (r := r) h

theorem setLinkEnabled_counts (linkId : UInt64) (enabled : Bool) {e : Engine F A} (hroom : e.Room) :
    Counts .put (fun e : Engine F A => e.setLinkEnabled linkId enabled) e := by
  rcases hr : e.runner with _ | r
  · exact .of_none hr
  · intro messages hmessages
    have hsome : (e.withControl messages).runner = some { r with control := messages } := by
      simp [withControl, hr]
    have htold := tellRunner_counts
      (e := e.withLinks (modifyFirst (·.id == linkId) (toggleLink enabled) e.config.links)) hroom
      (.setLink linkId enabled) "link control queue backpressure" messages hmessages
    simp only [setLinkEnabled]
    have hlinks : (e.withControl messages).config.links = e.config.links := rfl
    have hrunning : (e.withControl messages).running = e.running := rfl
    rw [hlinks, hrunning]
    split_ifs
    · exact ⟨messages, rfl, .same⟩
    · exact ⟨messages, rfl, .same⟩
    · rw [ensureRunner_withLinks_of_some hr, ensureRunner_withLinks_of_some hsome]
      exact htold

theorem replaceLinks_counts (links : List EngineLinkConfig) {e : Engine F A} (hroom : e.Room) :
    Counts .put (fun e : Engine F A => e.replaceLinks links) e := by
  rcases hr : e.runner with _ | r
  · exact .of_none hr
  · intro messages hmessages
    have hsome : (e.withControl messages).runner = some { r with control := messages } := by
      simp [withControl, hr]
    have htold := tellRunner_counts (e := e.withLinks (links.map (carryChoice e.config.links))) hroom
      (.updateLinks (embeddedLinks A (links.map (carryChoice e.config.links))))
      "adapter update queue backpressure" messages hmessages
    simp only [replaceLinks, ensureRunner_withLinks_of_some hr, ensureRunner_withLinks_of_some hsome]
    exact htold

theorem updateAdapters_counts (adapters : JsonArg EngineLinkConfig) {e : Engine F A}
    (hroom : e.Room) : Counts .put (fun e : Engine F A => e.updateAdapters adapters) e := by
  cases adapters with
  | null => exact .of_runner (fun _ _ => rfl) e
  | invalid => exact .of_runner (fun _ _ => rfl) e
  | array links => exact replaceLinks_counts links hroom
  | object config => exact replaceLinks_counts config.links hroom

end Addresses

section Controller
variable [F64 F]

theorem setSessionState_counts (state : Nat) (error : Option String) (e : Engine F A) :
    Counts .put (fun e : Engine F A => e.setSessionState state error) e := by
  refine Counts.of_runner (fun e runner => ?_) e
  simp only [setSessionState]
  split_ifs <;> rfl

end Controller

variable [F64 F] [IpAddr A]

theorem syncRunnerStats_withControl (e : Engine F A) (messages : List (Control A)) :
    (e.withControl messages).syncRunnerStats = e.syncRunnerStats.withControl messages := by
  have hstats : (e.withControl messages).runner.bind (·.stats) = e.runner.bind (·.stats) := by
    rw [withControl]
    cases e.runner <;> rfl
  rw [syncRunnerStats, syncRunnerStats, hstats]
  cases e.runner.bind (·.stats) <;> rfl

theorem syncRunnerStats_mail (e : Engine F A) : mail e.syncRunnerStats = mail e := by
  unfold syncRunnerStats
  cases e.runner.bind (·.stats) <;> rfl

theorem applyAbr_counts (nowMs : Nat) (e : Engine F A) :
    Counts .put (fun e : Engine F A => e.applyAbr nowMs) e := by
  intro messages _
  refine ⟨messages, ?_, ?_⟩
  · simp only [applyAbr, syncRunnerStats_withControl]
    rfl
  · have hmail : mail (e.applyAbr nowMs).1 = mail e := syncRunnerStats_mail e
    rw [hmail]
    exact .same

theorem copyStatsJson_counts (e : Engine F A) :
    Counts .put (fun e : Engine F A => e.copyStatsJson) e := by
  intro messages _
  refine ⟨messages, ?_, ?_⟩
  · simp only [copyStatsJson, syncRunnerStats_withControl]
    rfl
  · have hmail : mail e.copyStatsJson.1 = mail e := syncRunnerStats_mail e
    rw [hmail]
    exact .same

theorem start_counts (e : Engine F A) : Counts .put (fun e : Engine F A => e.start) e := by
  rcases hr : e.runner with _ | r
  · exact .of_none hr
  · intro messages _
    have hsome : (e.withControl messages).runner = some { r with control := messages } := by
      simp [withControl, hr]
    have hstart : e.start = (e.freshRun, 0) :=
      Prod.ext ((start_eq e).trans (ensureRunner_of_some hr)) rfl
    have hstart' : (e.withControl messages).start = ((e.withControl messages).freshRun, 0) :=
      Prod.ext ((start_eq _).trans (ensureRunner_of_some hsome)) rfl
    refine ⟨messages, ?_, ?_⟩
    · dsimp only
      rw [hstart, hstart']
      rfl
    · dsimp only
      rw [hstart]
      exact .same

theorem effect_counts (effect : RunnerEffect F A) (e : Engine F A) :
    Counts (Input.runner effect).move (fun e : Engine F A => e.step (.runner effect)) e := by
  rcases e with ⟨_, _, _, _, _, _, _, _, _, _, _, _, runner⟩
  cases runner with
  | none =>
    intro messages hmessages
    obtain rfl := List.eq_nil_of_length_eq_zero (Nat.le_zero.mp hmessages)
    cases effect with
    | takeControl => exact ⟨[], rfl, .take⟩
    | _ => exact ⟨[], rfl, .same⟩
  | some r =>
    intro messages _
    cases effect with
    | takeControl => exact ⟨messages.tail, rfl, .take⟩
    | _ => exact ⟨messages, rfl, .same⟩

omit [F64 F] [IpAddr A] in
theorem mail_visible (e : Engine F A) : mail e.visible = mail e := rfl

omit [F64 F] [IpAddr A] in
theorem mail_withControl {e : Engine F A} {messages : List (Control A)}
    (h : messages.length ≤ (mail e).length) : mail (e.withControl messages) = messages := by
  rcases e with ⟨_, _, _, _, _, _, _, _, _, _, _, _, runner⟩
  cases runner with
  | none => exact (List.eq_nil_of_length_eq_zero (Nat.le_zero.mp h)).symm
  | some r => rfl

omit [F64 F] [IpAddr A] in
theorem Behind.mail {s t : Engine F A} (h : Behind s t) :
    (Srtla.mail t).length ≤ (Srtla.mail s).length ∧
      t.visible = s.visible.withControl (Srtla.mail t) := by
  obtain ⟨messages, hmessages, ht⟩ := h
  have hmail : Srtla.mail t = messages := by
    rw [← mail_visible, ht]
    exact mail_withControl hmessages
  exact hmail ▸ ⟨hmessages, ht⟩

/-- A call that passes a message on finds room for it. -/
def FindsRoom (e : Engine F A) : Input F A → Prop
  | .setLinkEnabled _ _ => e.Room
  | .updateAdapters _ => e.Room
  | _ => True

theorem step_counts {e : Engine F A} {i : Input F A} (hroom : e.FindsRoom i) :
    Counts i.move (fun e : Engine F A => e.step i) e := by
  cases i with
  | start => exact (start_counts e).reply _
  | stop => exact fun messages _ => ⟨[], rfl, .drop⟩
  | submitSrtDatagram data => exact (submitSrtDatagram_counts data e).reply _
  | receiveSrtDatagram capacity =>
    exact (receiveSrtDatagram_counts capacity e).reply fun r => .received r.1 r.2
  | setLinkEnabled linkId enabled => exact (setLinkEnabled_counts linkId enabled hroom).reply _
  | updateAdapters adapters => exact (updateAdapters_counts adapters hroom).reply _
  | updateLinkStats stats => exact (updateLinkStats_counts stats e).reply _
  | updateSrtStats stats => exact (updateSrtStats_counts stats e).reply _
  | setAudioBitrate bps => exact .of_runner (fun _ _ => rfl) e
  | setVideoBitrate bps => exact .of_runner (fun _ _ => rfl) e
  | setMaxVideoBitrate bps => exact (setMaxVideoBitrate_counts bps e).reply _
  | setSessionState state error => exact (setSessionState_counts state error e).reply _
  | applyAbr nowMs => exact (applyAbr_counts nowMs e).reply _
  | copyStatsJson => exact (copyStatsJson_counts e).reply _
  | lastError => exact .of_runner (fun _ _ => rfl) e
  | runner effect => exact effect_counts effect e

/-- Where its messages find room, the engine with more of them answers as the other does, and the
same happens to the messages of both. -/
theorem Behind.step {s t : Engine F A} {i : Input F A} (h : Behind s t) (hroom : s.FindsRoom i) :
    (s.step i).2 = (t.step i).2 ∧ Behind (s.step i).1 (t.step i).1 ∧
      Moved i.move (Srtla.mail s) (Srtla.mail (s.step i).1) (Srtla.mail t)
        (Srtla.mail (t.step i).1) := by
  obtain ⟨hmessages, ht⟩ := h.mail
  have hvisible : s.visible.FindsRoom i := by cases i <;> exact hroom
  obtain ⟨left, hstep, hmoved⟩ := step_counts hvisible (Srtla.mail t) hmessages
  dsimp only at hstep
  have hkept := forgets_visible.keeps s i
  have hmail : Srtla.mail (s.visible.step i).1 = Srtla.mail (s.step i).1 :=
    (congrArg Srtla.mail hkept).symm
  have hleft : left.length ≤ (Srtla.mail (s.step i).1).length := hmail ▸ hmoved.length_le hmessages
  have hafter : (t.step i).1.visible = (s.step i).1.visible.withControl left := by
    rw [forgets_visible.keeps t i, ht, hstep, visible_withControl, ← hkept]
  refine ⟨?_, ⟨left, hleft, hafter⟩, ?_⟩
  · have hreply := forgets_visible.agrees t i
    rw [ht, hstep] at hreply
    exact (forgets_visible.agrees s i).trans hreply.symm
  · have hmail' : Srtla.mail (t.step i).1 = left := by
      rw [← mail_visible, hafter]
      exact mail_withControl hleft
    rw [hmail', ← hmail]
    exact hmoved

end Engine

end Srtla
