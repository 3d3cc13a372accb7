import SrtlaOutput.Engine.Defs

/-! Which calls leave the controller alone. A call that only writes links, queues, the
runner handle or the error text is a peripheral one. -/

namespace Srtla
open Abr
variable {F A : Type}

namespace Engine

def Peripheral (e e' : Engine F A) : Prop :=
  ∃ links input output text runner,
    e' = { e.withLinks links with input, output, lastError := text, runner }

namespace Peripheral
variable {e e' e'' : Engine F A}

theorem refl (e : Engine F A) : Peripheral e e :=
  ⟨e.config.links, e.input, e.output, e.lastError, e.runner, rfl⟩

theorem trans (h : Peripheral e e') (h' : Peripheral e' e'') : Peripheral e e'' := by
  obtain ⟨_, _, _, _, _, rfl⟩ := h
  obtain ⟨links, input, output, text, runner, rfl⟩ := h'
  exact ⟨links, input, output, text, runner, rfl⟩

theorem running (h : Peripheral e e') : e'.running = e.running := by
  obtain ⟨_, _, _, _, _, rfl⟩ := h
  rfl

theorem abr (h : Peripheral e e') : e'.abr = e.abr := by
  obtain ⟨_, _, _, _, _, rfl⟩ := h
  rfl

theorem sessionState (h : Peripheral e e') : e'.sessionState = e.sessionState := by
  obtain ⟨_, _, _, _, _, rfl⟩ := h
  rfl

theorem srtStats (h : Peripheral e e') : e'.srtStats = e.srtStats := by
  obtain ⟨_, _, _, _, _, rfl⟩ := h
  rfl

theorem currentVideoBps (h : Peripheral e e') : e'.currentVideoBps = e.currentVideoBps := by
  obtain ⟨_, _, _, _, _, rfl⟩ := h
  rfl

theorem lastAbrDecision (h : Peripheral e e') : e'.lastAbrDecision = e.lastAbrDecision := by
  obtain ⟨_, _, _, _, _, rfl⟩ := h
  rfl

end Peripheral

theorem peripheral_text (e : Engine F A) (text : String) :
    Peripheral e { e with lastError := text } :=
  ⟨e.config.links, e.input, e.output, text, e.runner, rfl⟩

theorem peripheral_runner (e : Engine F A) (runner : Option (EmbeddedSender F A)) :
    Peripheral e { e with runner } :=
  ⟨e.config.links, e.input, e.output, e.lastError, runner, rfl⟩

theorem peripheral_withLinks (e : Engine F A) (links : List EngineLinkConfig) :
    Peripheral e (e.withLinks links) :=
  ⟨links, e.input, e.output, e.lastError, e.runner, rfl⟩

theorem submitResult_peripheral (e : Engine F A) (r : Except EmbeddedSubmitError Unit) :
    Peripheral e (e.submitResult r).1 := by
  obtain error | _ := r
  · cases error <;> exact peripheral_text e _
  · exact peripheral_text e _

theorem submitSrtDatagram_peripheral (e : Engine F A) (data : List UInt8) :
    Peripheral e (e.submitSrtDatagram data).1 := by
  have hinput (input : DatagramQueue) (text : String) :
      Peripheral e { e with input, lastError := text } :=
    ⟨e.config.links, input, e.output, text, e.runner, rfl⟩
  unfold submitSrtDatagram
  split
  · exact .refl e
  split
  · exact peripheral_text e _
  split
  · dsimp only
    split_ifs <;> exact hinput _ _
  · exact (peripheral_runner e _).trans (submitResult_peripheral _ _)

theorem deliver_peripheral (e : Engine F A) (capacity : Nat) (packet : Option (List UInt8)) :
    Peripheral e (e.deliver capacity packet).1 := by
  cases packet with
  | none => exact .refl e
  | some packet =>
    simp only [deliver]
    split_ifs
    · exact peripheral_text e _
    · exact .refl e

theorem receiveSrtDatagram_peripheral (e : Engine F A) (capacity : Nat) :
    Peripheral e (e.receiveSrtDatagram capacity).1 := by
  have houtput (output : DatagramQueue) : Peripheral e { e with output } :=
    ⟨e.config.links, e.input, output, e.lastError, e.runner, rfl⟩
  unfold receiveSrtDatagram
  split
  · exact .refl e
  split
  · exact .refl e
  split
  · split
    · exact peripheral_text e _
    · exact (houtput _).trans (deliver_peripheral _ _ _)
  · exact (peripheral_runner e _).trans (deliver_peripheral _ _ _)

theorem tellRunner_peripheral (e : Engine F A)
    (send : EmbeddedSender F A → EmbeddedSender F A × Bool) (backpressure : String) :
    Peripheral e (e.tellRunner send backpressure).1 := by
  unfold tellRunner
  cases e.runner with
  | none => exact .refl e
  | some runner =>
    dsimp only
    split_ifs
    · exact peripheral_runner e _
    · exact ⟨e.config.links, e.input, e.output, _, _, rfl⟩

theorem tellRunner_config (e : Engine F A)
    (send : EmbeddedSender F A → EmbeddedSender F A × Bool) (backpressure : String) :
    (e.tellRunner send backpressure).1.config = e.config := by
  unfold tellRunner
  cases e.runner with
  | none => rfl
  | some runner =>
    dsimp only
    split_ifs <;> rfl

theorem writeStats_peripheral (e : Engine F A) (updates : List LinkStatsUpdate) :
    Peripheral e (e.writeStats updates).1 := peripheral_withLinks e _

theorem updateLinkStats_peripheral (e : Engine F A) (stats : JsonArg LinkStatsUpdate) :
    Peripheral e (e.updateLinkStats stats).1 := by
  cases stats with
  | null => exact .refl e
  | invalid => exact peripheral_text e _
  | array updates => exact writeStats_peripheral e updates
  | object config => exact writeStats_peripheral e _

section Addresses
variable [IpAddr A]

theorem ensureRunner_peripheral (e : Engine F A) : Peripheral e e.ensureRunner := by
  unfold ensureRunner
  split_ifs
  · exact peripheral_runner e _
  · exact .refl e

theorem ensureRunner_config (e : Engine F A) : e.ensureRunner.config = e.config := by
  unfold ensureRunner
  split_ifs <;> rfl

theorem replaceLinks_links (e : Engine F A) (links : List EngineLinkConfig) :
    (e.replaceLinks links).1.config.links = links.map (carryChoice e.config.links) := by
  rw [replaceLinks, tellRunner_config, ensureRunner_config]
  rfl

theorem setLinkEnabled_peripheral (e : Engine F A) (linkId : UInt64) (enabled : Bool) :
    Peripheral e (e.setLinkEnabled linkId enabled).1 := by
  unfold setLinkEnabled
  dsimp only
  split_ifs
  · exact .refl e
  · exact .refl e
  · exact ((peripheral_withLinks e _).trans (ensureRunner_peripheral _)).trans
      (tellRunner_peripheral _ _ _)

theorem replaceLinks_peripheral (e : Engine F A) (links : List EngineLinkConfig) :
    Peripheral e (e.replaceLinks links).1 :=
  ((peripheral_withLinks e _).trans (ensureRunner_peripheral _)).trans
    (tellRunner_peripheral _ _ _)

theorem updateAdapters_peripheral (e : Engine F A) (adapters : JsonArg EngineLinkConfig) :
    Peripheral e (e.updateAdapters adapters).1 := by
  cases adapters with
  | null => exact .refl e
  | invalid => exact peripheral_text e _
  | array links => exact replaceLinks_peripheral e links
  | object config => exact replaceLinks_peripheral e config.links

variable [F64 F]

theorem syncRunnerStats_peripheral (e : Engine F A) : Peripheral e e.syncRunnerStats := by
  unfold syncRunnerStats
  cases e.runner.bind (·.stats) with
  | none => exact .refl e
  | some stats => exact (peripheral_withLinks e _).trans (peripheral_text _ _)

end Addresses

end Engine
end Srtla
