import SrtlaOutput.Abr.Runs
import SrtlaOutput.Lib.Deadline

/-! How often and how far the controller steps. The two deadlines are shared by four
branches and survive held samples, outages and changes of the limits, so a run without
a reset is read as the list of its steps. -/

namespace Srtla.Abr

inductive Op
  | decide (sample : AbrSample)
  | setMax (bps : Nat)
  | setCurrent (bps : Nat)

/-- One step of the control law: the branch taken, the clock, the limits, and the target
before the step, after it, and after the clamp to the limits. -/
structure Step where
  kind : ControlState
  nowMs : Nat
  limits : AbrConfig
  before : Nat
  unclamped : Nat
  after : Nat
  deriving DecidableEq, Repr

def Step.increases (step : Step) : Bool := step.kind == .increasing

def Step.decreases (step : Step) : Bool :=
  step.kind == .severe || step.kind == .heavy || step.kind == .light

def holdOffMs : ControlState → Nat
  | .heavy => 250
  | _ => 200

/-- The size of a step in saturating `u64` arithmetic, and the clamp after it. There are no steps
but these five. -/
structure Step.Exact (step : Step) : Prop where
  kinds : step.kind ∈ [ControlState.severe, .heavy, .light, .increasing, .hold]
  severe : step.kind = .severe → step.unclamped = step.limits.minBps
  hold : step.kind = .hold → step.unclamped = step.before
  increasing : step.kind = .increasing →
    step.unclamped = saturatingAdd step.before (saturatingAdd 30000 (step.before / 30))
  heavy : step.kind = .heavy →
    step.unclamped = step.before - saturatingAdd 100000 (step.before / 10)
  light : step.kind = .light → step.unclamped = step.before - 100000
  clamped : step.after = clamp step.unclamped step.limits.minBps step.limits.maxBps

namespace AbrController
variable {F : Type} [F64 F]

def apply (c : AbrController F) : Op → AbrController F
  | .decide sample => (c.decide sample).1
  | .setMax bps => (c.setMaxBps bps).1
  | .setCurrent bps => (c.setCurrentBps bps).1

def stepOf (c : AbrController F) : Op → Option Step
  | .decide sample =>
    if sample.allLinksDown || c.holds sample.srt then none
    else
      let moved := ((c.learn sample.srt).control sample).1
      some
        { kind := moved.lastControlState
          nowMs := sample.nowMs
          limits := c.config
          before := c.internalBitrateBps
          unclamped := moved.internalBitrateBps
          after := (c.decide sample).1.internalBitrateBps }
  | _ => none

/-- The target after an operation that makes no step: the floor with all links down, the same where
a sample is held, the lower of the two under a new limit, and the caller's own within the limits. -/
def targetOf (c : AbrController F) : Op → Nat
  | .decide sample => if sample.allLinksDown then c.config.minBps else c.internalBitrateBps
  | .setMax bps => min c.internalBitrateBps (max (max bps c.config.minBps) roundingBps)
  | .setCurrent bps => clamp bps c.config.minBps c.config.maxBps

def steps (c : AbrController F) (ops : List Op) : List Step := Deadline.events apply stepOf c ops

theorem stepOf_some {c : AbrController F} {op : Op} {step : Step} (h : step ∈ c.stepOf op) :
    ∃ sample, op = .decide sample ∧ c.Fresh sample ∧
      step =
        { kind := ((c.learn sample.srt).controlOn .u64 sample).lastControlState
          nowMs := sample.nowMs
          limits := c.config
          before := c.internalBitrateBps
          unclamped := ((c.learn sample.srt).controlOn .u64 sample).internalBitrateBps
          after := (c.decideOn .u64 sample).internalBitrateBps } := by
  cases op with
  | decide sample =>
    simp only [stepOf, control_eq_controlOn, decide_eq_decideOn] at h
    split_ifs at h with hheld
    · cases h
    · simp only [Bool.or_eq_true, not_or, Bool.not_eq_true] at hheld
      exact ⟨sample, rfl, fresh_iff.mpr hheld, (Option.some.inj h).symm⟩
  | setMax bps => cases h
  | setCurrent bps => cases h

theorem apply_of_none {c : AbrController F} {op : Op} (h : c.stepOf op = none) :
    (c.apply op).nextIncreaseMs = c.nextIncreaseMs ∧
      (c.apply op).nextDecreaseMs = c.nextDecreaseMs := by
  cases op with
  | decide sample =>
    simp only [apply, decide_eq_decideOn]
    cases hup : sample.allLinksDown with
    | true =>
      rw [decideOn_of_down hup]
      exact ⟨rfl, rfl⟩
    | false =>
      have hheld : ¬c.Fresh sample := by
        intro hfresh
        obtain ⟨_, hholds⟩ := fresh_iff.mp hfresh
        simp [stepOf, hup, hholds] at h
      obtain ⟨st, hc⟩ := decideOn_of_held .u64 hup hheld
      rw [hc]
      exact ⟨rfl, rfl⟩
  | setMax bps => exact ⟨rfl, rfl⟩
  | setCurrent bps => exact ⟨rfl, rfl⟩

theorem stepOf_spec {c : AbrController F} {op : Op} {step : Step} (h : step ∈ c.stepOf op) :
    (if step.increases then
        c.nextIncreaseMs < step.nowMs ∧
          (c.apply op).nextIncreaseMs = saturatingAdd step.nowMs 500
      else (c.apply op).nextIncreaseMs = c.nextIncreaseMs) ∧
    (if step.decreases then
        (step.kind ≠ .severe → c.nextDecreaseMs < step.nowMs) ∧
          (c.apply op).nextDecreaseMs = saturatingAdd step.nowMs (holdOffMs step.kind)
      else (c.apply op).nextDecreaseMs = c.nextDecreaseMs) ∧
    step.Exact := by
  obtain ⟨sample, rfl, hfresh, rfl⟩ := stepOf_some h
  have hbranch := controlOn_branch .u64 (c.learn sample.srt) sample
  have hconfig := controlOn_config .u64 (c.learn sample.srt) sample
  simp only [apply, decide_eq_decideOn, decideOn_of_fresh hfresh, clampInternal, hconfig,
    learn_config]
  generalize (c.learn sample.srt).controlOn .u64 sample = c' at hbranch
  cases hbranch with
  | severe hmin hsevere =>
    exact ⟨rfl, ⟨fun h => absurd rfl h, rfl⟩, by simp, fun _ => rfl, by simp, by simp, by simp,
      by simp, rfl⟩
  | heavy hsevere hdue hheavy =>
    exact ⟨rfl, ⟨fun _ => hdue, rfl⟩, by simp, by simp, by simp, by simp, fun _ => rfl, by simp,
      rfl⟩
  | light hsevere hdue hheavy hlight =>
    exact ⟨rfl, ⟨fun _ => hdue, rfl⟩, by simp, by simp, by simp, by simp, by simp, fun _ => rfl,
      rfl⟩
  | increasing hsevere hdown hdue hmay =>
    exact ⟨⟨hdue, rfl⟩, rfl, by simp, by simp, by simp, fun _ => rfl, by simp, by simp, rfl⟩
  | hold hsevere hdown hup =>
    exact ⟨rfl, rfl, by simp, by simp, fun _ => rfl, by simp, by simp, by simp, rfl⟩

theorem apply_internal (c : AbrController F) (op : Op) :
    (c.apply op).internalBitrateBps = ((c.stepOf op).map (·.after)).getD (c.targetOf op) := by
  cases hstep : c.stepOf op with
  | some step =>
    obtain ⟨sample, rfl, -, rfl⟩ := stepOf_some hstep
    exact congrArg internalBitrateBps (decide_eq_decideOn c sample)
  | none =>
    cases op with
    | decide sample =>
      simp only [apply, targetOf, Option.map_none, Option.getD_none, decide_eq_decideOn]
      cases hup : sample.allLinksDown with
      | true =>
        rw [decideOn_of_down hup]
        rfl
      | false =>
        have hheld : ¬c.Fresh sample := by
          intro hfresh
          obtain ⟨-, hholds⟩ := fresh_iff.mp hfresh
          simp [stepOf, hup, hholds] at hstep
        obtain ⟨st, hc⟩ := decideOn_of_held .u64 hup hheld
        rw [hc]
        rfl
    | setMax bps => rfl
    | setCurrent bps => rfl

theorem keeps_increase :
    Deadline.Keeps (apply (F := F)) stepOf Step.increases
      (fun c step => c.nextIncreaseMs < step.nowMs)
      (fun step step' => saturatingAdd step.nowMs 500 < step'.nowMs) where
  idle c op hidle step hdue := by
    cases hemit : c.stepOf op with
    | none => rwa [(apply_of_none hemit).1] at hdue
    | some made =>
      have hspec := (stepOf_spec hemit).1
      rw [if_neg (by simp [hidle made hemit])] at hspec
      rwa [hspec] at hdue
  fires c op step hstep hincreases := by
    have hspec := (stepOf_spec hstep).1
    rw [if_pos hincreases] at hspec
    exact hspec.1
  sets c op step hstep hincreases step' hdue := by
    have hspec := (stepOf_spec hstep).1
    rw [if_pos hincreases] at hspec
    rwa [hspec.2] at hdue

theorem keeps_decrease :
    Deadline.Keeps (apply (F := F)) stepOf Step.decreases
      (fun c step => step.kind ≠ .severe → c.nextDecreaseMs < step.nowMs)
      (fun step step' => step'.kind ≠ .severe →
        saturatingAdd step.nowMs (holdOffMs step.kind) < step'.nowMs) where
  idle c op hidle step hdue := by
    cases hemit : c.stepOf op with
    | none => rwa [(apply_of_none hemit).2] at hdue
    | some made =>
      have hspec := (stepOf_spec hemit).2.1
      rw [if_neg (by simp [hidle made hemit])] at hspec
      rwa [hspec] at hdue
  fires c op step hstep hdecreases := by
    have hspec := (stepOf_spec hstep).2.1
    rw [if_pos hdecreases] at hspec
    exact hspec.1
  sets c op step hstep hdecreases step' hdue := by
    have hspec := (stepOf_spec hstep).2.1
    rw [if_pos hdecreases] at hspec
    rwa [hspec.2] at hdue

/-- In every run without a reset: increases are more than 500 ms apart, a heavy or light
decrease comes after the hold-off of the decrease before it, every step has its exact size, and
any next operation moves the target by its step or, without one, as it says itself. -/
theorem steps_rate_limited (c : AbrController F) (ops : List Op) :
    ((c.steps ops).filter Step.increases).IsChain
        (fun step step' => saturatingAdd step.nowMs 500 < step'.nowMs) ∧
      ((c.steps ops).filter Step.decreases).IsChain
        (fun step step' => step'.kind ≠ .severe →
          saturatingAdd step.nowMs (holdOffMs step.kind) < step'.nowMs) ∧
      (∀ step ∈ c.steps ops, step.Exact) ∧
      ∀ op, ((ops.foldl apply c).apply op).internalBitrateBps =
        (((ops.foldl apply c).stepOf op).map (·.after)).getD ((ops.foldl apply c).targetOf op) :=
  ⟨keeps_increase.isChain ops c, keeps_decrease.isChain ops c,
    Deadline.forall_mem_events (fun _ _ _ h => (stepOf_spec h).2.2) ops c,
    apply_internal (ops.foldl apply c)⟩

end AbrController
end Srtla.Abr
