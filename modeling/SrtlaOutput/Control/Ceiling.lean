import SrtlaOutput.Control.Limits
import SrtlaOutput.Control.Phases

/-! A lowered maximum and the encoder. A target that the engine computes after the call
respects the new maximum; one that the worker still holds from before the call need not. -/

namespace Srtla
open Abr Schedule
variable {F A : Type}

def AbrWorker.target : AbrWorker → Option Nat
  | .writing appliedBps => some appliedBps
  | _ => none

namespace OutputState

def HoldsAtMost (d : OutputState F A) (maximum : Int) : Prop :=
  ∀ appliedBps ∈ d.abrWorker.bind (·.target), targetKbps appliedBps ≤ maximum

structure Capped (d : OutputState F A) : Prop where
  auto : d.autoBitrate = true
  encoder : ∃ kbps ∈ d.bitrate, kbps ≤ d.maxBitrateKbps
  worker : d.HoldsAtMost d.maxBitrateKbps

theorem Capped.congr {d d' : OutputState F A} (h : d.Capped)
    (hauto : d'.autoBitrate = d.autoBitrate) (hencoder : d'.bitrate = d.bitrate)
    (hmax : d'.maxBitrateKbps = d.maxBitrateKbps)
    (hworker : d'.HoldsAtMost d.maxBitrateKbps) : d'.Capped := by
  obtain ⟨kbps, hkbps, hle⟩ := h.encoder
  exact ⟨hauto.trans h.auto, ⟨kbps, hencoder ▸ hkbps, hmax ▸ hle⟩, hmax ▸ hworker⟩

theorem HoldsAtMost.of_idle {d : OutputState F A} {worker : AbrWorker}
    (h : d.abrWorker = some worker) (hidle : worker.target = none) (maximum : Int) :
    d.HoldsAtMost maximum := by
  intro appliedBps htarget
  rw [h, Option.bind_some, hidle] at htarget
  cases htarget

theorem cappedKbps_le (kbps maximum : Int) : cappedKbps kbps maximum ≤ maximum := min_le_right _ _

structure Lowered (d d' : OutputState F A) (maximum : Int) : Prop where
  auto : d'.autoBitrate = true
  dynBitrate : d'.dynBitrate = true
  maxBitrateKbps : d'.maxBitrateKbps = maximum
  abrWorker : d'.abrWorker = d.abrWorker
  encoder : ∃ kbps ∈ d'.bitrate, kbps ≤ maximum

theorem setMaxBitrate_lowered {d : OutputState F A} (hrunning : d.running = true)
    (hauto : d.autoBitrate = true) {maxBitrateKbps : Int}
    (hcode : (d.setMaxBitrate maxBitrateKbps).2 = 0) :
    Lowered d (d.setMaxBitrate maxBitrateKbps).1 (d.effectiveMaximum maxBitrateKbps) := by
  rcases d.setMaxBitrate_cases maxBitrateKbps with
    ⟨code, heq, hfails⟩ | ⟨engine, -, hmode, -⟩ | ⟨engine, kbps, bps, -, -, hdyn, hkbps, heq⟩
  · rw [heq] at hcode
    exact absurd hcode hfails
  · rw [hrunning, hauto] at hmode
    cases hmode
  · let raised := { d with maxBitrateKbps := d.effectiveMaximum maxBitrateKbps }
    let active := cappedKbps kbps (d.effectiveMaximum maxBitrateKbps)
    have hkbps' : raised.bitrate = some kbps := hkbps
    obtain ⟨_, hchange, hbitrate⟩ := changeBitrate_of_some hkbps' active
    have hdyn' := (changeBitrate_dynBitrate raised active).trans hdyn
    rw [hchange] at hdyn'
    rw [heq]
    show Lowered d { raised.changeBitrate active with engine := _ } _
    rw [hchange]
    exact ⟨hauto, hdyn', rfl, rfl, active, hbitrate, cappedKbps_le kbps _⟩

theorem setMaxBitrate_capped {d : OutputState F A} (hrunning : d.running = true)
    (hauto : d.autoBitrate = true) {maxBitrateKbps : Int}
    (hworker : d.HoldsAtMost (d.effectiveMaximum maxBitrateKbps))
    (hcode : (d.setMaxBitrate maxBitrateKbps).2 = 0) :
    (d.setMaxBitrate maxBitrateKbps).1.Capped := by
  have hlowered := setMaxBitrate_lowered hrunning hauto hcode
  refine ⟨hlowered.auto, ?_, ?_⟩
  · rw [hlowered.maxBitrateKbps]
    exact hlowered.encoder
  · rw [HoldsAtMost, hlowered.maxBitrateKbps, hlowered.abrWorker]
    exact hworker

theorem writeTarget_lands {d : OutputState F A} (hauto : d.autoBitrate = true)
    (hdyn : d.dynBitrate = true) {kbps : Int} (hkbps : d.bitrate = some kbps) {appliedBps : Nat}
    (hpos : 0 < targetKbps appliedBps) :
    (d.writeTarget appliedBps).bitrate = some (targetKbps appliedBps) ∧
      (d.writeTarget appliedBps).maxBitrateKbps = d.maxBitrateKbps := by
  obtain ⟨_, hchange, hbitrate⟩ := changeBitrate_of_some hkbps (targetKbps appliedBps)
  have hwrite : d.writeTarget appliedBps = d.changeBitrate (targetKbps appliedBps) := by
    rw [writeTarget, hauto, hdyn, Bool.true_and, Bool.true_and, if_pos (decide_eq_true hpos)]
  rw [hwrite, hchange]
  exact ⟨hbitrate, rfl⟩

theorem writeTarget_capped {d : OutputState F A} (h : d.Capped) {appliedBps : Nat}
    (hworker : d.abrWorker = some (.writing appliedBps)) :
    { d.writeTarget appliedBps with abrWorker := some .top }.Capped := by
  have htarget : targetKbps appliedBps ≤ d.maxBitrateKbps := h.worker appliedBps (by rw [hworker]; rfl)
  have hidle (d' : OutputState F A) : { d' with abrWorker := some .top }.HoldsAtMost
      d'.maxBitrateKbps := .of_idle rfl rfl _
  unfold writeTarget
  split_ifs
  · obtain ⟨kbps, hkbps, -⟩ := h.encoder
    obtain ⟨_, hchange, hbitrate⟩ := changeBitrate_of_some hkbps (targetKbps appliedBps)
    rw [hchange]
    exact ⟨h.auto, ⟨_, hbitrate, htarget⟩, hidle _⟩
  · exact h.congr rfl rfl rfl (hidle d)

variable [F64 F] [IpAddr A]

theorem stepAbrWorker_capped {d d' : OutputState F A} (hlimits : d.Limits) (h : d.Capped)
    {worker : AbrWorker} (hworker : d.abrWorker = some worker) {nowMs : Nat}
    {sampled : Option SrtlaSrtStats} (hstep : d.stepAbrWorker nowMs sampled worker = some d') :
    d'.Capped := by
  cases worker with
  | sampling =>
    obtain rfl := Option.some.inj hstep
    have hidle : ({ d.updateSrtStats sampled with abrWorker := some .testing } :
        OutputState F A).HoldsAtMost d.maxBitrateKbps := .of_idle rfl rfl _
    cases sampled with
    | none => exact h.congr rfl rfl rfl hidle
    | some stats => exact h.congr rfl rfl rfl hidle
  | deciding =>
    obtain rfl := Option.some.inj hstep
    rcases d.decideTarget_cases nowMs with ⟨-, heq⟩ | ⟨engine, hengine, heq⟩
    · rw [heq]
      exact h.congr rfl rfl rfl (.of_idle rfl rfl _)
    · have htarget := (hlimits.engine engine hengine).targetKbps_le hlimits.max_le nowMs
      rw [heq]
      refine h.congr rfl rfl rfl ?_
      intro appliedBps happlied
      dsimp only [Option.bind_some] at happlied
      split_ifs at happlied
      · cases happlied
      · obtain rfl := Option.some.inj happlied
        exact htarget
  | writing appliedBps =>
    obtain rfl := Option.some.inj hstep
    exact writeTarget_capped h hworker
  | returned => cases hstep
  | top | awake | polling | testing =>
    obtain rfl := Option.some.inj hstep
    refine h.congr rfl rfl rfl (.of_idle rfl ?_ _)
    split_ifs <;> rfl

end OutputState

namespace OutputSystem

/-- While the output runs in automatic mode: at a call that sets the maximum, the worker does
not hold a target above it. -/
def CeilingMet (s : OutputSystem F A) : OutputStep F A → Prop
  | .setMaxBitrate maxBitrateKbps => s.out.HoldsAtMost (s.out.effectiveMaximum maxBitrateKbps)
  | .setBitrateControl automatic _ => automatic = true
  | .start _ => False
  | _ => True

variable [F64 F] [IpAddr A]

theorem next_capped {s t : OutputSystem F A} {l : OutputStep F A} (horderly : s.Orderly)
    (hlimits : s.out.Limits) (hcapped : s.out.running = true → s.out.Capped)
    (hok : s.CeilingMet l) (hnext : s.next l = some t) : t.out.running = true → t.out.Capped := by
  intro hrunning
  cases l with
  | update settings config credentialError => exact absurd hrunning (update_idle horderly hnext)
  | start outcomes => exact hok.elim
  | stop => exact absurd hrunning (stop_idle horderly hnext)
  | setBitrateControl automatic manual =>
    obtain rfl := Option.some.inj hnext
    have hauto : automatic = true := hok
    have hkept := hcapped ((s.out.setBitrateControl_keeps automatic manual).running ▸ hrunning)
    show (s.out.setBitrateControl automatic manual).1.Capped
    rcases s.out.setBitrateControl_cases automatic manual with
      ⟨code, heq, -⟩ | ⟨engine, bps, -, -, -, heq⟩
    · rw [heq]
      exact hkept
    · rw [heq, hauto]
      exact hkept.congr hkept.auto.symm rfl rfl hkept.worker
  | setMaxBitrate maxBitrateKbps =>
    obtain rfl := Option.some.inj hnext
    have hrun : s.out.running = true := (s.out.setMaxBitrate_keeps maxBitrateKbps).running ▸ hrunning
    have hkept := hcapped hrun
    by_cases hcode : (s.out.setMaxBitrate maxBitrateKbps).2 = 0
    · exact OutputState.setMaxBitrate_capped hrun hkept.auto hok hcode
    · show (s.out.setMaxBitrate maxBitrateKbps).1.Capped
      rcases s.out.setMaxBitrate_cases maxBitrateKbps with
        ⟨code, heq, -⟩ | ⟨engine, -, -, heq⟩ | ⟨engine, kbps, bps, -, -, -, -, heq⟩
      · rw [heq]
        exact hkept
      · exact absurd (by rw [heq]) hcode
      · exact absurd (by rw [heq]) hcode
  | external call =>
    obtain ⟨-, rfl⟩ := next_external hnext
    have hkept := hcapped hrunning
    exact hkept.congr rfl rfl rfl hkept.worker
  | abrWorker nowMs sampled =>
    obtain ⟨worker, out, hworker, hstep, rfl⟩ := next_abrWorker hnext
    have hrun := (OutputState.stepAbrWorker_keeps hworker hstep).running
    exact OutputState.stepAbrWorker_capped hlimits (hcapped (hrun ▸ hrunning)) hworker hstep

/-- From a call that sets the maximum of an output that runs in automatic mode, the encoder
stays under the maximum for as long as the output runs and no call leaves automatic mode, if
at every call that sets the maximum the worker holds no target above it. -/
theorem lowered_ceiling_kept {settings : Option OutputSettings} {config : Option EngineConfig}
    {videoEncoder : Option VideoEncoder} {audioEncoder : Option AudioEncoder}
    {credentialError : Bool} {before : List (OutputStep F A)} {s : OutputSystem F A}
    (hreach : Run next (fun _ _ => True)
      (created settings config videoEncoder audioEncoder credentialError) before s)
    (hrunning : s.out.running = true) (hauto : s.out.autoBitrate = true) {maxBitrateKbps : Int}
    (hcode : (s.out.setMaxBitrate maxBitrateKbps).2 = 0) {after : List (OutputStep F A)}
    {u : OutputSystem F A} (hrun : Run next CeilingMet s (.setMaxBitrate maxBitrateKbps :: after) u)
    (hstill : u.out.running = true) : ∃ kbps ∈ u.out.bitrate, kbps ≤ u.out.maxBitrateKbps := by
  have horderly := reached_orderly hreach
  have hlimits := reached_limits hreach
  cases hrun with
  | cons hok hnext rest =>
    have horderly' := next_orderly horderly hnext
    have hlimits' := next_limits hlimits hnext
    obtain rfl := Option.some.inj hnext
    have hcapped := OutputState.setMaxBitrate_capped hrunning hauto hok hcode
    have hinv := rest.invariant
      (I := fun s : OutputSystem F A =>
        s.Orderly ∧ s.out.Limits ∧ (s.out.running = true → s.out.Capped))
      (fun s l t ⟨h1, h2, h3⟩ hok hnext =>
        ⟨next_orderly h1 hnext, next_limits h2 hnext, next_capped h1 h2 h3 hok hnext⟩)
      ⟨horderly', hlimits', fun _ => hcapped⟩
    exact (hinv.2.2 hstill).encoder

/-- The condition is exact: a target above the maximum that the worker holds lands in the
encoder with the worker's next step. -/
theorem stale_target_lands {s : OutputSystem F A} (hrunning : s.out.running = true)
    (hauto : s.out.autoBitrate = true) {maxBitrateKbps : Int}
    (hcode : (s.out.setMaxBitrate maxBitrateKbps).2 = 0) {appliedBps : Nat}
    (hworker : s.out.abrWorker = some (.writing appliedBps))
    (hstale : s.out.effectiveMaximum maxBitrateKbps < targetKbps appliedBps) (nowMs : Nat) :
    ∃ u, exec next s [.setMaxBitrate maxBitrateKbps, .abrWorker nowMs none] = some u ∧
      u.out.bitrate = some (targetKbps appliedBps) ∧
      u.out.maxBitrateKbps < targetKbps appliedBps := by
  have hlowered := OutputState.setMaxBitrate_lowered hrunning hauto hcode
  obtain ⟨kbps, hkbps, -⟩ := hlowered.encoder
  have hpos := s.out.effectiveMaximum_pos maxBitrateKbps
  obtain ⟨hbitrate, hmax⟩ :=
    OutputState.writeTarget_lands hlowered.auto hlowered.dynBitrate hkbps (hpos.trans hstale)
  refine ⟨⟨{ (s.out.setMaxBitrate maxBitrateKbps).1.writeTarget appliedBps with
    abrWorker := some .top }, s.phase⟩, ?_, hbitrate, ?_⟩
  · -- the worker finds the state that the call leaves
    let t : OutputSystem F A := { s with out := (s.out.setMaxBitrate maxBitrateKbps).1 }
    show ((t.out.abrWorker.bind (t.out.stepAbrWorker nowMs none)).map fun out =>
      { t with out }).bind (fun u => exec next u []) = _
    rw [hlowered.abrWorker, hworker]
    rfl
  · show ((s.out.setMaxBitrate maxBitrateKbps).1.writeTarget appliedBps).maxBitrateKbps < _
    rw [hmax, hlowered.maxBitrateKbps]
    exact hstale

def lan : EngineConfig where
  links := [{ id := 1, label := "lan", address := "10.0.0.1" }]

def onLan : OutputSystem ℚ Ipv4 :=
  created none (some lan) (some (OutputState.h264 2500)) none false

def lanUp : RunnerStats ℚ Ipv4 where
  links :=
    [{ ip := (Ipv4.parse "10.0.0.1").get (by decide)
       connected := true
       adminEnabled := true
       qualityMultiplier := 1 }]

def goLive : List (OutputStep ℚ Ipv4) :=
  [.start { OutputState.noMuxer with muxerCreated := true },
    .external (.runner (.publish (some lanUp)))]

def workerDecides : List (OutputStep ℚ Ipv4) := List.replicate 6 (.abrWorker 0 none)

def live : OutputSystem ℚ Ipv4 :=
  (exec (guard next fun _ _ => True) onLan goLive).get (by decide +kernel)

/-- The worker computes 6000 kb/s, the maximum becomes 2000, and the worker writes. -/
theorem ceiling_overrun :
    let s := (exec next onLan (goLive ++ workerDecides)).get (by decide +kernel)
    (s.out.running = true ∧ s.out.autoBitrate = true ∧ (s.out.setMaxBitrate 2000).2 = 0) ∧
      (exec next s [.setMaxBitrate 2000, .abrWorker 0 none]).map (fun u =>
        (u.out.running, u.out.autoBitrate, u.out.maxBitrateKbps, u.out.bitrate)) =
          some (true, true, 2000, some 6000) := by
  decide +kernel

instance (d : OutputState F A) (maximum : Int) : Decidable (d.HoldsAtMost maximum) :=
  inferInstanceAs (Decidable (∀ appliedBps ∈ d.abrWorker.bind (·.target), _ ≤ maximum))

instance (s : OutputSystem F A) (l : OutputStep F A) : Decidable (s.CeilingMet l) :=
  match l with
  | .setMaxBitrate _ => inferInstanceAs (Decidable (s.out.HoldsAtMost _))
  | .setBitrateControl automatic _ => inferInstanceAs (Decidable (automatic = true))
  | .start _ => instDecidableFalse
  | .update _ _ _ | .stop | .external _ | .abrWorker _ _ => instDecidableTrue

def turnUnderCap : List (OutputStep ℚ Ipv4) :=
  .setMaxBitrate 2000 :: List.replicate 7 (.abrWorker 0 none)

def underCap : OutputSystem ℚ Ipv4 :=
  (exec (guard next CeilingMet) live turnUnderCap).get (by decide +kernel)

theorem lowered_ceiling_kept_turn :
    ∃ kbps ∈ underCap.out.bitrate, kbps ≤ underCap.out.maxBitrateKbps := by
  have hreach : Run next (fun _ _ => True) onLan goLive live :=
    .of_exec (Option.some_get _).symm
  have hrun : Run next CeilingMet live turnUnderCap underCap := .of_exec (Option.some_get _).symm
  exact lowered_ceiling_kept hreach (by decide +kernel) (by decide +kernel) (by decide +kernel) hrun
    (by decide +kernel)

end OutputSystem
end Srtla
