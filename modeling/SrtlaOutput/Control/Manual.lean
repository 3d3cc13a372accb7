import SrtlaOutput.Control.Ceiling

/-! Manual mode. The encoder and the engine both get the bitrate of the call, and afterwards
only a decision that the worker was about to ask for can still change it in the engine. -/

namespace Srtla
open Abr Schedule
variable {F A : Type}

namespace OutputState

/-- Manual mode at `kbps`, in the encoder and in the engine, with no decision on its way. -/
structure Manual (d : OutputState F A) (kbps : Int) : Prop where
  auto : d.autoBitrate = false
  encoder : d.bitrate = some kbps
  engine : ∃ e ∈ d.engine, e.currentVideoBps = kbps.toNat * 1000
  worker : d.abrWorker ≠ some .deciding

theorem Manual.onEngine {d : OutputState F A} {kbps : Int} (h : d.Manual kbps)
    {f : Engine F A → Engine F A} (hf : ∀ e, (f e).currentVideoBps = e.currentVideoBps) :
    (d.onEngine f).Manual kbps := by
  obtain ⟨e, he, hcurrent⟩ := h.engine
  refine ⟨h.auto, h.encoder, ⟨f e, ?_, (hf e).trans hcurrent⟩, h.worker⟩
  exact congrArg (Option.map f) he

theorem Manual.withWorker {d : OutputState F A} {kbps : Int} (h : d.Manual kbps)
    {worker : AbrWorker} (hworker : worker ≠ .deciding) :
    { d with abrWorker := some worker }.Manual kbps :=
  ⟨h.auto, h.encoder, h.engine, fun heq => hworker (Option.some.inj heq)⟩

theorem setBitrateControl_manual {d : OutputState F A} (hrunning : d.running = true)
    (hworker : d.abrWorker ≠ some .deciding) {manual : Int}
    (hcode : (d.setBitrateControl false manual).2 = 0) :
    (d.setBitrateControl false manual).1.Manual (manualKbps manual) := by
  rcases d.setBitrateControl_cases false manual with
    ⟨code, heq, hfails⟩ | ⟨engine, bps, -, hsettings, hbps, heq⟩
  · rw [heq] at hcode
    exact absurd hcode hfails
  · obtain ⟨kbps, hkbps⟩ := Option.isSome_iff_exists.mp (hsettings hrunning)
    have hpos : 0 < manualKbps manual := clampInt_pos (by decide) (by decide) manual
    obtain ⟨_, hchange, hbitrate⟩ := changeBitrate_of_some hkbps (manualKbps manual)
    have hcurrent : (engine.setVideoBitrate bps).1.currentVideoBps =
        (manualKbps manual).toNat * 1000 := by
      show max bps 1 = _
      rw [hbps rfl]
      omega
    rw [heq, if_neg (by decide), hchange]
    exact ⟨rfl, hbitrate, ⟨_, rfl, hcurrent⟩, hworker⟩

theorem setMaxBitrate_manual {d : OutputState F A} {kbps : Int} (h : d.Manual kbps)
    (maxBitrateKbps : Int) : (d.setMaxBitrate maxBitrateKbps).1.Manual kbps := by
  rcases d.setMaxBitrate_cases maxBitrateKbps with
    ⟨code, heq, -⟩ | ⟨engine, hengine, -, heq⟩ | ⟨engine, _, bps, -, hmode, -⟩
  · rw [heq]
    exact h
  · obtain ⟨e, he, hcurrent⟩ := h.engine
    obtain rfl : engine = e := Option.some.inj (hengine.symm.trans he)
    have hkept : (engine.setMaxVideoBitrate
        ((d.effectiveMaximum maxBitrateKbps).toNat * 1000)).1.currentVideoBps =
          engine.currentVideoBps := by
      unfold Engine.setMaxVideoBitrate
      split_ifs <;> rfl
    rw [heq]
    exact ⟨h.auto, h.encoder, ⟨_, rfl, hkept.trans hcurrent⟩, h.worker⟩
  · rw [h.auto, Bool.and_false] at hmode
    cases hmode

variable [F64 F] [IpAddr A]

theorem stepAbrWorker_manual {d d' : OutputState F A} {kbps : Int} (h : d.Manual kbps)
    {worker : AbrWorker} (hworker : d.abrWorker = some worker) {nowMs : Nat}
    {sampled : Option SrtlaSrtStats} (hstep : d.stepAbrWorker nowMs sampled worker = some d') :
    d'.Manual kbps := by
  cases worker with
  | sampling =>
    obtain rfl := Option.some.inj hstep
    have hsampled : (d.updateSrtStats sampled).Manual kbps := by
      cases sampled with
      | none => exact h
      | some stats =>
        exact h.onEngine fun e => (e.updateSrtStats_sameControl (some stats)).currentVideoBps
    exact hsampled.withWorker (by simp)
  | testing =>
    -- the flag is off, so the worker turns back
    obtain rfl := Option.some.inj hstep
    refine h.withWorker ?_
    rw [h.auto]
    simp
  | deciding => exact absurd hworker h.worker
  | writing appliedBps =>
    -- and it is read again under the bitrate mutex
    obtain rfl := Option.some.inj hstep
    have hsame : d.writeTarget appliedBps = d := by
      rw [writeTarget, h.auto]
      rfl
    rw [hsame]
    exact h.withWorker (by simp)
  | returned => cases hstep
  | top | awake | polling =>
    obtain rfl := Option.some.inj hstep
    refine h.withWorker ?_
    split_ifs <;> simp

end OutputState

namespace OutputSystem

def NoModeCall : OutputStep F A → Prop
  | .setBitrateControl _ _ => False
  | .start _ => False
  | _ => True

variable [F64 F] [IpAddr A]

theorem next_manual {s t : OutputSystem F A} {l : OutputStep F A} {kbps : Int}
    (horderly : s.Orderly) (hmanual : s.out.running = true → s.out.Manual kbps)
    (hok : NoModeCall l) (hnext : s.next l = some t) :
    t.out.running = true → t.out.Manual kbps := by
  intro hrunning
  cases l with
  | update settings config credentialError => exact absurd hrunning (update_idle horderly hnext)
  | start outcomes => exact hok.elim
  | stop => exact absurd hrunning (stop_idle horderly hnext)
  | setBitrateControl automatic manual => exact hok.elim
  | setMaxBitrate maxBitrateKbps =>
    obtain rfl := Option.some.inj hnext
    have hrun := (s.out.setMaxBitrate_keeps maxBitrateKbps).running
    exact OutputState.setMaxBitrate_manual (hmanual (hrun ▸ hrunning)) maxBitrateKbps
  | external call =>
    obtain ⟨hcall, rfl⟩ := next_external hnext
    exact (hmanual hrunning).onEngine fun e =>
      (Engine.external_sameControl hcall e).currentVideoBps
  | abrWorker nowMs sampled =>
    obtain ⟨worker, out, hworker, hstep, rfl⟩ := next_abrWorker hnext
    have hrun := (OutputState.stepAbrWorker_keeps hworker hstep).running
    exact OutputState.stepAbrWorker_manual (hmanual (hrun ▸ hrunning)) hworker hstep

/-- Between a call for manual mode that finds the worker not about to ask the engine for a
decision, and the next such call, the encoder and the engine keep the bitrate of the call
for as long as the output runs. -/
theorem manual_bitrate_kept {settings : Option OutputSettings} {config : Option EngineConfig}
    {videoEncoder : Option VideoEncoder} {audioEncoder : Option AudioEncoder}
    {credentialError : Bool} {before : List (OutputStep F A)} {s : OutputSystem F A}
    (hreach : Run next (fun _ _ => True)
      (created settings config videoEncoder audioEncoder credentialError) before s)
    (hrunning : s.out.running = true) (hworker : s.out.abrWorker ≠ some .deciding) {manual : Int}
    (hcode : (s.out.setBitrateControl false manual).2 = 0) {after : List (OutputStep F A)}
    {u : OutputSystem F A}
    (hrun : Run next (fun _ l => NoModeCall l)
      { s with out := (s.out.setBitrateControl false manual).1 } after u)
    (hstill : u.out.running = true) :
    u.out.bitrate = some (OutputState.manualKbps manual) ∧
      ∃ e ∈ u.out.engine, e.currentVideoBps = (OutputState.manualKbps manual).toNat * 1000 := by
  have hmanual := OutputState.setBitrateControl_manual hrunning hworker hcode
  have horderly : Orderly { s with out := (s.out.setBitrateControl false manual).1 } :=
    (reached_orderly hreach).keeps (s.out.setBitrateControl_keeps false manual)
  have hinv := hrun.invariant
    (I := fun s : OutputSystem F A => s.Orderly ∧
      (s.out.running = true → s.out.Manual (OutputState.manualKbps manual)))
    (fun s l t ⟨h1, h2⟩ hok hnext => ⟨next_orderly h1 hnext, next_manual h1 h2 hok hnext⟩)
    ⟨horderly, fun _ => hmanual⟩
  exact ⟨(hinv.2 hstill).encoder, (hinv.2 hstill).engine⟩

/-- The worker tests the flag, the output goes to 8000 kb/s in manual mode, and the worker
asks the engine for its decision. -/
theorem manual_bitrate_overwritten :
    let s := (exec next onLan (goLive ++ List.replicate 5 (.abrWorker 0 none))).get
      (by decide +kernel)
    (s.out.running = true ∧ (s.out.setBitrateControl false 8000).2 = 0) ∧
      (exec next s [.setBitrateControl false 8000, .abrWorker 0 none]).map (fun u =>
        (u.out.running, u.out.bitrate, u.out.engine.map (·.currentVideoBps))) =
          some (true, some 8000, some 6000000) := by
  decide +kernel

instance (l : OutputStep F A) : Decidable (NoModeCall l) :=
  match l with
  | .setBitrateControl _ _ | .start _ => instDecidableFalse
  | .update _ _ _ | .stop | .setMaxBitrate _ | .external _ | .abrWorker _ _ => instDecidableTrue

def turnInManual : List (OutputStep ℚ Ipv4) :=
  .setMaxBitrate 2000 :: List.replicate 7 (.abrWorker 0 none)

def inManual : OutputSystem ℚ Ipv4 :=
  (exec (guard next fun _ l => NoModeCall l)
    { live with out := (live.out.setBitrateControl false 8000).1 } turnInManual).get
      (by decide +kernel)

theorem manual_bitrate_kept_turn :
    inManual.out.bitrate = some (OutputState.manualKbps 8000) ∧
      ∃ e ∈ inManual.out.engine,
        e.currentVideoBps = (OutputState.manualKbps 8000).toNat * 1000 := by
  have hreach : Run next (fun _ _ => True) onLan goLive live :=
    .of_exec (Option.some_get _).symm
  have hrun : Run next (fun _ l => NoModeCall l)
      { live with out := (live.out.setBitrateControl false 8000).1 } turnInManual inManual :=
    .of_exec (Option.some_get _).symm
  exact manual_bitrate_kept hreach (by decide +kernel) (by decide +kernel) (by decide +kernel) hrun
    (by decide +kernel)

end OutputSystem
end Srtla
