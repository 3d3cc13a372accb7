import SrtlaOutput.Bond.Gates
import SrtlaOutput.Bond.Bounds

/-! The link that a datagram goes to: one that the operator has enabled and the gates let pass. By
capacity alone it is the first of the largest score. -/

namespace Srtla.Bond
open Uplink Wire
variable {F A : Type}

section Candidate
variable [F64Exp F]

theorem enhancedScore_candidate (c : Connection F A) (nowMs : ℕ) (anyUnconstrained quality : Bool) :
    candidate (enhancedScore c nowMs anyUnconstrained quality).1 nowMs = candidate c nowMs := by
  rw [enhancedScore]
  dsimp only
  split
  · rfl
  · rw [Connection.getCachedQualityMultiplier]
    dsimp only
    split <;> rfl

theorem selectEnhanced_candidate {conns : List (Connection F A)} {lastIdx : Option ℕ} {nowMs i : ℕ}
    {quality : Bool} (h : (selectEnhanced conns lastIdx nowMs quality).2 = some i) :
    ∃ c, (selectEnhanced conns lastIdx nowMs quality).1[i]? = some c ∧ candidate c nowMs = true := by
  set score := fun c : Connection F A =>
    if ranked c nowMs (conns.any (unconstrained · nowMs)) then
      some (enhancedScore c nowMs (conns.any (unconstrained · nowMs)) quality).2
    else none
  have hranked : ∀ {c : Connection F A}, (score c).isSome →
      ranked c nowMs (conns.any (unconstrained · nowMs)) = true := by
    intro c hc
    by_contra hnot
    have hnone : score c = none := if_neg hnot
    rw [hnone] at hc
    exact Bool.false_ne_true hc
  have hfound : ∀ {j : ℕ}, (∃ c, (gateQuality conns nowMs)[j]? = some c ∧ (score c).isSome) →
      ∃ c, (selectEnhanced conns lastIdx nowMs quality).1[j]? = some c ∧ candidate c nowMs = true := by
    rintro j ⟨c, hc, hscore⟩
    refine ⟨(enhancedScore c nowMs (conns.any (unconstrained · nowMs)) quality).1, ?_, ?_⟩
    · rw [selectEnhanced, List.getElem?_map, hc]
      exact congrArg some (if_pos (hranked hscore))
    · rw [enhancedScore_candidate]
      have hcandidate := hranked hscore
      rw [ranked, Bool.and_assoc] at hcandidate
      exact (Bool.and_eq_true_iff.mp hcandidate).1
  rw [selectEnhanced] at h
  dsimp only at h
  split at h
  next hstay =>
    obtain ⟨s, hs, -⟩ := (Option.any_eq_true _ _).mp hstay.2
    rw [h, Option.bind_some] at hs
    obtain ⟨c, hc, hscore⟩ := Option.bind_eq_some_iff.mp hs
    exact hfound ⟨c, hc, Option.isSome_iff_exists.mpr ⟨s, hscore⟩⟩
  next =>
    rcases Scan.bestFrom_eq_some h with hnone | ⟨k, c, hc, hk, hscore⟩
    · exact absurd hnone.symm (Option.some_ne_none i)
    · rw [Nat.zero_add] at hk
      exact hfound ⟨c, hk ▸ hc, hscore⟩

theorem selectClassic_candidate {conns : List (Connection F A)} {nowMs i : ℕ}
    (h : selectClassic conns nowMs = some i) :
    ∃ c, conns[i]? = some c ∧ candidate c nowMs = true := by
  rcases Scan.bestFrom_eq_some h with hnone | ⟨k, c, hc, hk, hscore⟩
  · exact absurd hnone.symm (Option.some_ne_none i)
  · rw [Nat.zero_add] at hk
    refine ⟨c, hk ▸ hc, ?_⟩
    by_contra hnot
    rw [candidate] at hnot
    rw [if_neg hnot] at hscore
    exact Bool.false_ne_true hscore

theorem selectConnectionIdx_candidate {conns : List (Connection F A)} {lastIdx : Option ℕ}
    {nowMs i : ℕ} {config : ConfigSnapshot}
    (h : (selectConnectionIdx conns lastIdx nowMs config).2 = some i) :
    ∃ c, (selectConnectionIdx conns lastIdx nowMs config).1[i]? = some c ∧
      candidate c nowMs = true := by
  rw [selectConnectionIdx] at h ⊢
  cases hmode : config.mode with
  | classic =>
    rw [hmode] at h
    exact selectClassic_candidate h
  | enhanced =>
    rw [hmode] at h
    exact selectEnhanced_candidate h

end Candidate

/-! The choice by capacity in a run. -/

section Classic
variable [F64Exp F] [DecidableEq A]

theorem step_config (b : State F A) (e : Event A) :
    ∃ latency, (b.step e).1.config = { b.config with negotiatedLatencyMs := latency } := by
  cases e with
  | datagram pkt now refused =>
    refine ⟨b.config.negotiatedLatencyMs, ?_⟩
    rw [State.step, State.handleSrtDatagram]
    split
    · rfl
    · dsimp only
      split <;> split <;> rfl
  | packet connId data now =>
    have hevents : ∀ (b : State F A) (idx : ℕ) (incoming : SrtlaIncoming),
        (b.processConnectionEvents idx incoming now).config = b.config := fun _ _ _ => rfl
    rw [State.step, State.handleUplinkPacket]
    split
    · exact ⟨_, rfl⟩
    · split
      · exact ⟨_, rfl⟩
      · split
        · exact ⟨_, rfl⟩
        · dsimp only
          rw [hevents]
          dsimp only
          split <;> exact ⟨_, rfl⟩
  | control message opened now =>
    refine ⟨b.config.negotiatedLatencyMs, ?_⟩
    have hjoin : ∀ (b : State F A) (oldIps : List A) (isNew : Connection F A → Bool),
        (b.joinLinks oldIps isNew now).1.config = b.config := by
      intro b oldIps isNew
      rw [State.joinLinks]
      split <;> rfl
    cases message with
    | setLink id enabled =>
      rw [State.step, State.handleControl, State.setLink]
      split
      · rfl
      · split
        · rfl
        · exact hjoin _ _ _
    | updateLinks new => exact hjoin _ _ _
  | tick opened now input =>
    refine ⟨b.config.negotiatedLatencyMs, ?_⟩
    have hwatch : ∀ b : State F A, (watchFailures b now input).1.config = b.config := by
      intro b
      rw [watchFailures]
      split
      · rfl
      · dsimp only
        split
        · split <;> rfl
        · rfl
    rw [State.step]
    unfold State.tick State.work State.judge
    dsimp only
    rw [handleHousekeeping, hwatch]
    dsimp only
    split
    · split <;> rfl
    · rfl
  | flush now refused => exact ⟨_, rfl⟩

theorem run_config (s : Setup A) (es : List (Event A)) :
    ∃ latency, (run s es : State F A).config =
      { mode := s.mode, negotiatedLatencyMs := latency } := by
  have hstart : (s.start : State F A).config = { mode := s.mode } := by
    rw [Setup.start, State.start]
    split <;> rfl
  refine Reactive.exec_invariant (I := fun b : State F A => ∃ latency, b.config =
    { mode := s.mode, negotiatedLatencyMs := latency }) (fun b e h => ?_) ⟨_, hstart⟩ es
  obtain ⟨latency, h⟩ := h
  obtain ⟨latency', hstep⟩ := step_config b e
  exact ⟨latency', hstep.trans (by rw [h])⟩

omit [DecidableEq A] in
theorem getScore_floor {c : Connection F A} (h : Bounded c.link) :
    -1 < c.getScore ↔ c.connected = true := by
  have hwindow : 0 ≤ c.window := le_trans (by decide) h.window.1
  rw [Connection.getScore]
  cases hconnected : c.connected with
  | false => simp
  | true =>
    have hscore := Int.tdiv_nonneg hwindow (le_trans (by decide : (0 : ℤ) ≤ 1)
      (le_max_right (min (min (c.inFlightPackets + c.batchSender.queuedCount) i32Max + 1) i32Max) 1))
    refine iff_of_true ?_ rfl
    exact lt_of_lt_of_le (by decide) hscore

/-- In every run by capacity alone, the choice is the first of the connected links with the largest
score among those that pass the gates, and there is none only if none of these is connected. -/
theorem classic_choice (s : Setup A) (hmode : s.mode = .classic) (es : List (Event A))
    (lastIdx : Option ℕ) (nowMs : ℕ) :
    let b : State F A := run s es
    let gated := applyStallGate b.connections nowMs b.config
    let choice := (selectConnectionIdx b.connections lastIdx nowMs b.config).2
    (∀ i, choice = some i ↔ ∃ c, gated[i]? = some c ∧ candidate c nowMs = true ∧
      c.connected = true ∧ ∀ j d, gated[j]? = some d → candidate d nowMs = true →
        d.getScore ≤ c.getScore ∧ (j < i → d.getScore < c.getScore)) ∧
    (choice = none ↔ ∀ c ∈ gated, candidate c nowMs = true → c.connected = false) := by
  intro b gated choice
  have hbounded : ∀ c ∈ gated, Bounded c.link := by
    intro c hc
    have hlinks : c.link ∈ links b.connections := by
      rw [← links_applyStallGate b.connections nowMs b.config]
      exact List.mem_map_of_mem hc
    obtain ⟨c', hc', heq⟩ := List.mem_map.mp hlinks
    rw [← heq]
    exact run_bounded s es c' hc'
  set score := fun c : Connection F A =>
    if usable c nowMs && !c.stallGated then some c.getScore else none
  have hscore : ∀ {c : Connection F A} {z : ℤ},
      score c = some z ↔ candidate c nowMs = true ∧ c.getScore = z := by
    intro c z
    rw [candidate]
    exact Option.ite_none_right_eq_some.trans (and_congr_right fun _ => Option.some_inj)
  have hchoice : choice = Scan.best score (-1) gated := by
    have hclassic : b.config.mode = .classic := by
      obtain ⟨latency, hconfig⟩ := run_config (F := F) s es
      exact (congrArg ConfigSnapshot.mode hconfig).trans hmode
    have hmapped : choice = selectClassic (gated.map (·.clearQualityGateState)) nowMs := by
      have hselect : choice = (selectConnectionIdx b.connections lastIdx nowMs b.config).2 := rfl
      rw [hselect, selectConnectionIdx, hclassic]
    rw [hmapped, selectClassic, Scan.best, Scan.bestFrom_map]
    rfl
  have hfloor : ∀ {i : ℕ} {c : Connection F A}, gated[i]? = some c →
      (-1 < c.getScore ↔ c.connected = true) := fun hc =>
    getScore_floor (hbounded _ (List.mem_of_getElem? hc))
  constructor
  · intro i
    rw [hchoice, Scan.best_eq_some_iff]
    constructor
    · rintro ⟨z, hz, ⟨c, hc, hcz⟩, hmax⟩
      obtain ⟨hcandidate, rfl⟩ := hscore.mp hcz
      refine ⟨c, hc, hcandidate, (hfloor hc).mp hz, fun j d hd hcandidate' => ?_⟩
      exact hmax j d d.getScore hd (hscore.mpr ⟨hcandidate', rfl⟩)
    · rintro ⟨c, hc, hcandidate, hconnected, hmax⟩
      refine ⟨c.getScore, (hfloor hc).mpr hconnected, ⟨c, hc, hscore.mpr ⟨hcandidate, rfl⟩⟩, ?_⟩
      intro j d z hd hdz
      obtain ⟨hcandidate', rfl⟩ := hscore.mp hdz
      exact hmax j d hd hcandidate'
  · rw [hchoice, Scan.best_eq_none_iff]
    have hone : ∀ c ∈ gated, (∀ z, score c = some z → z ≤ -1) ↔
        (candidate c nowMs = true → c.connected = false) := by
      intro c hc
      obtain ⟨i, hi⟩ := List.mem_iff_getElem?.mp hc
      constructor
      · intro h hcandidate
        have hle := h c.getScore (hscore.mpr ⟨hcandidate, rfl⟩)
        exact Bool.eq_false_of_not_eq_true fun hconnected =>
          absurd ((hfloor hi).mpr hconnected) (not_lt.mpr hle)
      · intro h z hz
        obtain ⟨hcandidate, rfl⟩ := hscore.mp hz
        refine not_lt.mp fun hlt => ?_
        exact absurd ((hfloor hi).mp hlt) (by rw [h hcandidate]; exact Bool.false_ne_true)
    exact forall₂_congr hone

end Classic

def twoUplinks : Setup Ipv4 :=
  { oneLink with
    configured := [⟨1, "cellular", wan, true⟩, ⟨2, "wifi", wifi, true⟩]
    opened := fun i => if i = 0 then some 7 else if i = 1 then some 8 else none }

def registeredEvents : List (Event Ipv4) :=
  let tick := fun now => .tick (fun _ => none) now ⟨fun _ => true, none, fun _ => true, fun _ => none⟩
  [.packet 7 (be16Bytes srtlaTypeRegNgp) 2, .packet 8 (be16Bytes srtlaTypeRegNgp) 3, tick 1003,
    .packet 7 (createReg2Packet twoUplinks.id) 2004, tick 3004,
    .packet 7 (be16Bytes srtlaTypeReg3) 3005, .packet 8 (be16Bytes srtlaTypeReg3) 3006,
    .datagram [0, 0, 0, 1, 1, 2, 3, 4] 3010 fun _ => none, .flush 3011 fun _ => none]

/-- The next packet goes to the second uplink, which has the larger score. -/
theorem classic_choice_two_uplinks :
    let b : State ℚ Ipv4 := run twoUplinks registeredEvents
    b.connections.map (fun c => (c.connected, c.getScore)) = [(true, 10000), (true, 20000)] ∧
      (selectConnectionIdx b.connections none 3020 b.config).2 = some 1 := by
  intro b
  have hgated : (applyStallGate b.connections 3020 b.config).map
      (fun c => (candidate c 3020, c.connected, c.getScore)) =
        [(true, true, 10000), (true, true, 20000)] := by decide +kernel
  have hscores : ∀ {j : ℕ} {c : Connection ℚ Ipv4},
      (applyStallGate b.connections 3020 b.config)[j]? = some c →
        j = 0 ∧ c.getScore = 10000 ∨
          j = 1 ∧ candidate c 3020 = true ∧ c.connected = true ∧ c.getScore = 20000 := by
    intro j c hc
    have hface : [(true, true, (10000 : ℤ)), (true, true, 20000)][j]? =
        some (candidate c 3020, c.connected, c.getScore) := by
      rw [← hgated, List.getElem?_map, hc, Option.map_some]
    rcases j with _ | _ | j
    · exact .inl ⟨rfl, (congrArg (·.2.2) (Option.some_inj.mp hface)).symm⟩
    · have hface := Option.some_inj.mp hface
      exact .inr ⟨rfl, (congrArg (·.1) hface).symm, (congrArg (·.2.1) hface).symm,
        (congrArg (·.2.2) hface).symm⟩
    · cases hface
  have hsecond : ((applyStallGate b.connections 3020 b.config)[1]?).isSome = true := by
    decide +kernel
  obtain ⟨c, hc⟩ := Option.isSome_iff_exists.mp hsecond
  obtain ⟨hzero, -⟩ | ⟨-, hcandidate, hconnected, hscore⟩ := hscores hc
  · cases hzero
  have hchoice := (classic_choice (F := ℚ) twoUplinks rfl registeredEvents none 3020).1 1
  refine ⟨by decide +kernel, hchoice.mpr ⟨c, hc, hcandidate, hconnected, fun j d hd _ => ?_⟩⟩
  rw [hscore]
  obtain ⟨rfl, hscore'⟩ | ⟨rfl, -, -, hscore'⟩ := hscores hd
  · rw [hscore']
    decide
  · rw [hscore']
    decide

end Srtla.Bond
