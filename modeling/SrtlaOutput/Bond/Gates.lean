import SrtlaOutput.Bond.Selection

/-! The gates of the selection. They may hold out any link, but never all that could carry. -/

namespace Srtla.Bond
open Uplink
variable {F A : Type}

/-- The link without what the gates remember of it. -/
def bare (c : Connection F A) : Connection F A :=
  { c with
    stallLatchedSinceMs := 0
    stallRecoverySinceMs := 0
    stallReleasedAtMs := 0
    stallRejoinBackoff := 0
    stallRejoinRampStartMs := 0
    stallRejoinRampMs := 0
    stallRejoinRampFromStallGate := false
    soleCarrier := false
    soleCarrierSinceMs := 0
    soleCarrierExcluded := false
    silencePulled := false
    qualityExcluded := false }

section Bare
variable [F64 F] (c : Connection F A) (nowMs : ℕ)

theorem candidate_bare : candidate (bare c) nowMs = candidate c nowMs := rfl

theorem armRejoinRamp_bare (rampMs : ℕ) (fromStallGate : Bool) :
    bare (c.armRejoinRamp nowMs rampMs fromStallGate) = bare c := by
  rw [Connection.armRejoinRamp]
  split <;> rfl

theorem updateSilencePull_bare (minInFlight : ℤ) (staleCeilingMs : ℕ) :
    bare (c.updateSilencePull nowMs minInFlight staleCeilingMs) = bare c := by
  rw [Connection.updateSilencePull]
  split
  · rfl
  · split
    · rfl
    · dsimp only
      split <;> rfl

theorem updateStallLatch_bare (minInFlight : ℤ) (staleCeilingMs : ℕ) :
    bare (c.updateStallLatch nowMs minInFlight staleCeilingMs) = bare c := by
  have hstart : bare (c.startRecovery nowMs) = bare c := by
    rw [Connection.startRecovery]
    split <;> rfl
  rw [Connection.updateStallLatch]
  split
  · rw [Connection.engageLatch]
    split <;> rfl
  · split
    · rfl
    · split
      · rfl
      · dsimp only
        split
        · rw [Connection.releaseLatch, armRejoinRamp_bare]
          exact hstart
        · exact hstart

omit [F64 F] in
theorem clearStallLatch_bare : bare c.clearStallLatch = bare c := by
  rw [Connection.clearStallLatch]
  split <;> rfl

theorem releaseSoleCarrier_bare : bare (releaseSoleCarrier c nowMs) = bare c := by
  rw [releaseSoleCarrier]
  split
  · exact armRejoinRamp_bare ..
  · rfl

theorem takeRole_bare (handover : Bool) : bare (takeRole c nowMs handover) = bare c := by
  rw [takeRole]
  split <;> split
  · exact armRejoinRamp_bare ..
  · exact armRejoinRamp_bare ..
  · rfl
  · rfl

end Bare

/-! The stall gate. -/

section Stall
variable [F64 F]

def tuned (c : Connection F A) (config : ConfigSnapshot) : Connection F A :=
  { c with connTimeoutMs := config.connTimeoutMs }

theorem usable_of_bare {c c' : Connection F A} (h : bare c' = bare c) (nowMs : ℕ) :
    usable c' nowMs = usable c nowMs := by
  have hbare : ∀ c : Connection F A, usable (bare c) nowMs = usable c nowMs := fun _ => rfl
  rw [← hbare, h, hbare]

theorem any_stallGate (conns : List (Connection F A)) (nowMs : ℕ) :
    (conns.map (stallGate · (conns.any (healthy · nowMs)))).any (candidate · nowMs) =
      conns.any (usable · nowMs) := by
  rw [List.any_map]
  cases hhealthy : conns.any (healthy · nowMs) with
  | false =>
    refine congrArg conns.any (funext fun c => ?_)
    exact Bool.and_true _
  | true =>
    obtain ⟨c, hc, hpasses⟩ := List.any_eq_true.mp hhealthy
    rw [healthy, Bool.and_assoc, Bool.and_eq_true, Bool.and_eq_true, Bool.not_eq_true',
      Bool.not_eq_true'] at hpasses
    obtain ⟨husable, hlatched, hpulled⟩ := hpasses
    have hcandidate : candidate (stallGate c true) nowMs = true := by
      have hgated : (stallGate c true).stallGated = false := by
        rw [stallGate, hlatched, hpulled]
        rfl
      rw [candidate, hgated]
      exact (Bool.and_true _).trans husable
    have hleft : conns.any ((candidate · nowMs) ∘ fun c => stallGate c true) = true :=
      List.any_eq_true.mpr ⟨c, hc, hcandidate⟩
    exact hleft.trans (List.any_eq_true.mpr ⟨c, hc, husable⟩).symm

theorem any_applyStallGate (conns : List (Connection F A)) (nowMs : ℕ) (config : ConfigSnapshot) :
    (applyStallGate conns nowMs config).any (candidate · nowMs) =
      conns.any fun c => usable (tuned c config) nowMs := by
  -- some link passes the stall gate as soon as some link could carry
  rw [applyStallGate]
  split
  · have hclear : ∀ c : Connection F A,
        candidate ({ c with stallGated := false, silencePulled := false }).clearStallLatch nowMs =
          usable c nowMs := by
      intro c
      rw [← candidate_bare, clearStallLatch_bare]
      exact Bool.and_true _
    rw [List.any_map, List.any_map]
    exact congrArg conns.any (funext fun c => hclear _)
  · have hupdate : ∀ c : Connection F A,
        usable ((c.updateSilencePull nowMs config.stallMinInFlight config.stallAckStaleMs).updateStallLatch
          nowMs config.stallMinInFlight config.stallAckStaleMs) nowMs = usable c nowMs := by
      intro c
      refine usable_of_bare ?_ nowMs
      rw [updateStallLatch_bare, updateSilencePull_bare]
    dsimp only
    rw [any_stallGate, List.any_map, List.any_map]
    exact congrArg conns.any (funext fun c => hupdate _)

end Stall

/-! The election and the exclusions. -/

section Quality
variable [F64 F]

theorem keepCarrier_candidate {conns : List (Connection F A)} {nowMs k : ℕ}
    (h : keepCarrier conns nowMs = some k) :
    ∃ c, conns[k]? = some c ∧ candidate c nowMs = true := by
  have hincumbent : ∀ {i}, incumbent conns nowMs = some i →
      ∃ c, conns[i]? = some c ∧ candidate c nowMs = true := by
    intro i hi
    obtain ⟨c, hc, hp⟩ := Scan.lastIdx_eq_some hi
    exact ⟨c, hc, (Bool.and_eq_true_iff.mp hp).1⟩
  have hbest : ∀ {i}, bestCarrier conns nowMs = some i →
      ∃ c, conns[i]? = some c ∧ candidate c nowMs = true := by
    intro i hi
    rcases Option.or_eq_some_iff.mp hi with hi | ⟨-, hi⟩
    all_goals
      obtain ⟨c, hc, hscore⟩ := Scan.first_eq_some hi
      refine ⟨c, hc, ?_⟩
      by_contra hcandidate
      rw [Bool.eq_false_of_not_eq_true hcandidate] at hscore
      exact absurd hscore Bool.false_ne_true
  rw [keepCarrier] at h
  split at h
  next inc b hinc hb =>
    split at h
    · exact hincumbent (hinc.trans h)
    · split at h
      · split at h <;> split at h
        · exact hbest (hb.trans h)
        · exact hincumbent (hinc.trans h)
        · exact hbest (hb.trans h)
        · exact hincumbent (hinc.trans h)
      · exact hincumbent (hinc.trans h)
  next inc hinc _ => exact hincumbent (hinc.trans h)
  next hinc => exact hbest h

theorem electSoleCarrier_bare (conns : List (Connection F A)) (nowMs : ℕ) (anyQualityOk : Bool) :
    (electSoleCarrier conns nowMs anyQualityOk).1.map bare = conns.map bare := by
  rw [electSoleCarrier]
  split
  · rw [List.map_map]
    exact List.map_congr_left fun c _ => releaseSoleCarrier_bare c nowMs
  · apply List.ext_getElem?
    intro i
    rw [List.getElem?_map, List.getElem?_map, List.getElem?_mapIdx, Option.map_map]
    refine Option.map_congr fun c _ => ?_
    rw [Function.comp_apply]
    split
    · exact takeRole_bare ..
    · rfl

end Quality

section Exclusion
variable [F64Exp F]

/-- What the election and the exclusions leave of a link for the ranking. -/
def stays (c : Connection F A) (nowMs : ℕ) (anyUnconstrained lost : Bool) : Bool :=
  candidate c nowMs &&
    !((anyUnconstrained && (c.lossDegraded || (c.weak && c.weakReason.isDelay))) || lost) &&
    !(anyUnconstrained && inFlightCapExceeded c)

theorem stays_bare (c : Connection F A) (nowMs : ℕ) (anyUnconstrained lost : Bool) :
    stays (bare c) nowMs anyUnconstrained lost = stays c nowMs anyUnconstrained lost := rfl

theorem ranked_holdOut (c : Connection F A) (nowMs : ℕ) (anyUnconstrained lost : Bool) :
    ranked (holdOut c nowMs anyUnconstrained lost) nowMs anyUnconstrained =
      stays c nowMs anyUnconstrained lost := by
  have hbare : ∀ (c' : Connection F A) (excluded : Bool), bare c' = bare c →
      ranked { c' with qualityExcluded := excluded } nowMs anyUnconstrained =
        (candidate c nowMs && !excluded && !(anyUnconstrained && inFlightCapExceeded c)) := by
    intro c' excluded h
    have hcandidate : candidate c' nowMs = candidate c nowMs := by
      rw [← candidate_bare, h, candidate_bare]
    have hcap : inFlightCapExceeded c' = inFlightCapExceeded c := by
      have hcap' : ∀ c : Connection F A, inFlightCapExceeded (bare c) = inFlightCapExceeded c :=
        fun _ => rfl
      rw [← hcap', h, hcap']
    rw [← hcandidate, ← hcap]
    rfl
  rw [holdOut, hbare, stays]
  · cases candidate c nowMs <;> rfl
  · split
    · exact armRejoinRamp_bare ..
    · rfl

def elected (conns : List (Connection F A)) (nowMs : ℕ) : Option ℕ :=
  (electSoleCarrier conns nowMs (conns.any (qualityOk · nowMs))).2

def lostElection (conns : List (Connection F A)) (nowMs i : ℕ) : Bool :=
  (elected conns nowMs).isSome && decide (some i ≠ elected conns nowMs)

theorem gateQuality_ranked {conns : List (Connection F A)} {i : ℕ} {c : Connection F A}
    (hc : conns[i]? = some c) (nowMs : ℕ) :
    ((gateQuality conns nowMs)[i]?).map (ranked · nowMs (conns.any (unconstrained · nowMs))) =
      some (stays c nowMs (conns.any (unconstrained · nowMs)) (lostElection conns nowMs i)) := by
  have hbare := congrArg (·[i]?) (electSoleCarrier_bare conns nowMs (conns.any (qualityOk · nowMs)))
  rw [List.getElem?_map, List.getElem?_map, hc, Option.map_some] at hbare
  obtain ⟨e, he, hbare⟩ := Option.map_eq_some_iff.mp hbare
  have hgated : (gateQuality conns nowMs)[i]? = some (holdOut e nowMs
      (conns.any (unconstrained · nowMs)) (lostElection conns nowMs i)) := by
    rw [gateQuality, List.getElem?_mapIdx, he]
    rfl
  rw [hgated, Option.map_some, ranked_holdOut, ← stays_bare, hbare, stays_bare]

theorem length_gateQuality (conns : List (Connection F A)) (nowMs : ℕ) :
    (gateQuality conns nowMs).length = conns.length := by
  have hlength := congrArg List.length
    (electSoleCarrier_bare conns nowMs (conns.any (qualityOk · nowMs)))
  rw [List.length_map, List.length_map] at hlength
  rw [gateQuality, List.length_mapIdx]
  exact hlength

theorem elected_candidate {conns : List (Connection F A)} {nowMs k : ℕ}
    (h : elected conns nowMs = some k) :
    conns.any (qualityOk · nowMs) = false ∧ ∃ c, conns[k]? = some c ∧ candidate c nowMs = true := by
  rw [elected, electSoleCarrier] at h
  split at h
  · exact absurd h.symm (Option.some_ne_none k)
  next hok => exact ⟨Bool.eq_false_of_not_eq_true hok, keepCarrier_candidate h⟩

theorem any_gateQuality (conns : List (Connection F A)) (nowMs : ℕ) :
    (gateQuality conns nowMs).any (ranked · nowMs (conns.any (unconstrained · nowMs))) =
      conns.any (candidate · nowMs) := by
  -- of the links that could carry, the two gates leave one at least
  have hstays : ∀ {i c}, conns[i]? = some c →
      stays c nowMs (conns.any (unconstrained · nowMs)) (lostElection conns nowMs i) = true →
      (gateQuality conns nowMs).any (ranked · nowMs (conns.any (unconstrained · nowMs))) = true := by
    intro i c hc h
    have hranked := gateQuality_ranked hc nowMs
    rw [h] at hranked
    obtain ⟨c', hc', hranked⟩ := Option.map_eq_some_iff.mp hranked
    exact List.any_eq_true.mpr ⟨c', List.mem_of_getElem? hc', hranked⟩
  rw [Bool.eq_iff_iff]
  constructor
  · intro h
    obtain ⟨c', hmem, hranked⟩ := List.any_eq_true.mp h
    obtain ⟨i, hi⟩ := List.mem_iff_getElem?.mp hmem
    have hlt : i < conns.length := by
      rw [← length_gateQuality conns nowMs]
      exact (List.getElem?_eq_some_iff.mp hi).1
    have hverdict := gateQuality_ranked (List.getElem?_eq_getElem hlt) nowMs
    rw [hi, Option.map_some, hranked, Option.some_inj, stays, Bool.and_assoc] at hverdict
    exact List.any_eq_true.mpr
      ⟨conns[i], List.getElem_mem hlt, (Bool.and_eq_true_iff.mp hverdict.symm).1⟩
  · intro h
    cases hany : conns.any (unconstrained · nowMs) with
    | true =>
      -- A link without any defect stays: there is no election, and it is not late.
      obtain ⟨c, hmem, hc⟩ := List.any_eq_true.mp hany
      obtain ⟨i, hi⟩ := List.mem_iff_getElem?.mp hmem
      obtain ⟨hok, hcap⟩ := Bool.and_eq_true_iff.mp hc
      have hlost : lostElection conns nowMs i = false := by
        cases helected : elected conns nowMs with
        | none => rw [lostElection, helected]; rfl
        | some k =>
          have hnone := (elected_candidate helected).1
          exact absurd (List.any_eq_true.mpr ⟨c, hmem, hok⟩) (by rw [hnone]; exact Bool.false_ne_true)
      have hclean : (usable c nowMs = true ∧ c.weak = false) ∧ c.lossDegraded = false ∧
          c.stallGated = false := by
        simpa only [qualityOk, Bool.and_eq_true, Bool.not_eq_true', and_assoc] using hok
      rw [hany] at hstays
      refine hstays hi ?_
      rw [stays, hlost, candidate, hclean.1.1, hclean.1.2, hclean.2.1, hclean.2.2]
      exact hcap
    | false =>
      rw [hany] at hstays
      cases helected : elected conns nowMs with
      | none =>
        obtain ⟨c, hmem, hc⟩ := List.any_eq_true.mp h
        obtain ⟨i, hi⟩ := List.mem_iff_getElem?.mp hmem
        refine hstays hi ?_
        rw [stays, lostElection, helected, hc]
        rfl
      | some k =>
        obtain ⟨-, c, hk, hc⟩ := elected_candidate helected
        refine hstays hk ?_
        rw [stays, lostElection, helected, hc]
        simp

theorem keepCarrier_isSome {conns : List (Connection F A)} {nowMs : ℕ}
    (h : conns.any (candidate · nowMs) = true) : (keepCarrier conns nowMs).isSome := by
  obtain ⟨c, hmem, hc⟩ := List.any_eq_true.mp h
  have hbest : (bestCarrier conns nowMs).isSome := by
    rw [bestCarrier, Option.isSome_or, Bool.or_eq_true]
    by_cases hmeasured : 0.0 < c.getSmoothRttMs
    · refine .inl (Scan.first_isSome.mpr ⟨c, hmem, ?_⟩)
      rw [hc, decide_eq_true hmeasured]
      rfl
    · refine .inr (Scan.first_isSome.mpr ⟨c, hmem, ?_⟩)
      rw [hc, decide_eq_false hmeasured]
      rfl
  rw [keepCarrier]
  split
  · split
    · rfl
    · split
      · split <;> split <;> rfl
      · rfl
  · rfl
  · exact hbest

theorem elected_of_ranked {conns : List (Connection F A)} {nowMs i : ℕ} {c : Connection F A}
    (hnone : conns.any (qualityOk · nowMs) = false) (hc : (gateQuality conns nowMs)[i]? = some c)
    (hranked : ranked c nowMs (conns.any (unconstrained · nowMs)) = true) :
    elected conns nowMs = some i := by
  have hlt : i < conns.length := by
    rw [← length_gateQuality conns nowMs]
    exact (List.getElem?_eq_some_iff.mp hc).1
  have hverdict := gateQuality_ranked (List.getElem?_eq_getElem hlt) nowMs
  rw [hc, Option.map_some, hranked, Option.some_inj, stays, Bool.and_assoc] at hverdict
  obtain ⟨hcandidate, hrest⟩ := Bool.and_eq_true_iff.mp hverdict.symm
  have helected : elected conns nowMs = keepCarrier conns nowMs := by
    rw [elected, electSoleCarrier, hnone]
    rfl
  have hsome : (elected conns nowMs).isSome := by
    rw [helected]
    exact keepCarrier_isSome (List.any_eq_true.mpr ⟨conns[i], List.getElem_mem hlt, hcandidate⟩)
  have hwon : lostElection conns nowMs i = false := by
    rw [Bool.and_eq_true, Bool.not_eq_true', Bool.or_eq_false_iff] at hrest
    exact hrest.1.2
  rw [lostElection, hsome, Bool.true_and, decide_eq_false_iff_not, not_not] at hwon
  exact hwon.symm

/-- Whatever the state is, the gates leave some link for the ranking exactly if some link that the
operator has enabled could carry; and while no link is good, they leave one link only. -/
theorem gates_leave_carrier (conns : List (Connection F A)) (nowMs : ℕ) (config : ConfigSnapshot) :
    let gated := applyStallGate conns nowMs config
    let inRanking := fun c => ranked c nowMs (gated.any (unconstrained · nowMs))
    (gateQuality gated nowMs).any inRanking =
        conns.any (fun c => usable (tuned c config) nowMs) ∧
      (gated.any (qualityOk · nowMs) = false → ∀ (i j : ℕ) (c d : Connection F A),
        (gateQuality gated nowMs)[i]? = some c → inRanking c = true →
        (gateQuality gated nowMs)[j]? = some d → inRanking d = true → i = j) := by
  intro gated inRanking
  constructor
  · exact (any_gateQuality gated nowMs).trans (any_applyStallGate conns nowMs config)
  · intro hnone i j c d hi hc hj hd
    have hi' := elected_of_ranked hnone hi hc
    have hj' := elected_of_ranked hnone hj hd
    exact Option.some_inj.mp (hi'.symm.trans hj')

end Exclusion

end Srtla.Bond
