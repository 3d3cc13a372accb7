import SrtlaOutput.Abr.Range
import SrtlaOutput.Uplink.LinkCc
import SrtlaOutput.Lib.Dwell
import Mathlib.Tactic.NormNum
import Mathlib.Tactic.Ring

/-! What the congestion controller does about losses, over all that it is ever shown of a link: how
long it goes on cutting the rate, and when it calls a link degraded. -/

namespace Srtla.Uplink
variable {F : Type}

namespace LinkCongestionState

structure Trial where
  state : CcState
  ticks : ℕ
  entryLossPm : ℕ
  uncongestive : Bool
  uncongestiveTicks : ℕ

def trial (s : LinkCongestionState F) : Trial where
  state := s.state
  ticks := s.backoffTicks
  entryLossPm := s.backoffEntryLossPm
  uncongestive := s.lossUncongestive
  uncongestiveTicks := s.uncongestiveTicks

structure Alarm (F : Type) where
  ewma : F
  lastMs : ℕ
  highSinceMs : ℕ
  degraded : Bool

def alarm (s : LinkCongestionState F) : Alarm F where
  ewma := s.lossEwma
  lastMs := s.lossEwmaLastMs
  highSinceMs := s.lossHighSinceMs
  degraded := s.lossDegraded

section
variable [F64 F]

theorem updateRttMin_frame (s : LinkCongestionState F) (rttMs : F) (nowMs : ℕ) :
    (s.updateRttMin rttMs nowMs).trial = s.trial ∧ (s.updateRttMin rttMs nowMs).alarm = s.alarm := by
  rw [updateRttMin]
  split <;> exact ⟨rfl, rfl⟩

theorem recordRtt_frame (s : LinkCongestionState F) (rttMs : F) (nowMs : ℕ) :
    (s.recordRtt rttMs nowMs).trial = s.trial ∧ (s.recordRtt rttMs nowMs).alarm = s.alarm := by
  rw [recordRtt]
  dsimp only
  split
  · exact ⟨rfl, rfl⟩
  · rw [(updateRttMin_frame _ _ _).1, (updateRttMin_frame _ _ _).2]
    split <;> exact ⟨rfl, rfl⟩

omit [F64 F] in
theorem observeTraffic_frame (s : LinkCongestionState F) (bytes : ℕ) (naks : ℤ) (nowMs : ℕ) :
    (s.observeTraffic bytes naks nowMs).trial = s.trial ∧
      (s.observeTraffic bytes naks nowMs).alarm = s.alarm := by
  rw [observeTraffic]
  dsimp only
  split
  · exact ⟨rfl, rfl⟩
  · split <;> exact ⟨rfl, rfl⟩

/-- What the trial of the cuts reads: besides its own fields, the losses in the window. -/
structure Alike (s t : LinkCongestionState F) : Prop where
  trial : t.trial = s.trial
  sent : t.windowSent = s.windowSent
  lost : t.windowLost = s.windowLost

omit [F64 F] in
theorem Alike.lossPermille {s t : LinkCongestionState F} (h : Alike s t) :
    t.lossPermille = s.lossPermille := by
  rw [LinkCongestionState.lossPermille, LinkCongestionState.lossPermille, h.sent, h.lost]

omit [F64 F] in
theorem Alike.trans {s t u : LinkCongestionState F} (h : Alike s t) (h' : Alike t u) : Alike s u where
  trial := h'.trial.trans h.trial
  sent := h'.sent.trans h.sent
  lost := h'.lost.trans h.lost

omit [F64 F] in
theorem alike_seedTarget (s : LinkCongestionState F) (sane proven : ℕ) :
    Alike s (s.seedTarget sane proven) := by
  rw [seedTarget]
  split <;> exact ⟨rfl, rfl, rfl⟩

omit [F64 F] in
theorem alike_reconcile (s : LinkCongestionState F) (proven : ℕ) : Alike s (s.reconcile proven) := by
  rw [reconcile]
  split <;> exact ⟨rfl, rfl, rfl⟩

omit [F64 F] in
theorem seedTarget_alarm (s : LinkCongestionState F) (sane proven : ℕ) :
    (s.seedTarget sane proven).alarm = s.alarm := by
  rw [seedTarget]
  split <;> rfl

omit [F64 F] in
theorem reconcile_alarm (s : LinkCongestionState F) (proven : ℕ) :
    (s.reconcile proven).alarm = s.alarm := by
  rw [reconcile]
  split <;> rfl

omit [F64 F] in
theorem updateBackoffEfficacy_trial {s t : LinkCongestionState F} (h : t.trial = s.trial)
    (lossHigh : Bool) (lossPm : ℕ) :
    (t.updateBackoffEfficacy lossHigh lossPm).trial = (s.updateBackoffEfficacy lossHigh lossPm).trial := by
  -- the verdict depends on the trial alone
  have hstate : t.state = s.state := congrArg Trial.state h
  have hticks : t.backoffTicks = s.backoffTicks := congrArg Trial.ticks h
  have hentry : t.backoffEntryLossPm = s.backoffEntryLossPm := congrArg Trial.entryLossPm h
  have huncongestive : t.lossUncongestive = s.lossUncongestive := congrArg Trial.uncongestive h
  have hheld : t.uncongestiveTicks = s.uncongestiveTicks := congrArg Trial.uncongestiveTicks h
  simp only [updateBackoffEfficacy, trial, hstate, hticks, hentry, huncongestive, hheld,
    apply_ite LinkCongestionState.state, apply_ite LinkCongestionState.backoffTicks,
    apply_ite LinkCongestionState.backoffEntryLossPm, apply_ite LinkCongestionState.lossUncongestive,
    apply_ite LinkCongestionState.uncongestiveTicks]

omit [F64 F] in
theorem updateBackoffEfficacy_frame (s : LinkCongestionState F) (lossHigh : Bool) (lossPm : ℕ) :
    (s.updateBackoffEfficacy lossHigh lossPm).alarm = s.alarm ∧
      (s.updateBackoffEfficacy lossHigh lossPm).lossPermille = s.lossPermille := by
  rw [updateBackoffEfficacy]
  split_ifs <;> exact ⟨rfl, rfl⟩

theorem settle_state (s : LinkCongestionState F) (next : CcState) (sane proven : ℕ) :
    (s.settle next sane proven).state = next := by
  rw [settle]

theorem settle_trial (s : LinkCongestionState F) (next : CcState) (sane proven : ℕ) :
    (s.settle next sane proven).trial = { s.trial with state := next } := by
  rw [settle, armFastRecovery]
  split <;> rfl

theorem settle_alarm (s : LinkCongestionState F) (next : CcState) (sane proven : ℕ) :
    (s.settle next sane proven).alarm = s.alarm := by
  rw [settle, armFastRecovery]
  split <;> rfl

theorem settle_lossPermille (s : LinkCongestionState F) (next : CcState) (sane proven : ℕ) :
    (s.settle next sane proven).lossPermille = s.lossPermille := by
  rw [settle, armFastRecovery]
  split <;> rfl

theorem nextState_eq_backingOff {s : LinkCongestionState F} {lossHigh loaded : Bool}
    (h : s.nextState lossHigh loaded = .backingOff) : lossHigh = true ∧ s.lossUncongestive = false := by
  rw [nextState] at h
  split at h
  next hcut =>
    obtain ⟨hboth, huncongestive⟩ := Bool.and_eq_true_iff.mp hcut
    exact ⟨(Bool.and_eq_true_iff.mp hboth).1, Bool.eq_false_of_not_eq_true' huncongestive⟩
  next =>
    split at h
    · exact CcState.noConfusion h
    · split at h <;> exact CcState.noConfusion h

theorem nextState_ne_bootstrap (s : LinkCongestionState F) (lossHigh loaded : Bool) :
    s.nextState lossHigh loaded ≠ .bootstrap := by
  rw [nextState]
  split
  · exact CcState.noConfusion
  · split
    · exact CcState.noConfusion
    · split <;> exact CcState.noConfusion

end

section
variable [F64Exp F]

theorem alike_updateLossEwma (s : LinkCongestionState F) (lossPm nowMs : ℕ) :
    Alike s (s.updateLossEwma lossPm nowMs) := by
  rw [updateLossEwma]
  dsimp only
  split
  · split
    · exact ⟨rfl, rfl, rfl⟩
    · split <;> exact ⟨rfl, rfl, rfl⟩
  · exact ⟨rfl, rfl, rfl⟩

theorem updateLossEwma_alarm (s : LinkCongestionState F) (lossPm nowMs : ℕ) :
    (s.updateLossEwma lossPm nowMs).lossHighSinceMs =
        (if 0.55 < (s.updateLossEwma lossPm nowMs).lossEwma then
          if s.lossHighSinceMs = 0 then nowMs else s.lossHighSinceMs
        else 0) ∧
      ((s.updateLossEwma lossPm nowMs).lossDegraded = true ↔
        (0.55 < (s.updateLossEwma lossPm nowMs).lossEwma ∧ s.lossHighSinceMs ≠ 0 ∧
            lossDegradeSustainMs ≤ nowMs - s.lossHighSinceMs) ∨
          s.lossDegraded = true ∧ ¬ (¬ 0.55 < (s.updateLossEwma lossPm nowMs).lossEwma ∧
            (s.updateLossEwma lossPm nowMs).lossEwma < 0.25)) := by
  have hewma : (s.updateLossEwma lossPm nowMs).lossEwma = s.nextLossEwma lossPm nowMs := by
    rw [updateLossEwma]
    split_ifs <;> rfl
  rw [hewma, updateLossEwma]
  generalize s.nextLossEwma lossPm nowMs = ewma
  by_cases hhigh : 0.55 < ewma
  · by_cases hzero : s.lossHighSinceMs = 0
    · simp [hhigh, hzero]
    · by_cases hlong : lossDegradeSustainMs ≤ nowMs - s.lossHighSinceMs <;> simp [hhigh, hzero, hlong]
  · simp [hhigh]

theorem tickMeasured_spec (s : LinkCongestionState F) (offeredBps deliveredBps nowMs : ℕ) :
    ∃ (v : LinkCongestionState F) (loaded : Bool) (sane : ℕ), Alike s v ∧
      v.alarm = (s.updateLossEwma s.lossPermille nowMs).alarm ∧
      s.tickMeasured offeredBps deliveredBps nowMs =
        (v.updateBackoffEfficacy (decide (lossBackoffPermille < s.lossPermille)) s.lossPermille).settle
          ((v.updateBackoffEfficacy (decide (lossBackoffPermille < s.lossPermille))
            s.lossPermille).nextState (decide (lossBackoffPermille < s.lossPermille)) loaded)
          sane (min deliveredBps offeredBps) := by
  refine ⟨_, _, _, ?_, ?_, rfl⟩
  · refine (alike_updateLossEwma s s.lossPermille nowMs).trans ?_
    refine Alike.trans ?_ ((alike_seedTarget _ _ _).trans (alike_reconcile _ _))
    exact ⟨rfl, rfl, rfl⟩
  · rw [reconcile_alarm, seedTarget_alarm]
    rfl

end

end LinkCongestionState

namespace LinkCcController
open LinkCongestionState
variable [F64Exp F]

theorem tickWithDeliverySample_cases (s : LinkCongestionState F) (offeredBps deliveredBps : ℕ)
    (ready : Bool) (nowMs : ℕ) :
    s.tickWithDeliverySample offeredBps deliveredBps ready nowMs = (s.evictExpired nowMs).holdFloor ∨
      s.tickWithDeliverySample offeredBps deliveredBps ready nowMs =
        (s.evictExpired nowMs).tickMeasured offeredBps deliveredBps nowMs := by
  rw [tickWithDeliverySample]
  split
  · exact .inl rfl
  · split
    · exact .inl rfl
    · exact .inr rfl

theorem observe_cases (s : LinkCongestionState F) (x : Sample F) :
    ∃ t : LinkCongestionState F, t.trial = s.trial ∧ t.alarm = s.alarm ∧
      (observe s x = t.holdFloor ∨ observe s x = t.tickMeasured x.offeredBps x.deliveredBps x.nowMs) := by
  -- a look ends with the floor while the rates are not measured, else with the two verdicts
  have hrtt : (if 0.0 < x.rttMs then s.recordRtt x.rttMs x.nowMs else s).trial = s.trial ∧
      (if 0.0 < x.rttMs then s.recordRtt x.rttMs x.nowMs else s).alarm = s.alarm := by
    split
    · exact recordRtt_frame _ _ _
    · exact ⟨rfl, rfl⟩
  have hframe := observeTraffic_frame (if 0.0 < x.rttMs then s.recordRtt x.rttMs x.nowMs else s)
    x.bytesSentTotal x.nakTotal x.nowMs
  exact ⟨evictExpired _ x.nowMs, hframe.1.trans hrtt.1, hframe.2.trans hrtt.2,
    tickWithDeliverySample_cases _ _ _ _ _⟩

theorem observe_backingOff {s : LinkCongestionState F} {x : Sample F}
    (h : (observe s x).state = .backingOff) :
    lossBackoffPermille < (observe s x).lossPermille ∧
      (observe s x).lossUncongestive = false ∧
      (observe s x).trial = { (s.updateBackoffEfficacy true (observe s x).lossPermille).trial with
        state := .backingOff } := by
  obtain ⟨t, htrial, -, hfloor | hmeasured⟩ := observe_cases s x
  · rw [hfloor] at h
    exact CcState.noConfusion h
  · obtain ⟨v, loaded, sane, hv, -, htick⟩ := tickMeasured_spec t x.offeredBps x.deliveredBps x.nowMs
    generalize hw : v.updateBackoffEfficacy (decide (lossBackoffPermille < t.lossPermille))
      t.lossPermille = w at htick
    rw [hmeasured, htick, settle_state] at h
    obtain ⟨hhigh, huncongestive⟩ := nextState_eq_backingOff h
    have hpm : (observe s x).lossPermille = t.lossPermille := by
      rw [hmeasured, htick, settle_lossPermille, ← hw, (updateBackoffEfficacy_frame _ _ _).2,
        hv.lossPermille]
    have htrial : w.trial = (s.updateBackoffEfficacy true t.lossPermille).trial := by
      rw [← hw, hhigh, updateBackoffEfficacy_trial (hv.trial.trans htrial)]
    have hsettled : (observe s x).trial = { w.trial with state := .backingOff } := by
      rw [hmeasured, htick, settle_trial, h]
    refine ⟨hpm ▸ of_decide_eq_true hhigh, ?_, ?_⟩
    · exact (congrArg Trial.uncongestive hsettled).trans huncongestive
    · rw [hsettled, htrial, hpm]

theorem observe_targetBps (s : LinkCongestionState F) (x : Sample F) :
    minTargetBps ≤ (observe s x).targetBps ∧ (observe s x).targetBps ≤ maxTargetBps := by
  obtain ⟨t, -, -, hfloor | hmeasured⟩ := observe_cases s x
  · rw [hfloor]
    exact ⟨le_rfl, (by decide : minTargetBps ≤ maxTargetBps)⟩
  · obtain ⟨v, loaded, sane, -, -, htick⟩ := tickMeasured_spec t x.offeredBps x.deliveredBps x.nowMs
    rw [hmeasured, htick]
    exact clamp_mem (by decide : minTargetBps ≤ maxTargetBps) _

/-! Streaks of cuts. -/

/-- What is known at the `n + 1`-st cut in a row, where `losses` are those that the cuts saw. -/
structure Streak (losses : ℕ → ℕ) (n : ℕ) (s : LinkCongestionState F) : Prop where
  state : s.state = .backingOff
  uncongestive : s.lossUncongestive = false
  ticks : s.backoffTicks < 3
  high : 5 < s.backoffEntryLossPm
  entry : ∃ k, n = 3 * k + s.backoffTicks ∧ s.backoffEntryLossPm = losses (3 * k)
  fell : ∀ k, 3 * (k + 1) ≤ n → 5 * losses (3 * (k + 1)) ≤ 4 * losses (3 * k)

namespace Streak
variable {s : LinkCongestionState F} {losses : ℕ → ℕ} {n : ℕ}

theorem start {x : Sample F} (hs : s.state ≠ .backingOff) (h : (observe s x).state = .backingOff)
    (hloss : losses 0 = (observe s x).lossPermille) : Streak losses 0 (observe s x) := by
  obtain ⟨hhigh, huncongestive, htrial⟩ := observe_backingOff h
  -- A trial that is held out of cutting, or called off, opens anew.
  have hopened : (s.updateBackoffEfficacy true (observe s x).lossPermille).lossUncongestive = false →
      (s.updateBackoffEfficacy true (observe s x).lossPermille).backoffTicks = 0 ∧
      (s.updateBackoffEfficacy true (observe s x).lossPermille).backoffEntryLossPm =
        (observe s x).lossPermille := by
    rw [updateBackoffEfficacy]
    split_ifs with hlow hheld hretest
    · exact absurd hlow Bool.false_ne_true
    · exact fun _ => ⟨rfl, rfl⟩
    · exact fun hfalse => absurd (hheld.symm.trans hfalse) Bool.noConfusion
    · exact fun _ => ⟨rfl, rfl⟩
  have hfalse := (congrArg Trial.uncongestive htrial).symm.trans huncongestive
  have hticks : (observe s x).backoffTicks = 0 := (congrArg Trial.ticks htrial).trans (hopened hfalse).1
  have hentry : (observe s x).backoffEntryLossPm = (observe s x).lossPermille :=
    (congrArg Trial.entryLossPm htrial).trans (hopened hfalse).2
  exact {
    state := h
    uncongestive := huncongestive
    ticks := hticks ▸ Nat.succ_pos 2
    high := hentry ▸ hhigh
    entry := ⟨0, by rw [hticks], hentry.trans hloss.symm⟩
    fell := fun k hk => absurd hk (Nat.not_le.mpr (Nat.succ_pos _)) }

theorem step (hs : Streak losses n s) {x : Sample F} (h : (observe s x).state = .backingOff)
    (hloss : losses (n + 1) = (observe s x).lossPermille) :
    Streak losses (n + 1) (observe s x) := by
  obtain ⟨hhigh, huncongestive, htrial⟩ := observe_backingOff h
  obtain ⟨k, hn, hfirst⟩ := hs.entry
  have hfalse := (congrArg Trial.uncongestive htrial).symm.trans huncongestive
  have hticks : (observe s x).backoffTicks = _ := congrArg Trial.ticks htrial
  have hentry : (observe s x).backoffEntryLossPm = _ := congrArg Trial.entryLossPm htrial
  dsimp only [trial] at hfalse hticks hentry
  rw [updateBackoffEfficacy, if_neg (by decide), if_neg (by rw [hs.uncongestive]; decide),
    if_neg (not_not_intro hs.state)] at hfalse hticks hentry
  split at hfalse
  next hearly =>
    rw [if_pos hearly] at hticks hentry
    dsimp only at hticks hentry
    refine {
      state := h
      uncongestive := huncongestive
      ticks := hticks ▸ hearly
      high := hentry ▸ hs.high
      entry := ⟨k, by rw [hticks, hn, Nat.add_assoc], hentry.trans hfirst⟩
      fell := fun j hj => hs.fell j ?_ }
    have hearly : s.backoffTicks + 1 < 3 := hearly
    omega
  next hlate =>
    split at hfalse
    next himproved =>
      rw [if_neg hlate, if_pos himproved] at hticks hentry
      dsimp only at hticks hentry
      have hdue : s.backoffTicks + 1 = 3 := Nat.le_antisymm hs.ticks (Nat.le_of_not_lt hlate)
      have hthird : n + 1 = 3 * (k + 1) := by omega
      refine {
        state := h
        uncongestive := huncongestive
        ticks := hticks ▸ Nat.succ_pos 2
        high := hentry ▸ hhigh
        entry := ⟨k + 1, hticks ▸ hthird, by rw [← hthird, hloss, hentry]⟩
        fell := fun j hj => ?_ }
      rcases Nat.lt_or_eq_of_le hj with hbefore | hnow
      · exact hs.fell j (Nat.le_of_lt_succ hbefore)
      · obtain rfl : j = k := by omega
        have himproved : (observe s x).lossPermille * 1000 < s.backoffEntryLossPm * 800 := himproved
        rw [hnow, hloss, ← hfirst]
        omega
    next => exact absurd hfalse.symm Bool.false_ne_true

omit [F64Exp F] in
theorem cumulative (hs : Streak losses n s) (k : ℕ) (hk : 3 * k ≤ n) :
    5 ^ k * losses (3 * k) ≤ 4 ^ k * losses 0 := by
  induction k with
  | zero => exact le_rfl
  | succ k ih =>
    calc 5 ^ (k + 1) * losses (3 * (k + 1))
        = 5 ^ k * (5 * losses (3 * (k + 1))) := by rw [pow_succ, Nat.mul_assoc]
      _ ≤ 5 ^ k * (4 * losses (3 * k)) := Nat.mul_le_mul_left _ (hs.fell k hk)
      _ = 4 * (5 ^ k * losses (3 * k)) := Nat.mul_left_comm _ _ _
      _ ≤ 4 * (4 ^ k * losses 0) := Nat.mul_le_mul_left _ (ih (by omega))
      _ = 4 ^ (k + 1) * losses 0 := by rw [pow_succ', Nat.mul_assoc]

omit [F64Exp F] in
theorem lt_of_le (hs : Streak losses n s) (hfirst : losses 0 ≤ 1000000) : n < 162 := by
  -- the losses would have to be lower than any that are cut for
  obtain ⟨k, hn, hentry⟩ := hs.entry
  have hfell := hs.cumulative k (by omega)
  have hhigh := hs.high
  rw [hentry] at hhigh
  have hticks := hs.ticks
  have hk : k < 54 := by
    refine Nat.lt_of_not_le fun hk => ?_
    obtain ⟨m, rfl⟩ := Nat.exists_eq_add_of_le hk
    have hbase : 4 ^ 54 * 1000000 < 5 ^ 54 * 6 := by norm_num
    have hpow : 4 ^ m ≤ 5 ^ m := Nat.pow_le_pow_left (Nat.le_succ 4) m
    have hlt : 4 ^ (54 + m) * losses 0 < 5 ^ (54 + m) * losses (3 * (54 + m)) :=
      calc 4 ^ (54 + m) * losses 0
          ≤ 4 ^ (54 + m) * 1000000 := Nat.mul_le_mul_left _ hfirst
        _ = 4 ^ m * (4 ^ 54 * 1000000) := by ring
        _ < 4 ^ m * (5 ^ 54 * 6) := Nat.mul_lt_mul_of_pos_left hbase (Nat.pow_pos (Nat.succ_pos 3))
        _ ≤ 5 ^ m * (5 ^ 54 * 6) := Nat.mul_le_mul_right _ hpow
        _ = 5 ^ (54 + m) * 6 := by ring
        _ ≤ 5 ^ (54 + m) * losses (3 * (54 + m)) := Nat.mul_le_mul_left _ hhigh
    exact absurd hfell (Nat.not_le.mpr hlt)
  omega

end Streak

def after (xs : List (Sample F)) : LinkCongestionState F := xs.foldl observe .default

theorem after_concat (xs : List (Sample F)) (x : Sample F) :
    after (xs ++ [x]) = observe (after xs) x :=
  List.foldl_concat _ _ _ _

theorem targetBps_mem (xs : List (Sample F)) :
    minTargetBps ≤ (after xs).targetBps ∧ (after xs).targetBps ≤ maxTargetBps := by
  rcases List.eq_nil_or_concat' xs with rfl | ⟨xs, x, rfl⟩
  · exact ⟨le_rfl, (by decide : minTargetBps ≤ maxTargetBps)⟩
  · rw [after_concat]
    exact observe_targetBps _ x

theorem after_take (before streak : List (Sample F)) {n : ℕ} (hn : n < streak.length) :
    after (before ++ streak.take (n + 1)) = observe (after (before ++ streak.take n)) streak[n] := by
  rw [List.take_succ_eq_append_getElem hn, ← List.append_assoc, after_concat]

omit [F64Exp F] in
theorem lossPermille_le (s : LinkCongestionState F) : s.lossPermille ≤ 1000000 := by
  rw [LinkCongestionState.lossPermille]
  split
  · exact Nat.zero_le _
  · exact Nat.min_le_right _ _

/-- Whatever it is shown, the controller cuts the rate of a link at most 162 times in a row, and
goes on after every third cut only when the losses are down by a fifth since the third one
before. -/
theorem backoff_streak (before streak : List (Sample F))
    (hstart : (after before).state ≠ .backingOff)
    (hstreak : ∀ n < streak.length, (after (before ++ streak.take (n + 1))).state = .backingOff) :
    let losses := fun n => (after (before ++ streak.take (n + 1))).lossPermille
    streak.length ≤ 162 ∧
      (∀ k, 3 * (k + 1) < streak.length → 5 * losses (3 * (k + 1)) ≤ 4 * losses (3 * k)) ∧
      ∀ k, 3 * k < streak.length → 5 ^ k * losses (3 * k) ≤ 4 ^ k * losses 0 := by
  intro losses
  have hrun : ∀ n < streak.length, Streak losses n (after (before ++ streak.take (n + 1))) := by
    intro n hn
    induction n with
    | zero =>
      have hcut := hstreak 0 hn
      have hloss : losses 0 = (after (before ++ streak.take (0 + 1))).lossPermille := rfl
      rw [after_take before streak hn, List.take_zero, List.append_nil] at hcut hloss ⊢
      exact Streak.start hstart hcut hloss
    | succ n ih =>
      have hcut := hstreak (n + 1) hn
      have hloss : losses (n + 1) = (after (before ++ streak.take (n + 1 + 1))).lossPermille := rfl
      rw [after_take before streak hn] at hcut hloss ⊢
      exact (ih (Nat.lt_of_succ_lt hn)).step hcut hloss
  refine ⟨?_, fun k hk => (hrun _ hk).fell k le_rfl, fun k hk => (hrun _ hk).cumulative k le_rfl⟩
  rcases Nat.eq_zero_or_pos streak.length with hzero | hpos
  · rw [hzero]
    exact Nat.zero_le _
  · have hlast := (hrun (streak.length - 1) (Nat.sub_lt hpos Nat.one_pos)).lt_of_le (lossPermille_le _)
    omega

def lossy (nakTotal n : ℕ) : Sample ℚ where
  rttMs := 50
  bytesSentTotal := 600000 * n
  nakTotal
  offeredBps := 5000000
  deliveredBps := 4800000
  rateSampleReady := true
  nowMs := 1000 * (n + 1)

def fadingLosses : List (Sample ℚ) :=
  [lossy 60 1, lossy 70 2, lossy 80 3, lossy 90 4, lossy 100 5, lossy 110 6]

theorem backoff_streak_fading :
    fadingLosses.length = 6 ∧
      5 * (after ([lossy 0 0] ++ fadingLosses.take 4)).lossPermille ≤
        4 * (after ([lossy 0 0] ++ fadingLosses.take 1)).lossPermille := by
  have h := backoff_streak [lossy 0 0] fadingLosses (by decide +kernel) (by decide +kernel)
  exact ⟨rfl, h.2.1 0 (by decide)⟩

/-! Links that lose too much. -/

theorem observe_alarm (s : LinkCongestionState F) (x : Sample F) :
    ((observe s x).state = .bootstrap ∧ (observe s x).alarm = s.alarm) ∨
      ((observe s x).state ≠ .bootstrap ∧
        (observe s x).alarm.highSinceMs =
          (if 0.55 < (observe s x).lossEwma then
            if s.lossHighSinceMs = 0 then x.nowMs else s.lossHighSinceMs
          else 0) ∧
        ((observe s x).lossDegraded = true ↔
          (0.55 < (observe s x).lossEwma ∧ s.lossHighSinceMs ≠ 0 ∧
              lossDegradeSustainMs ≤ x.nowMs - s.lossHighSinceMs) ∨
            s.lossDegraded = true ∧
              ¬ (¬ 0.55 < (observe s x).lossEwma ∧ (observe s x).lossEwma < 0.25))) := by
  obtain ⟨t, -, halarm, hfloor | hmeasured⟩ := observe_cases s x
  · left
    rw [hfloor]
    exact ⟨rfl, halarm⟩
  · right
    obtain ⟨v, loaded, sane, -, hv, htick⟩ := tickMeasured_spec t x.offeredBps x.deliveredBps x.nowMs
    have hstate : (observe s x).state ≠ .bootstrap := by
      rw [hmeasured, htick, settle_state]
      exact nextState_ne_bootstrap _ _ _
    have hsettled : (observe s x).alarm = (t.updateLossEwma t.lossPermille x.nowMs).alarm := by
      rw [hmeasured, htick, settle_alarm, (updateBackoffEfficacy_frame _ _ _).1, hv]
    have hsince : t.lossHighSinceMs = s.lossHighSinceMs := congrArg Alarm.highSinceMs halarm
    have hdegraded : t.lossDegraded = s.lossDegraded := congrArg Alarm.degraded halarm
    have hewma : (observe s x).lossEwma = (t.updateLossEwma t.lossPermille x.nowMs).lossEwma :=
      congrArg Alarm.ewma hsettled
    have hnow : (observe s x).lossDegraded = (t.updateLossEwma t.lossPermille x.nowMs).lossDegraded :=
      congrArg Alarm.degraded hsettled
    rw [hewma, hnow, hsettled, ← hsince, ← hdegraded]
    exact ⟨hstate, updateLossEwma_alarm t t.lossPermille x.nowMs⟩

/-- The looks at which the link was measured, and whether it lost more than it may. -/
def looksFrom (s : LinkCongestionState F) : List (Sample F) → List Dwell.Look
  | [] => []
  | x :: xs =>
    if (observe s x).state = .bootstrap then looksFrom (observe s x) xs
    else ⟨x.nowMs, decide (0.55 < (observe s x).lossEwma)⟩ :: looksFrom (observe s x) xs

def looks (xs : List (Sample F)) : List Dwell.Look := looksFrom .default xs

theorem looks_concat (xs : List (Sample F)) (x : Sample F) :
    looks (xs ++ [x]) = looks xs ++
      if (after (xs ++ [x])).state = .bootstrap then []
      else [⟨x.nowMs, decide (0.55 < (after (xs ++ [x])).lossEwma)⟩] := by
  have hfrom : ∀ (xs : List (Sample F)) (s : LinkCongestionState F),
      looksFrom s (xs ++ [x]) = looksFrom s xs ++
        if (observe (xs.foldl observe s) x).state = .bootstrap then []
        else [⟨x.nowMs, decide (0.55 < (observe (xs.foldl observe s) x).lossEwma)⟩] := by
    intro xs
    induction xs with
    | nil =>
      intro s
      rw [List.nil_append, looksFrom, looksFrom, looksFrom, List.nil_append, List.foldl_nil]
    | cons y ys ih =>
      intro s
      rw [List.cons_append, looksFrom, looksFrom, ih, List.foldl_cons]
      split <;> rfl
  rw [after_concat]
  exact hfrom xs .default

theorem since_looks {xs : List (Sample F)} (hclock : ∀ x ∈ xs, 0 < x.nowMs) :
    Dwell.since (looks xs) =
      if (after xs).lossHighSinceMs = 0 then none else some (after xs).lossHighSinceMs := by
  induction xs using List.reverseRecOn with
  | nil => rfl
  | append_singleton xs x ih =>
    obtain ⟨hxs, hx⟩ := List.forall_mem_append.mp hclock
    have hpos : x.nowMs ≠ 0 := (hx x List.mem_cons_self).ne'
    rw [looks_concat, after_concat]
    rcases observe_alarm (after xs) x with ⟨hstate, halarm⟩ | ⟨hstate, hsince, -⟩
    · have hsame : (observe (after xs) x).lossHighSinceMs = (after xs).lossHighSinceMs :=
        congrArg Alarm.highSinceMs halarm
      rw [if_pos hstate, List.append_nil, hsame, ih hxs]
    · rw [if_neg hstate, Dwell.since_concat, ih hxs, Dwell.tick]
      rw [show (observe (after xs) x).lossHighSinceMs = _ from hsince]
      by_cases hhigh : 0.55 < (observe (after xs) x).lossEwma
      · by_cases hzero : (after xs).lossHighSinceMs = 0 <;> simp [hhigh, hzero, hpos]
      · simp [hhigh]

/-- At the last of these looks the link was measured, and its losses had been high for long. -/
def Alarmed (xs : List (Sample F)) : Prop :=
  (after xs).state ≠ .bootstrap ∧ ∃ x t, xs.getLast? = some x ∧ Dwell.HeldSince (looks xs) t ∧
    lossDegradeSustainMs ≤ x.nowMs - t

def Calm (xs : List (Sample F)) : Prop :=
  (after xs).state ≠ .bootstrap ∧ ¬ 0.55 < (after xs).lossEwma ∧ (after xs).lossEwma < 0.25

/-- A link is called degraded once its losses have been high at every look for four seconds, and
until they are low. -/
theorem degraded_iff (xs : List (Sample F)) (hclock : ∀ x ∈ xs, 0 < x.nowMs) :
    (after xs).lossDegraded = true ↔
      ∃ p, p <+: xs ∧ Alarmed p ∧ ∀ q, p <+: q → q <+: xs → q ≠ p → ¬ Calm q := by
  refine Dwell.on_iff (fun xs => (after xs).lossDegraded = true) Bool.false_ne_true
    (fun h => h.1 rfl) xs fun p x hp => ?_
  have hclock : ∀ y ∈ p ++ [x], 0 < y.nowMs := fun y hy => hclock y (hp.subset hy)
  have hx : x.nowMs ≠ 0 := (hclock x (List.mem_append_right _ List.mem_cons_self)).ne'
  have halarmed : Alarmed (p ++ [x]) ↔ (observe (after p) x).state ≠ .bootstrap ∧
      (observe (after p) x).lossHighSinceMs ≠ 0 ∧
      lossDegradeSustainMs ≤ x.nowMs - (observe (after p) x).lossHighSinceMs := by
    have hsince := since_looks hclock
    rw [after_concat] at hsince
    rw [Alarmed, List.getLast?_concat, after_concat]
    refine and_congr_right fun _ => ⟨?_, ?_⟩
    · rintro ⟨y, t, hy, hheld, hlong⟩
      obtain rfl := Option.some_inj.mp hy
      have ht := hsince.symm.trans (Dwell.since_eq_some_iff.mpr hheld)
      split at ht
      · exact absurd ht.symm (Option.some_ne_none t)
      next hne => exact ⟨hne, Option.some_inj.mp ht ▸ hlong⟩
    · rintro ⟨hne, hlong⟩
      rw [if_neg hne] at hsince
      exact ⟨x, _, rfl, Dwell.since_eq_some_iff.mp hsince, hlong⟩
  rw [halarmed, Calm, after_concat]
  rcases observe_alarm (after p) x with ⟨hstate, halarm⟩ | ⟨hstate, hsince, hdegraded⟩
  · have hsame : (observe (after p) x).lossDegraded = (after p).lossDegraded :=
      congrArg Alarm.degraded halarm
    simp [hstate, hsame]
  · have hsince : (observe (after p) x).lossHighSinceMs = _ := hsince
    rw [hdegraded, hsince]
    by_cases hhigh : 0.55 < (observe (after p) x).lossEwma
    · by_cases hzero : (after p).lossHighSinceMs = 0
      · have hlong : lossDegradeSustainMs ≠ 0 := by decide
        simp [hhigh, hzero, hlong]
      · simp [hhigh, hzero, hstate]
    · simp [hhigh, hstate]

def lossyLooks : List (Sample ℚ) := (List.range 7).map fun n => lossy (900 * n) n

def calmLooks : List (Sample ℚ) := lossyLooks ++ [lossy 5400 36, lossy 5400 66]

/-- The link is degraded after four seconds, and cleared again. -/
theorem degraded_iff_lossy :
    (∃ p, p <+: lossyLooks ∧ Alarmed p ∧
        ∀ q, p <+: q → q <+: lossyLooks → q ≠ p → ¬ Calm q) ∧
      ∀ p, p <+: calmLooks → Alarmed p →
        ∃ q, p <+: q ∧ q <+: calmLooks ∧ q ≠ p ∧ Calm q := by
  have hdegraded := (degraded_iff lossyLooks (by decide)).mp (by decide +kernel)
  have hcleared := mt (degraded_iff calmLooks (by decide)).mpr (by decide +kernel)
  push Not at hcleared
  exact ⟨hdegraded, fun p hp hp' => hcleared p hp hp'⟩

end LinkCcController

end Srtla.Uplink
