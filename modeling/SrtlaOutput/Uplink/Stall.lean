import SrtlaOutput.Uplink.Connection
import SrtlaOutput.Lib.Dwell

/-! The stall latch over all looks at a link. It holds a link out until its proofs of delivery have
been fresh at every look for as long as the dwell asks. -/

namespace Srtla.Uplink
open Dwell
variable {F A : Type}

structure Latch where
  latchedSinceMs : ℕ := 0
  recoverySinceMs : ℕ := 0
  releasedAtMs : ℕ := 0
  rejoinBackoff : ℕ := 0
  deriving DecidableEq

def Connection.latch (c : Connection F A) : Latch where
  latchedSinceMs := c.stallLatchedSinceMs
  recoverySinceMs := c.stallRecoverySinceMs
  releasedAtMs := c.stallReleasedAtMs
  rejoinBackoff := c.stallRejoinBackoff

def Connection.stamp (c : Connection F A) : UInt64 × Latch := (c.connId, c.latch)

section
variable [F64 F]

/-- Nothing holds the link out at this look, and its last proof of delivery is fresh. -/
def Connection.clear (c : Connection F A) (nowMs : ℕ) (minInFlight : ℤ) (staleCeilingMs : ℕ) : Bool :=
  !c.engages nowMs minInFlight staleCeilingMs && c.proofFresh nowMs staleCeilingMs

/-- What the latch knows of the looks: while it holds, its recovery clock is that of the run of
clear looks that is going on. -/
structure Latch.Knows (l : Latch) (looks : List Look) : Prop where
  idle : l.latchedSinceMs = 0 → l.recoverySinceMs = 0
  recovery : l.latchedSinceMs ≠ 0 →
    since looks = if l.recoverySinceMs = 0 then none else some l.recoverySinceMs
  backoff : l.rejoinBackoff ≤ stallRejoinBackoffMax

theorem stallRejoinBackoffNext_le (backoff releasedAtMs heldForMs probationMs : ℕ) :
    stallRejoinBackoffNext backoff releasedAtMs heldForMs probationMs ≤ stallRejoinBackoffMax := by
  rw [stallRejoinBackoffNext]
  split
  · decide
  · exact Nat.min_le_right _ _

theorem releaseLatch_latch (c : Connection F A) (nowMs staleCeilingMs : ℕ) :
    (c.releaseLatch nowMs staleCeilingMs).latch =
      { c.latch with latchedSinceMs := 0, recoverySinceMs := 0, releasedAtMs := nowMs } := by
  rw [Connection.releaseLatch, Connection.armRejoinRamp]
  split <;> rfl

omit [F64 F] in
theorem startRecovery_latch (c : Connection F A) (nowMs : ℕ) :
    (c.startRecovery nowMs).latch = { c.latch with
      recoverySinceMs := if c.stallRecoverySinceMs = 0 then nowMs else c.stallRecoverySinceMs } := by
  rw [Connection.startRecovery]
  split <;> rfl

namespace Latch.Knows
variable {c : Connection F A} {looks : List Look} {nowMs : ℕ}

theorem engage (h : c.latch.Knows looks) (nowMs staleCeilingMs : ℕ) :
    (c.engageLatch nowMs staleCeilingMs).latch.Knows (looks ++ [⟨nowMs, false⟩]) := by
  have hnone : since (looks ++ [⟨nowMs, false⟩]) = none := since_concat _ _
  rw [Connection.engageLatch]
  split
  · exact ⟨fun _ => rfl, fun _ => hnone, stallRejoinBackoffNext_le _ _ _ _⟩
  · exact ⟨fun _ => rfl, fun _ => hnone, h.backoff⟩

omit [F64 F] in
theorem pause (h : c.latch.Knows looks) (nowMs : ℕ) :
    ({ c.latch with recoverySinceMs := 0 } : Latch).Knows (looks ++ [⟨nowMs, false⟩]) :=
  ⟨fun _ => rfl, fun _ => since_concat _ _, h.backoff⟩

omit [F64 F] in
theorem recover (h : c.latch.Knows looks) (hlatched : c.stallLatchedSinceMs ≠ 0) (hnow : 0 < nowMs) :
    (c.startRecovery nowMs).latch.Knows (looks ++ [⟨nowMs, true⟩]) := by
  rw [startRecovery_latch]
  refine ⟨fun hzero => absurd hzero hlatched, fun _ => ?_, h.backoff⟩
  rw [since_concat, h.recovery hlatched]
  by_cases hzero : c.stallRecoverySinceMs = 0
  · simp [tick, Connection.latch, hzero, hnow.ne']
  · simp [tick, Connection.latch, hzero]

theorem release (h : c.latch.Knows looks) (nowMs staleCeilingMs : ℕ) :
    (c.releaseLatch nowMs staleCeilingMs).latch.Knows looks := by
  rw [releaseLatch_latch]
  exact ⟨fun _ => rfl, fun hne => absurd rfl hne, h.backoff⟩

omit [F64 F] in
theorem idle_look (h : c.latch.Knows looks) (hidle : c.stallLatchedSinceMs = 0) (l : Look) :
    c.latch.Knows (looks ++ [l]) :=
  ⟨h.idle, fun hne => absurd hidle hne, h.backoff⟩

omit [F64 F] in
theorem since_startRecovery (h : c.latch.Knows looks) (hlatched : c.stallLatchedSinceMs ≠ 0)
    (hnow : 0 < nowMs) :
    since (looks ++ [⟨nowMs, true⟩]) = some (c.startRecovery nowMs).stallRecoverySinceMs := by
  have hlatch := startRecovery_latch c nowMs
  have hclock := (h.recover hlatched hnow).recovery (by rw [hlatch]; exact hlatched)
  have hstarted : (c.startRecovery nowMs).latch.recoverySinceMs ≠ 0 := by
    rw [hlatch]
    dsimp only
    split
    · exact hnow.ne'
    next hrecovering => exact hrecovering
  rwa [if_neg hstarted] at hclock

theorem of_unset (looks : List Look) : ({} : Latch).Knows looks :=
  ⟨fun _ => rfl, fun hne => absurd rfl hne, Nat.zero_le _⟩

theorem look (h : c.latch.Knows looks) (hnow : 0 < nowMs) (minInFlight : ℤ) (staleCeilingMs : ℕ) :
    (c.updateStallLatch nowMs minInFlight staleCeilingMs).latch.Knows
      (looks ++ [⟨nowMs, c.clear nowMs minInFlight staleCeilingMs⟩]) := by
  rw [Connection.updateStallLatch, Connection.clear]
  cases hengages : c.engages nowMs minInFlight staleCeilingMs with
  | true =>
    rw [if_pos rfl]
    exact h.engage nowMs staleCeilingMs
  | false =>
    rw [if_neg Bool.false_ne_true]
    split
    next hidle => exact h.idle_look hidle _
    next hlatched =>
      cases hfresh : c.proofFresh nowMs staleCeilingMs with
      | false =>
        rw [if_pos Bool.not_false]
        exact h.pause nowMs
      | true =>
        rw [if_neg (by decide)]
        have hrecover := h.recover hlatched hnow
        dsimp only
        split
        · exact hrecover.release nowMs staleCeilingMs
        · exact hrecover

end Latch.Knows

omit [F64 F] in
theorem startRecovery_latchedSince (c : Connection F A) (nowMs : ℕ) :
    (c.startRecovery nowMs).stallLatchedSinceMs = c.stallLatchedSinceMs :=
  congrArg Latch.latchedSinceMs (startRecovery_latch c nowMs)

theorem startRecovery_dwellMs (c : Connection F A) (nowMs staleCeilingMs : ℕ) :
    (c.startRecovery nowMs).dwellMs staleCeilingMs = c.dwellMs staleCeilingMs := by
  rw [Connection.startRecovery]
  split <;> rfl

theorem dwellMs_bounds {c : Connection F A} (hbackoff : c.stallRejoinBackoff ≤ stallRejoinBackoffMax)
    (staleCeilingMs : ℕ) :
    c.baseDwellMs staleCeilingMs ≤ c.dwellMs staleCeilingMs ∧
      c.dwellMs staleCeilingMs ≤ 16 * c.baseDwellMs staleCeilingMs := by
  have hbase : c.baseDwellMs staleCeilingMs ≤ u64Max := Nat.min_le_right _ _
  have hfactor : max c.stallRejoinBackoff 1 ≤ 16 := max_le hbackoff (by decide)
  refine ⟨le_min ?_ hbase, (Nat.min_le_left _ _).trans ?_⟩
  · exact Nat.le_mul_of_pos_right _ (Nat.lt_of_lt_of_le Nat.one_pos (le_max_right _ _))
  · rw [Nat.mul_comm]
    exact Nat.mul_le_mul_right _ hfactor

/-- A link that is held out is let in again by exactly those looks at which its proofs have been
fresh for the dwell, at every look since. -/
theorem Latch.Knows.released_iff {c : Connection F A} {looks : List Look} (h : c.latch.Knows looks)
    (hlatched : c.stallLatched = true) {nowMs : ℕ} (hnow : 0 < nowMs) (minInFlight : ℤ)
    (staleCeilingMs : ℕ) :
    (c.updateStallLatch nowMs minInFlight staleCeilingMs).stallLatched = false ↔
      ∃ t, HeldSince (looks ++ [⟨nowMs, c.clear nowMs minInFlight staleCeilingMs⟩]) t ∧
        c.dwellMs staleCeilingMs ≤ nowMs - t := by
  have hne : c.stallLatchedSinceMs ≠ 0 := of_decide_eq_true hlatched
  -- A look that is not clear ends the run.
  have hpause : ∀ (c' : Connection F A), c'.stallLatchedSinceMs = c.stallLatchedSinceMs →
      (c'.stallLatched = false ↔ ∃ t, HeldSince (looks ++ [⟨nowMs, false⟩]) t ∧
        c.dwellMs staleCeilingMs ≤ nowMs - t) := by
    intro c' hsame
    refine iff_of_false ?_ ?_
    · rw [Connection.stallLatched, hsame]
      exact fun hfalse => of_decide_eq_false hfalse hne
    · rintro ⟨t, hheld, -⟩
      exact absurd (heldSince_concat.mp hheld).1 Bool.false_ne_true
  rw [Connection.updateStallLatch, Connection.clear]
  cases hengages : c.engages nowMs minInFlight staleCeilingMs with
  | true =>
    rw [if_pos rfl, Connection.engageLatch, if_neg hne]
    exact hpause _ rfl
  | false =>
    rw [if_neg Bool.false_ne_true, if_neg hne]
    cases hfresh : c.proofFresh nowMs staleCeilingMs with
    | false =>
      rw [if_pos Bool.not_false]
      exact hpause _ rfl
    | true =>
      rw [if_neg (by decide)]
      have hsince := h.since_startRecovery hne hnow
      have hheld : ∀ t, HeldSince (looks ++ [⟨nowMs, true⟩]) t ↔
          t = (c.startRecovery nowMs).stallRecoverySinceMs := by
        intro t
        rw [← since_eq_some_iff, hsince, Option.some_inj]
        exact eq_comm
      simp only [Bool.not_false, Bool.and_self, hheld, exists_eq_left]
      rw [startRecovery_dwellMs]
      split
      next hlong =>
        refine iff_of_true ?_ hlong
        have hreleased := congrArg Latch.latchedSinceMs (releaseLatch_latch (c.startRecovery nowMs)
          nowMs staleCeilingMs)
        exact decide_eq_false (not_not_intro hreleased)
      next hshort =>
        refine iff_of_false (fun hfalse => of_decide_eq_false hfalse ?_) hshort
        rwa [startRecovery_latchedSince]

end

end Srtla.Uplink
