import Mathlib.Data.ZMod.Basic

/-! Serial numbers: a counter that wraps, where the shorter way round says which of two values is
the later one. The order is not transitive; what holds of it is said for a value that moves on by
less than half of the circle. -/

namespace Serial

variable {n : ℕ}

/-- The way from `b` forwards to `a`. -/
def gap (b a : ZMod n) : ℕ := (a - b).val

/-- The value `a` is later than `b`. -/
def After (a b : ZMod n) : Prop := 0 < gap b a ∧ 2 * gap b a < n

def Follows (b : ZMod n) (k : ℕ) (a : ZMod n) : Prop := ∃ i, 0 < i ∧ i ≤ k ∧ a = b + i

theorem gap_add (b : ZMod n) {k : ℕ} (hk : k < n) : gap b (b + k) = k := by
  rw [gap, add_sub_cancel_left]
  exact ZMod.val_natCast_of_lt hk

theorem follows_zero (b a : ZMod n) : ¬ Follows b 0 a := by
  rintro ⟨i, hpos, hle, -⟩
  exact absurd hpos (Nat.not_lt.mpr hle)

theorem follows_succ {b a : ZMod n} {k : ℕ} :
    Follows b (k + 1) a ↔ a = b + 1 ∨ Follows (b + 1) k a := by
  constructor
  · rintro ⟨i, hpos, hle, rfl⟩
    obtain ⟨j, rfl⟩ := Nat.exists_eq_succ_of_ne_zero hpos.ne'
    rcases Nat.eq_zero_or_pos j with rfl | hj
    · exact .inl (by rw [Nat.cast_one])
    · refine .inr ⟨j, hj, Nat.le_of_succ_le_succ hle, ?_⟩
      rw [Nat.cast_succ, add_assoc, add_comm (1 : ZMod n)]
  · rintro (rfl | ⟨i, hpos, hle, rfl⟩)
    · exact ⟨1, Nat.one_pos, Nat.succ_le_succ (Nat.zero_le k), by rw [Nat.cast_one]⟩
    · refine ⟨i + 1, Nat.succ_pos i, Nat.succ_le_succ hle, ?_⟩
      rw [Nat.cast_succ, add_assoc, add_comm (1 : ZMod n)]

variable [NeZero n]

theorem gap_lt (b a : ZMod n) : gap b a < n := ZMod.val_lt _

theorem add_gap (b a : ZMod n) : b + gap b a = a := by
  rw [gap, ZMod.natCast_zmod_val]
  exact add_sub_cancel b a

theorem follows_iff {b a : ZMod n} {k : ℕ} (hk : k < n) :
    Follows b k a ↔ 0 < gap b a ∧ gap b a ≤ k := by
  constructor
  · rintro ⟨i, hpos, hle, rfl⟩
    rw [gap_add b (hle.trans_lt hk)]
    exact ⟨hpos, hle⟩
  · rintro ⟨hpos, hle⟩
    exact ⟨gap b a, hpos, hle, (add_gap b a).symm⟩

theorem gap_of_le {b a : ZMod n} {k : ℕ} (h : k ≤ gap b a) : gap (b + (k : ZMod n)) a = gap b a - k := by
  -- a start that moves on gets nearer to what is still ahead of it
  have hk : (k : ZMod n).val = k := ZMod.val_natCast_of_lt (h.trans_lt (gap_lt b a))
  rw [gap, ← sub_sub, ZMod.val_sub (hk.le.trans h), hk]
  rfl

theorem gap_of_lt {b a : ZMod n} {k : ℕ} (hk : k < n) (h : gap b a < k) :
    gap (b + (k : ZMod n)) a = n - (k - gap b a) := by
  have hback : gap a (b + k) = k - gap b a := by
    have hadd : a + (k - gap b a : ℕ) = b + k := by
      calc a + (k - gap b a : ℕ) = b + gap b a + (k - gap b a : ℕ) := by rw [add_gap]
        _ = b + (gap b a + (k - gap b a) : ℕ) := by rw [Nat.cast_add, add_assoc]
        _ = b + k := by rw [Nat.add_sub_cancel' h.le]
    rw [← hadd, gap_add a ((Nat.sub_le _ _).trans_lt hk)]
  have hne : (b + k) - a ≠ 0 := by
    intro hzero
    rw [gap, hzero, ZMod.val_zero] at hback
    exact absurd hback.symm (Nat.sub_pos_of_lt h).ne'
  rw [gap, ← neg_sub, ZMod.neg_val, if_neg hne, ← hback]
  rfl

theorem after_add_iff {b a : ZMod n} {k : ℕ} (hk : 2 * k < n) (ha : After a b) :
    After a (b + k) ↔ ¬ Follows b k a := by
  have hkn : k < n := by omega
  obtain ⟨hpos, hhalf⟩ := ha
  rw [follows_iff hkn, not_and]
  rcases Nat.lt_or_ge (gap b a) k with hlt | hle
  · refine iff_of_false (fun hafter => ?_) fun h => h hpos hlt.le
    rw [After, gap_of_lt hkn hlt] at hafter
    omega
  · rw [After, gap_of_le hle]
    omega

end Serial
