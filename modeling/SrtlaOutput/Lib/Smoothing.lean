import Mathlib.Algebra.Order.Archimedean.Basic
import Mathlib.Algebra.Order.Field.Basic
import Mathlib.Tactic.Linarith
import Mathlib.Tactic.Ring

/-! Smoothing filters over an ordered field: a weighted average of the last value and a
new sample, a peak that decays between its samples, and a minimum that drifts upwards.
Their ranges, and where they go when the sample stays the same. -/

namespace Smoothing

variable {K : Type*} [Field K] [LinearOrder K] [IsStrictOrderedRing K]

def average (p q a x : K) : K := a * p + x * q

def peak (p a x : K) : K := if a * p < x then x else a * p

section Ranges
variable {p q a x lo hi : K}

theorem le_average (hpq : p + q = 1) (hp : 0 ≤ p) (hq : 0 ≤ q) (ha : lo ≤ a) (hx : lo ≤ x) :
    lo ≤ average p q a x := by
  have hap := mul_le_mul_of_nonneg_right ha hp
  have hxq := mul_le_mul_of_nonneg_right hx hq
  calc lo = lo * p + lo * q := by rw [← mul_add, hpq, mul_one]
    _ ≤ average p q a x := add_le_add hap hxq

theorem average_le (hpq : p + q = 1) (hp : 0 ≤ p) (hq : 0 ≤ q) (ha : a ≤ hi) (hx : x ≤ hi) :
    average p q a x ≤ hi := by
  have hap := mul_le_mul_of_nonneg_right ha hp
  have hxq := mul_le_mul_of_nonneg_right hx hq
  calc average p q a x ≤ hi * p + hi * q := add_le_add hap hxq
    _ = hi := by rw [← mul_add, hpq, mul_one]

theorem peak_nonneg (hp : 0 ≤ p) (ha : 0 ≤ a) : 0 ≤ peak p a x := by
  have hap := mul_nonneg ha hp
  unfold peak
  split_ifs with h
  · exact hap.trans h.le
  · exact hap

theorem peak_le (hp : p ≤ 1) (ha : 0 ≤ a) (hahi : a ≤ hi) (hx : x ≤ hi) : peak p a x ≤ hi := by
  unfold peak
  split_ifs
  · exact hx
  · exact (mul_le_of_le_one_right ha hp).trans hahi

theorem average_sub (hpq : p + q = 1) : average p q a x - x = (a - x) * p := by
  have hq : q = 1 - p := by linarith
  rw [average, hq]
  ring

end Ranges

/-! Sequences. -/

variable {p : K} {x : ℕ → K}

theorem le_geometric (hp : 0 ≤ p) (hx : ∀ n, x (n + 1) ≤ x n * p) (n : ℕ) :
    x n ≤ x 0 * p ^ n := by
  induction n with
  | zero => simp
  | succ n ih =>
    calc x (n + 1) ≤ x n * p := hx n
      _ ≤ x 0 * p ^ n * p := mul_le_mul_of_nonneg_right ih hp
      _ = x 0 * p ^ (n + 1) := by ring

theorem eventually_lt [Archimedean K] (hp : 0 ≤ p) (hp1 : p < 1) (hx : ∀ n, x (n + 1) ≤ x n * p)
    {ε : K} (hε : 0 < ε) : ∃ N, ∀ n ≥ N, x n < ε := by
  have hbig : 0 < |x 0| + 1 := by positivity
  obtain ⟨N, hN⟩ := exists_pow_lt_of_lt_one (div_pos hε hbig) hp1
  refine ⟨N, fun n hn => ?_⟩
  have hpow : p ^ n ≤ p ^ N := pow_le_pow_of_le_one hp hp1.le hn
  have hpn : 0 ≤ p ^ n := pow_nonneg hp n
  calc x n ≤ x 0 * p ^ n := le_geometric hp hx n
    _ ≤ (|x 0| + 1) * p ^ n :=
      mul_le_mul_of_nonneg_right ((le_abs_self _).trans (by linarith)) hpn
    _ ≤ (|x 0| + 1) * p ^ N := mul_le_mul_of_nonneg_left hpow hbig.le
    _ < ε := by rwa [mul_comm, ← lt_div_iff₀ hbig]

theorem eventually_ge [Archimedean K] {g y : K} (hg : 1 < g) (hy : 0 ≤ y) (hx0 : 0 < x 0)
    (hx : ∀ n, min (x n * g) y ≤ x (n + 1)) : ∃ N, ∀ n ≥ N, y ≤ x n := by
  have hg0 : 0 < g := zero_lt_one.trans hg
  have hgrow : ∀ n, min (x 0 * g ^ n) y ≤ x n := by
    intro n
    induction n with
    | zero => simp
    | succ n ih =>
      apply (le_min ?_ (min_le_right _ _)).trans (hx n)
      rcases min_le_iff.mp ih with hle | hle
      · apply (min_le_left _ _).trans
        calc x 0 * g ^ (n + 1) = x 0 * g ^ n * g := by ring
          _ ≤ x n * g := mul_le_mul_of_nonneg_right hle hg0.le
      · apply (min_le_right _ _).trans
        exact hle.trans (le_mul_of_one_le_right (hy.trans hle) hg.le)
  obtain ⟨N, hN⟩ := pow_unbounded_of_one_lt (y / x 0) hg
  refine ⟨N, fun n hn => ?_⟩
  have hpow : g ^ N ≤ g ^ n := pow_le_pow_right₀ hg.le hn
  have hreach : y ≤ x 0 * g ^ n := by
    rw [← div_le_iff₀' hx0]
    exact hN.le.trans hpow
  exact (le_min hreach le_rfl).trans (hgrow n)

end Smoothing
