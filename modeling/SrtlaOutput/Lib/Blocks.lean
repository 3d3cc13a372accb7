import Mathlib.Data.List.Basic

/-! Cutting a stream into blocks of one length. What is left over waits for more, so the
blocks of a stream do not depend on the pieces in which it arrives. -/

namespace Blocks

variable {α : Type*}

def take (n : Nat) : Nat → List α → List (List α) × List α
  | 0, as => ([], as)
  | k + 1, as => (as.take n :: (take n k (as.drop n)).1, (take n k (as.drop n)).2)

def cut (n : Nat) (as : List α) : List (List α) × List α := take n (as.length / n) as

theorem cut_of_lt {n : Nat} {as : List α} (h : as.length < n) : cut n as = ([], as) := by
  rw [cut, Nat.div_eq_of_lt h]
  rfl

theorem cut_of_le {n : Nat} (hn : 0 < n) {as : List α} (h : n ≤ as.length) :
    cut n as = (as.take n :: (cut n (as.drop n)).1, (cut n (as.drop n)).2) := by
  have hdiv : as.length / n = (as.drop n).length / n + 1 := by
    rw [List.length_drop, Nat.div_eq_sub_div hn h]
  rw [cut, hdiv]
  rfl

theorem cut_induction {n : Nat} (hn : 0 < n) {P : List α → Prop}
    (short : ∀ as, as.length < n → P as)
    (block : ∀ as, n ≤ as.length → P (as.drop n) → P as) (as : List α) : P as := by
  induction h : as.length using Nat.strongRecOn generalizing as with
  | _ k ih =>
    by_cases hlt : as.length < n
    · exact short as hlt
    · apply block as (Nat.not_lt.mp hlt)
      apply ih (as.drop n).length _ _ rfl
      rw [List.length_drop]
      omega

theorem length_cut {n : Nat} (hn : 0 < n) (as : List α) :
    (cut n as).1.length = as.length / n ∧ (cut n as).2.length = as.length % n := by
  induction as using cut_induction hn with
  | short as h =>
    rw [cut_of_lt h, Nat.div_eq_of_lt h, Nat.mod_eq_of_lt h]
    exact ⟨rfl, rfl⟩
  | block as h ih =>
    rw [List.length_drop] at ih
    rw [cut_of_le hn h, List.length_cons, ih.1, ih.2, Nat.div_eq_sub_div hn h,
      Nat.mod_eq_sub_mod h]
    exact ⟨rfl, rfl⟩

theorem length_of_mem_cut {n : Nat} (hn : 0 < n) {as b : List α} (hb : b ∈ (cut n as).1) :
    b.length = n := by
  induction as using cut_induction hn with
  | short as h =>
    rw [cut_of_lt h] at hb
    cases hb
  | block as h ih =>
    rw [cut_of_le hn h] at hb
    rcases List.mem_cons.mp hb with rfl | hrest
    · rw [List.length_take]
      exact Nat.min_eq_left h
    · exact ih hrest

theorem flatten_cut {n : Nat} (hn : 0 < n) (as : List α) :
    (cut n as).1.flatten ++ (cut n as).2 = as := by
  induction as using cut_induction hn with
  | short as h =>
    rw [cut_of_lt h]
    rfl
  | block as h ih =>
    rw [cut_of_le hn h, List.flatten_cons, List.append_assoc, ih]
    exact List.take_append_drop n as

theorem cut_append {n : Nat} (hn : 0 < n) (as bs : List α) :
    cut n (as ++ bs) = ((cut n as).1 ++ (cut n ((cut n as).2 ++ bs)).1,
      (cut n ((cut n as).2 ++ bs)).2) := by
  induction as using cut_induction hn with
  | short as h =>
    rw [cut_of_lt h]
    rfl
  | block as h ih =>
    have hle : n ≤ (as ++ bs).length := by
      rw [List.length_append]
      omega
    rw [cut_of_le hn hle, cut_of_le hn h, List.take_append_of_le_length h,
      List.drop_append_of_le_length h, ih]
    rfl

end Blocks
