import Mathlib.Algebra.BigOperators.Group.List.Basic
import Mathlib.Algebra.GroupWithZero.Nat
import Mathlib.Algebra.Order.BigOperators.Group.List
import Mathlib.Algebra.Order.Group.Nat
import Mathlib.Data.UInt

/-! Sums of 64-bit words. An iterator adds one word after the other, and an addition that
leaves the range wraps in one build and stops the program in another. -/

namespace Checked

/-- An addition, `none` where it leaves the range. -/
def add (a b : UInt64) : Option UInt64 := if a.toNat + b.toNat < 2 ^ 64 then some (a + b) else none

def sum (words : List UInt64) : Option UInt64 := words.foldlM add 0

def total (words : List UInt64) : Nat := (words.map UInt64.toNat).sum

theorem total_cons (word : UInt64) (words : List UInt64) :
    total (word :: words) = word.toNat + total words := rfl

theorem foldlM_add (start : UInt64) (words : List UInt64) :
    words.foldlM add start =
      if start.toNat + total words < 2 ^ 64 then some (start + words.sum) else none := by
  induction words generalizing start with
  | nil => simp [total, start.toNat_lt]
  | cons word words ih =>
    rw [List.foldlM_cons, add, total_cons, List.sum_cons]
    split_ifs with hhead hall
    · have hnext : (start + word).toNat = start.toNat + word.toNat := by
        rw [UInt64.toNat_add, Nat.mod_eq_of_lt hhead]
      rw [Option.bind_eq_bind, Option.bind_some, ih, hnext, if_pos (by omega), UInt64.add_assoc]
    · have hnext : (start + word).toNat = start.toNat + word.toNat := by
        rw [UInt64.toNat_add, Nat.mod_eq_of_lt hhead]
      rw [Option.bind_eq_bind, Option.bind_some, ih, hnext, if_neg (by omega)]
    · omega
    · rfl

theorem sum_isSome_iff (words : List UInt64) : (sum words).isSome = true ↔ total words < 2 ^ 64 := by
  have hzero : (0 : UInt64).toNat = 0 := rfl
  rw [sum, foldlM_add, hzero, Nat.zero_add]
  split_ifs with hfits
  · exact iff_of_true rfl hfits
  · exact iff_of_false Bool.false_ne_true hfits

theorem toNat_sum (words : List UInt64) : words.sum.toNat = total words % 2 ^ 64 := by
  induction words with
  | nil => rfl
  | cons word words ih =>
    rw [List.sum_cons, UInt64.toNat_add, ih, total_cons, Nat.add_mod_mod]

theorem toNat_sum_of_lt {words : List UInt64} (h : total words < 2 ^ 64) :
    words.sum.toNat = total words := by
  rw [toNat_sum, Nat.mod_eq_of_lt h]

section Filter
variable {α : Type*} {f : α → UInt64} {p q : α → Bool}

theorem total_filter_le (hpq : ∀ a, q a = true → p a = true) (as : List α) :
    total ((as.filter q).map f) ≤ total ((as.filter p).map f) := by
  have hfilter : as.filter q = (as.filter p).filter q := by
    rw [List.filter_filter]
    apply List.filter_congr
    intro a _
    cases hq : q a with
    | false => rfl
    | true => simp [hpq a hq]
  rw [hfilter]
  apply List.Sublist.sum_le_sum
  · exact (List.filter_sublist.map f).map UInt64.toNat
  · exact fun _ _ => Nat.zero_le _

theorem total_filter_eq_iff (hpq : ∀ a, q a = true → p a = true) (as : List α) :
    total ((as.filter p).map f) = total ((as.filter q).map f) ↔
      ∀ a ∈ as, p a = true → q a = false → f a = 0 := by
  induction as with
  | nil => simp
  | cons a as ih =>
    rw [List.forall_mem_cons]
    refine Iff.trans ?_ (and_congr_right' ih)
    have hrest := total_filter_le (f := f) hpq as
    cases hq : q a with
    | true =>
      rw [List.filter_cons_of_pos (hpq a hq), List.filter_cons_of_pos hq, List.map_cons,
        List.map_cons, total_cons, total_cons]
      simp
    | false =>
      cases hp : p a with
      | false =>
        rw [List.filter_cons_of_neg (by simp [hp]), List.filter_cons_of_neg (by simp [hq])]
        simp
      | true =>
        rw [List.filter_cons_of_pos hp, List.filter_cons_of_neg (by simp [hq]), List.map_cons,
          total_cons]
        have hzero : f a = 0 ↔ (f a).toNat = 0 := UInt64.toNat_inj.symm
        simp only [forall_const, hzero]
        omega

end Filter

end Checked
