import Mathlib.Data.List.Basic
import Mathlib.Logic.Function.Basic

/-! Memory as a map from addresses, the stores that a call makes in it, and what is read back. -/

namespace Memory

variable {β : Type*}

def stores : ℕ → List β → List (ℕ × β)
  | _, [] => []
  | a, b :: bs => (a, b) :: stores (a + 1) bs

def apply (m : ℕ → β) (ss : List (ℕ × β)) : ℕ → β :=
  ss.foldl (fun m s => Function.update m s.1 s.2) m

def read (m : ℕ → β) : ℕ → ℕ → List β
  | _, 0 => []
  | a, n + 1 => m a :: read m (a + 1) n

variable {m : ℕ → β} {a n : ℕ} {bs : List β} {ss : List (ℕ × β)}

theorem stores_append (a : ℕ) (bs bs' : List β) :
    stores a (bs ++ bs') = stores a bs ++ stores (a + bs.length) bs' := by
  induction bs generalizing a with
  | nil => rfl
  | cons b bs ih =>
    rw [List.cons_append, stores, stores, ih, List.length_cons, List.cons_append]
    congr 3
    omega

theorem mem_stores {s : ℕ × β} (h : s ∈ stores a bs) : a ≤ s.1 ∧ s.1 < a + bs.length := by
  induction bs generalizing a with
  | nil => cases h
  | cons b bs ih =>
    rw [List.length_cons]
    rcases List.mem_cons.mp h with rfl | hrest
    · exact ⟨Nat.le_refl a, by omega⟩
    · have hregion := ih hrest
      omega

theorem apply_of_ne (h : ∀ s ∈ ss, s.1 ≠ a) : apply m ss a = m a := by
  induction ss generalizing m with
  | nil => rfl
  | cons s ss ih =>
    have hrest : apply (Function.update m s.1 s.2) ss a = Function.update m s.1 s.2 a :=
      ih fun s' hs' => h s' (List.mem_cons_of_mem _ hs')
    have hne : a ≠ s.1 := (h s List.mem_cons_self).symm
    rw [Function.update_of_ne hne] at hrest
    exact hrest

theorem apply_stores_of_outside (h : n < a ∨ a + bs.length ≤ n) :
    apply m (stores a bs) n = m n :=
  apply_of_ne fun s hs => by
    have hregion := mem_stores hs
    omega

theorem read_add (m : ℕ → β) (a n k : ℕ) : read m a (n + k) = read m a n ++ read m (a + n) k := by
  induction n generalizing a with
  | zero => rw [Nat.zero_add]; rfl
  | succ n ih =>
    rw [Nat.succ_add, read, read, ih, List.cons_append]
    congr 3
    omega

theorem read_apply_stores (m : ℕ → β) (a : ℕ) (bs : List β) :
    read (apply m (stores a bs)) a bs.length = bs := by
  induction bs generalizing m a with
  | nil => rfl
  | cons b bs ih =>
    have hrest : read (apply m (stores a (b :: bs))) (a + 1) bs.length = bs :=
      ih (Function.update m a b) (a + 1)
    have hfirst : apply m (stores a (b :: bs)) a = b := by
      show apply (Function.update m a b) (stores (a + 1) bs) a = b
      rw [apply_stores_of_outside (.inl (Nat.lt_succ_self a)), Function.update_self]
    rw [List.length_cons, read, hfirst, hrest]

end Memory
