import Mathlib.Data.List.Basic
import Mathlib.Order.Lattice

/-! Loops over a list that change each entry in turn and thread a state through the entries. -/

namespace Sweep

variable {σ α β : Type*}

/-- The state and the entries after the loop; `f` also gets the position of the entry. -/
def run (f : ℕ → σ → α → σ × β) : ℕ → σ → List α → σ × List β
  | _, s, [] => (s, [])
  | i, s, a :: as =>
    let r := f i s a
    let rest := run f (i + 1) r.1 as
    (rest.1, r.2 :: rest.2)

variable {f : ℕ → σ → α → σ × β}

@[simp] theorem run_nil (i : ℕ) (s : σ) : run f i s [] = (s, []) := rfl

theorem run_cons (i : ℕ) (s : σ) (a : α) (as : List α) :
    run f i s (a :: as) =
      ((run f (i + 1) (f i s a).1 as).1, (f i s a).2 :: (run f (i + 1) (f i s a).1 as).2) :=
  rfl

theorem run_getElem? {J : σ → Prop} {i : ℕ} {s : σ} {as : List α}
    (hJ : ∀ i s a, a ∈ as → J s → J (f i s a).1) (hs : J s) {k : ℕ} {b : β}
    (h : (run f i s as).2[k]? = some b) :
    ∃ a t, as[k]? = some a ∧ J t ∧ b = (f (i + k) t a).2 := by
  induction as generalizing i s k with
  | nil => exact absurd h (by simp)
  | cons a as ih =>
    rw [run_cons] at h
    cases k with
    | zero => exact ⟨a, s, rfl, hs, (Option.some_inj.mp h).symm⟩
    | succ k =>
      obtain ⟨a', t, ha', ht, rfl⟩ := ih (fun i s b hb => hJ i s b (List.mem_cons_of_mem a hb))
        (hJ i s a List.mem_cons_self hs) (k := k) h
      exact ⟨a', t, ha', ht, by rw [Nat.add_right_comm, Nat.add_assoc]⟩

theorem getElem?_run {i : ℕ} {s : σ} {as : List α} {k : ℕ} {a : α} (h : as[k]? = some a) :
    ∃ t, (run f i s as).2[k]? = some (f (i + k) t a).2 := by
  induction as generalizing i s k with
  | nil => exact absurd h (Option.some_ne_none a).symm
  | cons b as ih =>
    rw [run_cons]
    cases k with
    | zero =>
      obtain rfl := Option.some_inj.mp h
      exact ⟨s, rfl⟩
    | succ k =>
      obtain ⟨t, ht⟩ := ih (i := i + 1) (s := (f i s b).1) h
      rw [Nat.add_right_comm, Nat.add_assoc] at ht
      exact ⟨t, ht⟩

theorem run_state {J : σ → Prop} {i : ℕ} {s : σ} {as : List α}
    (hJ : ∀ i s a, a ∈ as → J s → J (f i s a).1) (hs : J s) : J (run f i s as).1 := by
  induction as generalizing i s with
  | nil => exact hs
  | cons a as ih =>
    rw [run_cons]
    exact ih (fun i s b hb => hJ i s b (List.mem_cons_of_mem a hb)) (hJ i s a List.mem_cons_self hs)

theorem forall_run {I : β → Prop} {i : ℕ} {s : σ} {as : List α}
    (hI : ∀ i s a, a ∈ as → I (f i s a).2) : ∀ b ∈ (run f i s as).2, I b := by
  intro b hb
  obtain ⟨k, hk⟩ := List.mem_iff_getElem?.mp hb
  obtain ⟨a, t, ha, -, rfl⟩ :=
    run_getElem? (J := fun _ => True) (fun _ _ _ _ _ => trivial) trivial hk
  exact hI _ t a (List.mem_of_getElem? ha)

theorem map_run {γ : Type*} {g : β → γ} {g' : α → γ} {i : ℕ} {s : σ} {as : List α}
    (h : ∀ i s a, a ∈ as → g (f i s a).2 = g' a) : (run f i s as).2.map g = as.map g' := by
  induction as generalizing i s with
  | nil => rfl
  | cons a as ih =>
    rw [run_cons, List.map_cons, List.map_cons, h i s a List.mem_cons_self,
      ih fun i s b hb => h i s b (List.mem_cons_of_mem a hb)]

theorem run_at {f : ℕ → σ → α → σ × α} {sel : ℕ} (h : ∀ i s a, i ≠ sel → f i s a = (s, a)) (i : ℕ)
    (s : σ) (as : List α) :
    run f i s as = (if i ≤ sel then as[sel - i]? else none).elim (s, as) fun a =>
      ((f sel s a).1, as.set (sel - i) (f sel s a).2) := by
  induction as generalizing i s with
  | nil => simp
  | cons a as ih =>
    rw [run_cons]
    rcases lt_trichotomy i sel with hi | rfl | hi
    · have hsucc : sel - i = (sel - (i + 1)) + 1 := by omega
      rw [h i s a hi.ne, ih, if_pos (Nat.succ_le_of_lt hi), if_pos hi.le, hsucc,
        List.getElem?_cons_succ]
      cases as[sel - (i + 1)]? <;> rfl
    · have hnext : ¬ i + 1 ≤ i := by omega
      rw [ih, if_neg hnext, if_pos le_rfl, Nat.sub_self]
      rfl
    · have hnext : ¬ i + 1 ≤ sel := by omega
      rw [h i s a hi.ne', ih, if_neg hnext, if_neg (Nat.not_le.mpr hi)]
      rfl

end Sweep
