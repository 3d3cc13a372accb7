import Mathlib.Data.List.Basic
import Mathlib.Data.List.Induction

/-! Conditions that are looked at now and then: since when one has held at every look, and a
switch that stays as it was put. -/

namespace Dwell

structure Look where
  time : ℕ
  holds : Bool

/-- A timer that runs while the condition holds. -/
def tick (start : Option ℕ) (l : Look) : Option ℕ :=
  if l.holds then some (start.getD l.time) else none

def since (h : List Look) : Option ℕ := h.foldl tick none

/-- The condition has held from the look at time `t` on, and did not hold before it. -/
def HeldSince (h : List Look) (t : ℕ) : Prop :=
  ∃ before first rest, h = before ++ first :: rest ∧ first.time = t ∧
    (∀ l ∈ first :: rest, l.holds = true) ∧ ∀ l ∈ before.getLast?, l.holds = false

theorem since_concat (h : List Look) (l : Look) : since (h ++ [l]) = tick (since h) l :=
  List.foldl_concat _ _ _ _

theorem since_eq_none_iff {h : List Look} : since h = none ↔ ∀ l ∈ h.getLast?, l.holds = false := by
  induction h using List.reverseRecOn with
  | nil => exact iff_of_true rfl fun l hl => absurd hl (Option.not_mem_none l)
  | append_singleton h l ih =>
    rw [since_concat, tick, List.getLast?_concat]
    cases hl : l.holds with
    | true =>
      refine iff_of_false (Option.some_ne_none _) fun hlast => ?_
      exact absurd (hl.symm.trans (hlast l rfl)) Bool.noConfusion
    | false =>
      refine iff_of_true rfl fun l' hl' => ?_
      obtain rfl := Option.some_inj.mp hl'
      exact hl

theorem heldSince_concat {h : List Look} {l : Look} {t : ℕ} :
    HeldSince (h ++ [l]) t ↔
      l.holds = true ∧ (HeldSince h t ∨ l.time = t ∧ ∀ l' ∈ h.getLast?, l'.holds = false) := by
  constructor
  · rintro ⟨before, first, rest, hsplit, htime, hrun, hbefore⟩
    rcases List.eq_nil_or_concat' rest with rfl | ⟨rest, last, rfl⟩
    · obtain ⟨rfl, hl⟩ := List.append_inj' hsplit rfl
      obtain rfl := List.singleton_inj.mp hl
      exact ⟨hrun l List.mem_cons_self, .inr ⟨htime, hbefore⟩⟩
    · rw [← List.cons_append, ← List.append_assoc] at hsplit
      obtain ⟨rfl, hl⟩ := List.append_inj' hsplit rfl
      obtain rfl := List.singleton_inj.mp hl
      refine ⟨hrun l ?_, .inl ⟨before, first, rest, rfl, htime, fun l' hl' => hrun l' ?_, hbefore⟩⟩
      · exact List.mem_cons_of_mem _ (List.mem_append_right _ List.mem_cons_self)
      · rw [← List.cons_append]
        exact List.mem_append_left _ hl'
  · rintro ⟨hl, ⟨before, first, rest, rfl, htime, hrun, hbefore⟩ | ⟨htime, hlast⟩⟩
    · refine ⟨before, first, rest ++ [l], by rw [List.append_assoc, List.cons_append], htime, ?_, hbefore⟩
      rw [← List.cons_append]
      exact List.forall_mem_append.mpr ⟨hrun, List.forall_mem_singleton.mpr hl⟩
    · exact ⟨h, l, [], rfl, htime, List.forall_mem_singleton.mpr hl, hlast⟩

theorem since_eq_some_iff {h : List Look} {t : ℕ} : since h = some t ↔ HeldSince h t := by
  induction h using List.reverseRecOn with
  | nil =>
    refine iff_of_false (Option.some_ne_none t).symm ?_
    rintro ⟨before, first, rest, hnil, -⟩
    exact absurd hnil.symm (List.append_ne_nil_of_right_ne_nil _ (List.cons_ne_nil _ _))
  | append_singleton h l ih =>
    rw [since_concat, heldSince_concat, tick, ← ih, ← since_eq_none_iff]
    cases l.holds with
    | false => exact iff_of_false (Option.some_ne_none t).symm fun hl => absurd hl.1 Bool.false_ne_true
    | true =>
      cases since h with
      | none => simp
      | some t' => simp

/-! A switch, over all moments of a history. -/

variable {α : Type*} {put clear : List α → Prop}

/-- What a moment puts on or leaves on is on when it was put on and not cleared since. -/
theorem on_iff (on : List α → Prop) (hnil : ¬ on []) (hput : ¬ put []) (h : List α)
    (hstep : ∀ p a, p ++ [a] <+: h → (on (p ++ [a]) ↔ put (p ++ [a]) ∨ on p ∧ ¬ clear (p ++ [a]))) :
    on h ↔ ∃ p, p <+: h ∧ put p ∧ ∀ q, p <+: q → q <+: h → q ≠ p → ¬ clear q := by
  induction h using List.reverseRecOn with
  | nil =>
    refine iff_of_false hnil ?_
    rintro ⟨p, hp, hon, -⟩
    exact hput (List.prefix_nil.mp hp ▸ hon)
  | append_singleton h a ih =>
    rw [hstep h a (List.prefix_refl _), ih fun p b hp => hstep p b (hp.trans (List.prefix_append h [a]))]
    constructor
    · rintro (hnow | ⟨⟨p, hp, hon, hkept⟩, hclear⟩)
      · exact ⟨_, List.prefix_refl _, hnow, fun q hq hqh hne => absurd (hqh.eq_of_length_le hq.length_le) hne⟩
      · refine ⟨p, hp.trans (List.prefix_append h [a]), hon, fun q hpq hqh hne => ?_⟩
        rcases List.prefix_concat_iff.mp hqh with rfl | hqh
        · exact hclear
        · exact hkept q hpq hqh hne
    · rintro ⟨p, hp, hon, hkept⟩
      rcases List.prefix_concat_iff.mp hp with rfl | hp
      · exact .inl hon
      · have hne : h ++ [a] ≠ p := by
          rintro rfl
          exact absurd hp.length_le (by rw [List.length_append]; exact Nat.not_succ_le_self _)
        refine .inr ⟨⟨p, hp, hon, fun q hpq hqh hqp => ?_⟩, ?_⟩
        · exact hkept q hpq (hqh.trans (List.prefix_append h [a])) hqp
        · exact hkept _ (hp.trans (List.prefix_append h [a])) (List.prefix_refl _) hne

end Dwell
