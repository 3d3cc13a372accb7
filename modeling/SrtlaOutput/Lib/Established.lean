import Mathlib.Data.List.Induction

/-! Facts that some steps of a history establish and others end. Such a fact holds at the end
exactly when some step established it and no step after that one ended it. -/

namespace Established

variable {σ α : Type*}

/-- How the steps of a history bear on a fact. -/
structure By (step : σ → α → σ) (P : σ → Prop) (sets ends : α → Prop) : Prop where
  set : ∀ s a, sets a → P (step s a)
  ended : ∀ s a, ends a → ¬ P (step s a)
  kept : ∀ s a, ¬ sets a → ¬ ends a → (P (step s a) ↔ P s)

variable {step : σ → α → σ} {P : σ → Prop} {sets ends : α → Prop}

theorem By.foldl_iff (h : By step P sets ends) {s : σ} (hs : ¬ P s) (as : List α) :
    P (as.foldl step s) ↔
      ∃ before a after, as = before ++ a :: after ∧ sets a ∧ ∀ b ∈ after, ¬ sets b ∧ ¬ ends b := by
  induction as using List.reverseRecOn with
  | nil =>
    refine iff_of_false hs ?_
    rintro ⟨before, a, after, hnil, -⟩
    exact List.append_ne_nil_of_right_ne_nil before (List.cons_ne_nil a after) hnil.symm
  | append_singleton as b ih =>
    rw [List.foldl_append, List.foldl_cons, List.foldl_nil]
    constructor
    · intro hP
      by_cases hset : sets b
      · exact ⟨as, b, [], rfl, hset, fun c hc => absurd hc List.not_mem_nil⟩
      · have hend : ¬ ends b := fun hb => h.ended _ b hb hP
        obtain ⟨before, a, after, rfl, ha, hafter⟩ := ih.mp ((h.kept _ b hset hend).mp hP)
        refine ⟨before, a, after ++ [b], by simp, ha, fun c hc => ?_⟩
        rcases List.mem_append.mp hc with hc | hc
        · exact hafter c hc
        · exact List.mem_singleton.mp hc ▸ ⟨hset, hend⟩
    · rintro ⟨before, a, after, hsplit, ha, hafter⟩
      rcases List.eq_nil_or_concat after with rfl | ⟨after', c, rfl⟩
      · obtain ⟨-, rfl⟩ := List.append_inj' hsplit rfl |>.imp id List.singleton_inj.mp
        exact h.set _ b ha
      · rw [List.concat_eq_append] at hafter hsplit
        rw [← List.cons_append, ← List.append_assoc] at hsplit
        obtain ⟨rfl, hlast⟩ := List.append_inj' hsplit rfl
        obtain rfl := List.singleton_inj.mp hlast
        obtain ⟨hset, hend⟩ := hafter b (List.mem_append_right after' (List.mem_singleton_self b))
        rw [h.kept _ b hset hend, ih]
        exact ⟨before, a, after', rfl, ha, fun d hd => hafter d (List.mem_append_left [b] hd)⟩

end Established
