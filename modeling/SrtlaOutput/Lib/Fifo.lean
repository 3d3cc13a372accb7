import SrtlaOutput.Lib.Reactive

/-! Queues inside a machine. Each input may offer items to the queue and hand items out
of it; an input that drops loses one. A run hands out the queued sequence exactly when
none of its inputs drops. -/

namespace Fifo

variable {σ α ω β : Type*}

def along (step : σ → α → σ × ω) (items : σ → α → List β) : σ → List α → List β
  | _, [] => []
  | s, a :: as => items s a ++ along step items (step s a).1 as

def Never (step : σ → α → σ × ω) (drops : σ → α → Prop) : σ → List α → Prop
  | _, [] => True
  | s, a :: as => ¬drops s a ∧ Never step drops (step s a).1 as

structure Conserves (step : σ → α → σ × ω) (contents : σ → List β)
    (offered delivered : σ → α → List β) (drops : σ → α → Prop) (I : σ → Prop) (P : α → Prop) :
    Prop where
  keeps : ∀ s a, I s → P a → I (step s a).1
  kept : ∀ s a, I s → P a → ¬drops s a →
    delivered s a ++ contents (step s a).1 = contents s ++ offered s a
  lost : ∀ s a, I s → P a → drops s a →
    (delivered s a ++ contents (step s a).1).length < (contents s ++ offered s a).length

variable {step : σ → α → σ × ω} {contents : σ → List β} {offered delivered : σ → α → List β}
  {drops : σ → α → Prop} {I : σ → Prop} {P : α → Prop}

theorem Conserves.conserved (h : Conserves step contents offered delivered drops I P) {s : σ}
    (hs : I s) {as : List α} (has : ∀ a ∈ as, P a) (hnever : Never step drops s as) :
    along step delivered s as ++ contents (Reactive.exec step s as) =
      contents s ++ along step offered s as := by
  induction as generalizing s with
  | nil => simp [along, Reactive.exec]
  | cons a as ih =>
    have ha : P a := has a List.mem_cons_self
    have hstep := h.kept s a hs ha hnever.1
    have hrest := ih (h.keeps s a hs ha) (fun b hb => has b (List.mem_cons_of_mem a hb)) hnever.2
    simp only [along, Reactive.exec]
    rw [List.append_assoc, hrest, ← List.append_assoc, hstep, List.append_assoc]

theorem Conserves.length_le (h : Conserves step contents offered delivered drops I P) {s : σ}
    (hs : I s) {as : List α} (has : ∀ a ∈ as, P a) :
    (along step delivered s as ++ contents (Reactive.exec step s as)).length ≤
      (contents s ++ along step offered s as).length := by
  induction as generalizing s with
  | nil => simp [along, Reactive.exec]
  | cons a as ih =>
    have ha : P a := has a List.mem_cons_self
    have hrest := ih (h.keeps s a hs ha) fun b hb => has b (List.mem_cons_of_mem a hb)
    have hstep : (delivered s a ++ contents (step s a).1).length ≤
        (contents s ++ offered s a).length := by
      by_cases hdrop : drops s a
      · exact Nat.le_of_lt (h.lost s a hs ha hdrop)
      · exact Nat.le_of_eq (congrArg List.length (h.kept s a hs ha hdrop))
    simp only [along, Reactive.exec, List.length_append] at hrest hstep ⊢
    omega

theorem Conserves.conserved_iff (h : Conserves step contents offered delivered drops I P) {s : σ}
    (hs : I s) {as : List α} (has : ∀ a ∈ as, P a) :
    along step delivered s as ++ contents (Reactive.exec step s as) =
        contents s ++ along step offered s as ↔ Never step drops s as := by
  refine ⟨fun hall => ?_, h.conserved hs has⟩
  induction as generalizing s with
  | nil => trivial
  | cons a as ih =>
    have ha : P a := has a List.mem_cons_self
    have has' : ∀ b ∈ as, P b := fun b hb => has b (List.mem_cons_of_mem a hb)
    have hkeeps := h.keeps s a hs ha
    have hlength := congrArg List.length hall
    have hrest := h.length_le hkeeps has'
    by_cases hdrop : drops s a
    · have hless := h.lost s a hs ha hdrop
      simp only [along, Reactive.exec, List.length_append] at hlength hrest hless
      omega
    · refine ⟨hdrop, ih hkeeps has' ?_⟩
      have hstep := h.kept s a hs ha hdrop
      simp only [along, Reactive.exec, List.append_assoc] at hall
      rw [← List.append_assoc (contents s), ← hstep, List.append_assoc] at hall
      exact List.append_cancel_left hall

end Fifo
