import Mathlib.Data.List.Chain

/-! Machines that keep a deadline in their state. Each input may make the machine emit
an event; `due` says that the deadline of a state lets an event happen, and an event of
the watched kind sets it anew. Between two such events the deadline may only stay or be
moved to where it allows no more, so events that follow one another are spaced. -/

namespace Deadline

variable {σ α ε : Type*}

def events (next : σ → α → σ) (emit : σ → α → Option ε) : σ → List α → List ε
  | _, [] => []
  | s, a :: as => (emit s a).toList ++ events next emit (next s a) as

structure Keeps (next : σ → α → σ) (emit : σ → α → Option ε) (watched : ε → Bool)
    (due : σ → ε → Prop) (R : ε → ε → Prop) : Prop where
  idle : ∀ s a, (∀ e ∈ emit s a, watched e = false) → ∀ e, due (next s a) e → due s e
  fires : ∀ s a, ∀ e ∈ emit s a, watched e = true → due s e
  sets : ∀ s a, ∀ e ∈ emit s a, watched e = true → ∀ e', due (next s a) e' → R e e'

variable {next : σ → α → σ} {emit : σ → α → Option ε} {watched : ε → Bool}
  {due : σ → ε → Prop} {R : ε → ε → Prop}

theorem Keeps.due_head (h : Keeps next emit watched due R) (as : List α) (s : σ) :
    ∀ e ∈ ((events next emit s as).filter watched).head?, due s e := by
  induction as generalizing s with
  | nil => simp [events]
  | cons a as ih =>
    cases hemit : emit s a with
    | none =>
      simp only [events, hemit, Option.toList_none, List.nil_append]
      exact fun e he => h.idle s a (by simp [hemit]) e (ih _ e he)
    | some e₀ =>
      simp only [events, hemit, Option.toList_some, List.cons_append, List.nil_append]
      cases hwatched : watched e₀ with
      | true =>
        rw [List.filter_cons_of_pos hwatched]
        intro e he
        obtain rfl : e₀ = e := by simpa using he
        exact h.fires s a e₀ hemit hwatched
      | false =>
        rw [List.filter_cons_of_neg (by simp [hwatched])]
        have hidle : ∀ e ∈ emit s a, watched e = false := by
          intro e he
          obtain rfl : e₀ = e := by simpa [hemit] using he
          exact hwatched
        exact fun e he => h.idle s a hidle e (ih _ e he)

theorem Keeps.isChain (h : Keeps next emit watched due R) (as : List α) (s : σ) :
    ((events next emit s as).filter watched).IsChain R := by
  induction as generalizing s with
  | nil => exact .nil
  | cons a as ih =>
    cases hemit : emit s a with
    | none =>
      simp only [events, hemit, Option.toList_none, List.nil_append]
      exact ih _
    | some e₀ =>
      simp only [events, hemit, Option.toList_some, List.cons_append, List.nil_append]
      cases hwatched : watched e₀ with
      | true =>
        rw [List.filter_cons_of_pos hwatched]
        apply List.isChain_cons.mpr
        refine ⟨fun e he => ?_, ih _⟩
        exact h.sets s a e₀ hemit hwatched e (h.due_head as _ e he)
      | false =>
        rw [List.filter_cons_of_neg (by simp [hwatched])]
        exact ih _

theorem forall_mem_events {P : ε → Prop} (h : ∀ s a, ∀ e ∈ emit s a, P e) (as : List α) (s : σ) :
    ∀ e ∈ events next emit s as, P e := by
  induction as generalizing s with
  | nil => simp [events]
  | cons a as ih =>
    intro e he
    rcases List.mem_append.mp he with hhead | htail
    · exact h s a e (Option.mem_toList.mp hhead)
    · exact ih _ e htail

end Deadline
