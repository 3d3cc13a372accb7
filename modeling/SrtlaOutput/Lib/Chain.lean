import Mathlib.Data.List.Chain

/-! Chains that lose some of their entries. -/

namespace Chain

variable {α : Type*} {R : α → α → Prop} {p : α → Bool}

theorem rel_head_filter (hskip : ∀ a b c, p b = false → R a b → R b c → R a c) {a : α}
    {l : List α} (h : (a :: l).IsChain R) : ∀ c ∈ (l.filter p).head?, R a c := by
  induction l generalizing a with
  | nil => simp
  | cons b l ih =>
    obtain ⟨hab, hrest⟩ := List.isChain_cons_cons.mp h
    cases hb : p b with
    | true =>
      rw [List.filter_cons_of_pos hb]
      intro c hc
      obtain rfl : b = c := by simpa using hc
      exact hab
    | false =>
      rw [List.filter_cons_of_neg (by simp [hb])]
      intro c hc
      exact hskip a b c hb hab (ih hrest c hc)

theorem isChain_filter (hskip : ∀ a b c, p b = false → R a b → R b c → R a c) {l : List α}
    (h : l.IsChain R) : (l.filter p).IsChain R := by
  induction l with
  | nil => exact .nil
  | cons a l ih =>
    have hrest := ih (List.isChain_cons.mp h).2
    cases ha : p a with
    | true =>
      rw [List.filter_cons_of_pos ha]
      exact List.isChain_cons.mpr ⟨rel_head_filter hskip h, hrest⟩
    | false =>
      rw [List.filter_cons_of_neg (by simp [ha])]
      exact hrest

theorem isChain_concat {l : List α} {a : α} (h : l.IsChain R) (hlast : ∀ x ∈ l.getLast?, R x a) :
    (l ++ [a]).IsChain R := by
  apply h.append (.singleton a)
  intro x hx y hy
  obtain rfl : a = y := by simpa using hy
  exact hlast x hx

end Chain
