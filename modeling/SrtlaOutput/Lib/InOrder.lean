import Mathlib.Data.List.Forall2

/-! Lists whose entries come from those of another list, in its order and each at most once. -/

namespace InOrder

variable {α β : Type*} {R : α → β → Prop} {as as' : List α} {bs bs' : List β}

theorem of_sublist (h : as.Sublist as') (h' : List.SublistForall₂ R as' bs) :
    List.SublistForall₂ R as bs := by
  induction h' generalizing as with
  | nil =>
    obtain rfl := List.sublist_nil.mp h
    exact .nil
  | cons hab _ ih =>
    cases h with
    | cons _ h => exact .cons_right (ih h)
    | cons_cons _ h => exact .cons hab (ih h)
  | cons_right _ ih => exact .cons_right (ih h)

theorem append_left (h : List.SublistForall₂ R as bs) (bs' : List β) :
    List.SublistForall₂ R as (bs' ++ bs) := by
  induction bs' with
  | nil => exact h
  | cons b bs' ih => exact .cons_right ih

theorem append (h : List.SublistForall₂ R as bs) (h' : List.SublistForall₂ R as' bs') :
    List.SublistForall₂ R (as ++ as') (bs ++ bs') := by
  induction h with
  | nil => exact append_left h' _
  | cons hab _ ih => exact .cons hab ih
  | cons_right _ ih => exact .cons_right ih

theorem append_right (h : List.SublistForall₂ R as bs) (bs' : List β) :
    List.SublistForall₂ R as (bs ++ bs') := by
  have happend := append h (.nil : List.SublistForall₂ R [] bs')
  rwa [List.append_nil] at happend

end InOrder
