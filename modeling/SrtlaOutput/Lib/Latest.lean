import Mathlib.Data.List.Induction
import Mathlib.Logic.Nontrivial.Basic

/-! The value that the last of several updates leaves, and when two readers of one list of
updates find the same. -/

namespace Latest

variable {α β σ : Type*}

def last (f : α → Option β) (as : List α) : Option β := as.reverse.findSome? f

@[simp] theorem last_nil (f : α → Option β) : last f [] = none := rfl

@[simp] theorem last_concat (f : α → Option β) (as : List α) (a : α) :
    last f (as ++ [a]) = (f a).or (last f as) := by
  rw [last, List.reverse_append, List.reverse_singleton, List.singleton_append,
    List.findSome?_cons]
  cases f a <;> rfl

theorem last_eq_some {f : α → Option β} {as : List α} {b : β} (h : last f as = some b) :
    ∃ a ∈ as, f a = some b := by
  obtain ⟨a, ha, hfa⟩ := List.exists_of_findSome?_eq_some h
  exact ⟨a, List.mem_reverse.mp ha, hfa⟩

theorem last_map {γ : Type*} (f : β → Option γ) (g : α → β) (as : List α) :
    last f (as.map g) = last (fun a => f (g a)) as := by
  induction as using List.reverseRecOn with
  | nil => rfl
  | append_singleton as a ih => rw [List.map_append, List.map_singleton, last_concat, last_concat, ih]

theorem last_filterMap {γ : Type*} (f : β → Option γ) (g : α → Option β) (as : List α) :
    last f (as.filterMap g) = last (fun a => (g a).bind f) as := by
  induction as using List.reverseRecOn with
  | nil => rfl
  | append_singleton as a ih =>
    rw [List.filterMap_append, last_concat, ← ih]
    cases hg : g a with
    | none => rw [List.filterMap_cons_none hg, List.filterMap_nil, List.append_nil]; rfl
    | some b => rw [List.filterMap_cons_some hg, List.filterMap_nil, last_concat]; rfl

theorem last_filter {f : α → Option β} {p : α → Bool} (h : ∀ a, p a = false → f a = none)
    (as : List α) : last f (as.filter p) = last f as := by
  induction as using List.reverseRecOn with
  | nil => rfl
  | append_singleton as a ih =>
    rw [List.filter_append, last_concat, ← ih]
    cases hp : p a with
    | false => rw [List.filter_cons_of_neg (by simp [hp]), List.filter_nil, List.append_nil, h a hp]; rfl
    | true => rw [List.filter_cons_of_pos hp, List.filter_nil, last_concat]

theorem foldl_eq_last {step : σ → α → σ} {field : σ → β} {f : α → Option β}
    (h : ∀ s a, field (step s a) = (f a).getD (field s)) (as : List α) (s : σ) :
    field (as.foldl step s) = (last f as).getD (field s) := by
  induction as using List.reverseRecOn with
  | nil => rfl
  | append_singleton as a ih =>
    rw [List.foldl_append, List.foldl_cons, List.foldl_nil, h, ih, last_concat]
    cases f a <;> rfl

theorem foldl_or_last {step : σ → α → σ} {field : σ → Option β} {f : α → Option β}
    (h : ∀ s a, field (step s a) = (f a).or (field s)) (as : List α) (s : σ) :
    field (as.foldl step s) = (last f as).or (field s) := by
  induction as using List.reverseRecOn with
  | nil => rfl
  | append_singleton as a ih =>
    rw [List.foldl_append, List.foldl_cons, List.foldl_nil, h, ih, last_concat]
    cases f a <;> rfl

theorem getD_congr_iff {γ : Type*} [Nontrivial γ] {g : γ → β} (hg : Function.Injective g)
    {o o' : Option β} : (∀ c, o.getD (g c) = o'.getD (g c)) ↔ o = o' := by
  refine ⟨fun h => ?_, fun h c => by rw [h]⟩
  obtain ⟨c, c', hne⟩ := exists_pair_ne γ
  cases o with
  | some b =>
    cases o' with
    | some b' => exact congrArg some (h c)
    | none => exact absurd (hg ((h c).symm.trans (h c'))) hne
  | none =>
    cases o' with
    | none => rfl
    | some b => exact absurd (hg ((h c).trans (h c').symm)) hne

section Two
variable (f g : α → Option β)

/-- The last entry from which one of the two readers takes a value. -/
def lastTaken (as : List α) : Option α := as.reverse.find? fun a => (f a).isSome || (g a).isSome

theorem lastTaken_concat (as : List α) (a : α) :
    lastTaken f g (as ++ [a]) =
      if (f a).isSome || (g a).isSome then some a else lastTaken f g as := by
  rw [lastTaken, List.reverse_append, List.reverse_singleton, List.singleton_append,
    List.find?_cons]
  split <;> simp_all [lastTaken]

/-- No later entry repeats for one reader the value of an earlier one for the other. -/
structure Fresh (as : List α) : Prop where
  left : as.Pairwise fun a b => (f a).isSome → f a ≠ g b
  right : as.Pairwise fun a b => (g a).isSome → g a ≠ f b

variable {f g}

theorem lastTaken_congr {P : α → Prop} (as : List α)
    (h : ∀ a ∈ as, ((f a).isSome || (g a).isSome) = true → (f a = g a ↔ P a)) :
    (∀ a ∈ lastTaken f g as, f a = g a) ↔ ∀ a ∈ lastTaken f g as, P a := by
  apply forall₂_congr
  intro a ha
  apply h a (List.mem_reverse.mp (List.mem_of_find?_eq_some ha))
  exact List.find?_some (p := fun a => (f a).isSome || (g a).isSome) ha

theorem last_eq_of_lastTaken {as : List α} (h : ∀ a ∈ lastTaken f g as, f a = g a) :
    last f as = last g as := by
  induction as using List.reverseRecOn with
  | nil => rfl
  | append_singleton as a ih =>
    rw [lastTaken_concat] at h
    rw [last_concat, last_concat]
    split_ifs at h with htaken
    · have hsame := h a rfl
      rw [← hsame, Bool.or_self] at htaken
      obtain ⟨b, hb⟩ := Option.isSome_iff_exists.mp htaken
      rw [← hsame, hb]
      rfl
    · obtain ⟨hf, hg⟩ : f a = none ∧ g a = none := by simpa using htaken
      rw [hf, hg]
      exact ih h

theorem last_eq_iff {as : List α} (hfresh : Fresh f g as) :
    last f as = last g as ↔ ∀ a ∈ lastTaken f g as, f a = g a := by
  -- where no value is repeated, the readers find the same only where both take it from one
  -- entry
  obtain ⟨hfresh, hfresh'⟩ := hfresh
  refine ⟨fun hlast => ?_, last_eq_of_lastTaken⟩
  induction as using List.reverseRecOn with
  | nil => simp [lastTaken]
  | append_singleton as a ih =>
    rw [List.pairwise_append] at hfresh hfresh'
    rw [last_concat, last_concat] at hlast
    rw [lastTaken_concat]
    split_ifs with htaken
    · rintro b ⟨⟩
      cases hf : f a with
      | some x =>
        cases hg : g a with
        | some y => rw [hf, hg] at hlast; exact hlast
        | none =>
          rw [hf, hg] at hlast
          obtain ⟨b, hb, hgb⟩ := last_eq_some hlast.symm
          have hne := hfresh'.2.2 b hb a (List.mem_singleton.mpr rfl) (by rw [hgb]; rfl)
          exact absurd (hgb.trans hf.symm) hne
      | none =>
        cases hg : g a with
        | none => rfl
        | some y =>
          rw [hf, hg] at hlast
          obtain ⟨b, hb, hfb⟩ := last_eq_some hlast
          have hne := hfresh.2.2 b hb a (List.mem_singleton.mpr rfl) (by rw [hfb]; rfl)
          exact absurd (hfb.trans hg.symm) hne
    · obtain ⟨hf, hg⟩ : f a = none ∧ g a = none := by simpa using htaken
      rw [hf, hg] at hlast
      exact ih hfresh.1 hfresh'.1 hlast

end Two

end Latest
