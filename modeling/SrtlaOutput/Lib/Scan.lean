import Mathlib.Data.List.Induction
import Mathlib.Order.Lattice

/-! Loops over a list that keep the position of the entry that is best so far. -/

namespace Scan

variable {α β : Type*}

/-- The position of the first entry whose score no other beats; `beats` may be any relation. -/
def firstFrom (beats : β → β → Bool) (score : α → Option β) :
    ℕ → Option (ℕ × β) → List α → Option (ℕ × β)
  | _, acc, [] => acc
  | i, acc, a :: as =>
    match score a with
    | none => firstFrom beats score (i + 1) acc as
    | some s =>
      if acc.all fun b => beats s b.2 then firstFrom beats score (i + 1) (some (i, s)) as
      else firstFrom beats score (i + 1) acc as

def first (beats : β → β → Bool) (score : α → Option β) (as : List α) : Option ℕ :=
  (firstFrom beats score 0 none as).map (·.1)

def bestFrom [LT β] [DecidableLT β] (score : α → Option β) :
    ℕ → Option ℕ × β → List α → Option ℕ × β
  | _, acc, [] => acc
  | i, acc, a :: as =>
    match score a with
    | none => bestFrom score (i + 1) acc as
    | some s =>
      if acc.2 < s then bestFrom score (i + 1) (some i, s) as
      else bestFrom score (i + 1) acc as

def best [LT β] [DecidableLT β] (score : α → Option β) (floor : β) (as : List α) : Option ℕ :=
  (bestFrom score 0 (none, floor) as).1

def lastIdx (p : α → Bool) (as : List α) : Option ℕ :=
  (as.zipIdx.filter fun e => p e.1).getLast?.map (·.2)

/-! What the loops find. -/

theorem exists_getElem?_cons {p : ℕ → α → Prop} {i : ℕ} {a : α} {as : List α}
    (h : ∃ k b, as[k]? = some b ∧ p (i + 1 + k) b) : ∃ k b, (a :: as)[k]? = some b ∧ p (i + k) b := by
  obtain ⟨k, b, hb, hp⟩ := h
  rw [Nat.add_assoc, Nat.add_comm 1] at hp
  exact ⟨k + 1, b, hb, hp⟩

section First
variable {beats : β → β → Bool} {score : α → Option β}

theorem firstFrom_isSome (i : ℕ) (acc : Option (ℕ × β)) (as : List α) :
    (firstFrom beats score i acc as).isSome ↔ acc.isSome ∨ ∃ a ∈ as, (score a).isSome := by
  induction as generalizing i acc with
  | nil => simp [firstFrom]
  | cons a as ih =>
    simp only [firstFrom, List.mem_cons, exists_eq_or_imp]
    cases score a with
    | none =>
      rw [ih, Option.isSome_none]
      simp
    | some s =>
      dsimp only
      split
      · simp [ih]
      next hkept =>
        cases acc with
        | none => exact absurd rfl hkept
        | some b => simp [ih]

theorem firstFrom_eq_some {i : ℕ} {acc : Option (ℕ × β)} {as : List α} {r : ℕ × β}
    (h : firstFrom beats score i acc as = some r) :
    acc = some r ∨ ∃ k a, as[k]? = some a ∧ r.1 = i + k ∧ score a = some r.2 := by
  induction as generalizing i acc with
  | nil => exact .inl h
  | cons a as ih =>
    rw [firstFrom] at h
    cases hscore : score a with
    | none =>
      rw [hscore] at h
      exact (ih h).imp_right (exists_getElem?_cons (p := fun k b => r.1 = k ∧ score b = some r.2))
    | some s =>
      rw [hscore] at h
      dsimp only at h
      split at h
      · rcases ih h with hnew | hlater
        · obtain rfl := Option.some_inj.mp hnew
          exact .inr ⟨0, a, rfl, rfl, hscore⟩
        · exact .inr (exists_getElem?_cons (p := fun k b => r.1 = k ∧ score b = some r.2) hlater)
      · exact (ih h).imp_right (exists_getElem?_cons (p := fun k b => r.1 = k ∧ score b = some r.2))

theorem first_isSome {as : List α} :
    (first beats score as).isSome ↔ ∃ a ∈ as, (score a).isSome := by
  rw [first, Option.isSome_map, firstFrom_isSome]
  simp

theorem first_eq_some {as : List α} {i : ℕ} (h : first beats score as = some i) :
    ∃ a, as[i]? = some a ∧ (score a).isSome := by
  obtain ⟨r, hr, rfl⟩ := Option.map_eq_some_iff.mp h
  rcases firstFrom_eq_some hr with hnone | ⟨k, a, ha, hk, hscore⟩
  · exact absurd hnone.symm (Option.some_ne_none r)
  · rw [hk, Nat.zero_add]
    exact ⟨a, ha, by rw [hscore]; rfl⟩

end First

section Best
variable {score : α → Option β}

theorem bestFrom_eq_some [LT β] [DecidableLT β] {i : ℕ} {acc : Option ℕ × β} {as : List α} {n : ℕ}
    (h : (bestFrom score i acc as).1 = some n) :
    acc.1 = some n ∨ ∃ k a, as[k]? = some a ∧ n = i + k ∧ (score a).isSome := by
  induction as generalizing i acc with
  | nil => exact .inl h
  | cons a as ih =>
    rw [bestFrom] at h
    cases hscore : score a with
    | none =>
      rw [hscore] at h
      exact (ih h).imp_right (exists_getElem?_cons (p := fun k b => n = k ∧ (score b).isSome))
    | some s =>
      rw [hscore] at h
      dsimp only at h
      split at h
      · rcases ih h with hnew | hlater
        · exact .inr ⟨0, a, rfl, (Option.some_inj.mp hnew).symm, by rw [hscore]; rfl⟩
        · exact .inr (exists_getElem?_cons (p := fun k b => n = k ∧ (score b).isSome) hlater)
      · exact (ih h).imp_right (exists_getElem?_cons (p := fun k b => n = k ∧ (score b).isSome))

theorem bestFrom_map [LT β] [DecidableLT β] {γ : Type*} (f : γ → α) (i : ℕ) (acc : Option ℕ × β)
    (as : List γ) :
    bestFrom score i acc (as.map f) = bestFrom (fun a => score (f a)) i acc as := by
  induction as generalizing i acc with
  | nil => rfl
  | cons a as ih =>
    rw [List.map_cons, bestFrom, bestFrom]
    cases score (f a) with
    | none => exact ih (i + 1) acc
    | some s =>
      dsimp only
      rw [ih, ih]

def IsFirstMax [LT β] [LE β] (score : α → Option β) (as : List α) (k : ℕ) (s : β) : Prop :=
  (∃ a, as[k]? = some a ∧ score a = some s) ∧
    ∀ j b t, as[j]? = some b → score b = some t → t ≤ s ∧ (j < k → t < s)

variable [LinearOrder β]

theorem bestFrom_spec (score : α → Option β) (i : ℕ) (acc : Option ℕ × β) (as : List α) :
    (bestFrom score i acc as = acc ∧ ∀ b ∈ as, ∀ t, score b = some t → t ≤ acc.2) ∨
      ∃ k s, bestFrom score i acc as = (some (i + k), s) ∧ acc.2 < s ∧ IsFirstMax score as k s := by
  induction as generalizing i acc with
  | nil => exact .inl ⟨rfl, fun b hb => absurd hb List.not_mem_nil⟩
  | cons a as ih =>
    -- The first entry is behind the best one of the others.
    have hlater : ∀ {acc' : Option ℕ × β} {k : ℕ} {s : β}, (∀ t, score a = some t → t < s) →
        bestFrom score (i + 1) acc' as = (some (i + 1 + k), s) → IsFirstMax score as k s →
        bestFrom score (i + 1) acc' as = (some (i + (k + 1)), s) ∧
          IsFirstMax score (a :: as) (k + 1) s := by
      rintro acc' k s ha hbest ⟨hk, hmax⟩
      refine ⟨by rw [hbest, Nat.add_assoc, Nat.add_comm 1], hk, fun j b t hb ht => ?_⟩
      cases j with
      | zero =>
        obtain rfl := Option.some_inj.mp hb
        exact ⟨(ha t ht).le, fun _ => ha t ht⟩
      | succ j => exact (hmax j b t hb ht).imp_right fun h hlt => h (Nat.lt_of_succ_lt_succ hlt)
    rw [bestFrom]
    cases hscore : score a with
    | none =>
      dsimp only
      refine (ih (i + 1) acc).imp (fun h => ⟨h.1, fun b hb t ht => ?_⟩) ?_
      · rcases List.mem_cons.mp hb with rfl | hb
        · exact absurd (hscore.symm.trans ht) (Option.some_ne_none t).symm
        · exact h.2 b hb t ht
      · rintro ⟨k, s, hbest, hfloor, hmax⟩
        have ha : ∀ t, score a = some t → t < s := fun t ht =>
          absurd (hscore.symm.trans ht) (Option.some_ne_none t).symm
        exact ⟨k + 1, s, (hlater ha hbest hmax).1, hfloor, (hlater ha hbest hmax).2⟩
    | some s =>
      dsimp only
      split
      next hbetter =>
        right
        rcases ih (i + 1) (some i, s) with ⟨hbest, hmax⟩ | ⟨k, s', hbest, hfloor, hmax⟩
        · refine ⟨0, s, hbest, hbetter, ⟨a, rfl, hscore⟩, fun j b t hb ht => ?_⟩
          refine ⟨?_, fun hlt => absurd hlt (Nat.not_lt_zero j)⟩
          cases j with
          | zero =>
            obtain rfl := Option.some_inj.mp hb
            exact (Option.some_inj.mp (ht.symm.trans hscore)).le
          | succ j => exact hmax b (List.mem_of_getElem? hb) t ht
        · have ha : ∀ t, score a = some t → t < s' := fun t ht =>
            (Option.some_inj.mp (ht.symm.trans hscore)).trans_lt hfloor
          exact ⟨k + 1, s', (hlater ha hbest hmax).1, hbetter.trans hfloor, (hlater ha hbest hmax).2⟩
      next hworse =>
        have hs : s ≤ acc.2 := not_lt.mp hworse
        refine (ih (i + 1) acc).imp (fun h => ⟨h.1, fun b hb t ht => ?_⟩) ?_
        · rcases List.mem_cons.mp hb with rfl | hb
          · exact (Option.some_inj.mp (ht.symm.trans hscore)).trans_le hs
          · exact h.2 b hb t ht
        · rintro ⟨k, s', hbest, hfloor, hmax⟩
          have ha : ∀ t, score a = some t → t < s' := fun t ht =>
            ((Option.some_inj.mp (ht.symm.trans hscore)).trans_le hs).trans_lt hfloor
          exact ⟨k + 1, s', (hlater ha hbest hmax).1, hfloor, (hlater ha hbest hmax).2⟩

theorem best_eq_none_iff {floor : β} {as : List α} :
    best score floor as = none ↔ ∀ a ∈ as, ∀ s, score a = some s → s ≤ floor := by
  rcases bestFrom_spec score 0 (none, floor) as with h | ⟨k, s, hbest, hfloor, ⟨a, ha, hs⟩, -⟩
  · exact iff_of_true (congrArg Prod.fst h.1) h.2
  · refine iff_of_false ?_ fun h => ?_
    · rw [best, hbest]
      exact Option.some_ne_none _
    · exact absurd (h a (List.mem_of_getElem? ha) s hs) (not_le.mpr hfloor)

theorem best_eq_some_iff {floor : β} {as : List α} {i : ℕ} :
    best score floor as = some i ↔ ∃ s, floor < s ∧ IsFirstMax score as i s := by
  constructor
  · intro h
    rcases bestFrom_spec score 0 (none, floor) as with hnone | ⟨k, s, hbest, hfloor, hmax⟩
    · rw [best, hnone.1] at h
      exact absurd h.symm (Option.some_ne_none i)
    · rw [best, hbest, Nat.zero_add] at h
      exact ⟨s, hfloor, Option.some_inj.mp h ▸ hmax⟩
  · rintro ⟨s, hfloor, ⟨a, ha, hs⟩, hmax⟩
    cases hbest : best score floor as with
    | none => exact absurd (best_eq_none_iff.mp hbest a (List.mem_of_getElem? ha) s hs) (not_le.mpr hfloor)
    | some k =>
      rcases bestFrom_spec score 0 (none, floor) as with
        hnone | ⟨k', s', hbest', -, ⟨a', ha', hs'⟩, hmax'⟩
      · rw [best, hnone.1] at hbest
        exact absurd hbest.symm (Option.some_ne_none k)
      · rw [best, hbest', Nat.zero_add] at hbest
        obtain rfl := Option.some_inj.mp hbest
        have hle := (hmax k' a' s' ha' hs').1
        rcases Nat.lt_trichotomy k' i with hlt | rfl | hlt
        · exact absurd ((hmax k' a' s' ha' hs').2 hlt) (not_lt.mpr (hmax' i a s ha hs).1)
        · rfl
        · exact absurd ((hmax' i a s ha hs).2 hlt) (not_lt.mpr hle)

end Best

theorem lastIdx_eq_some {p : α → Bool} {as : List α} {i : ℕ} (h : lastIdx p as = some i) :
    ∃ a, as[i]? = some a ∧ p a = true := by
  obtain ⟨⟨a, k⟩, hlast, rfl⟩ := Option.map_eq_some_iff.mp h
  have hmem := List.mem_filter.mp (List.mem_of_getLast? hlast)
  exact ⟨a, List.mem_zipIdx_iff_getElem?.mp hmem.1, hmem.2⟩

end Scan
