import Mathlib.Data.List.Count
import Mathlib.Data.List.Induction
import Mathlib.Data.List.Nodup

/-! Updating the first entry of a list that satisfies a test. -/

namespace FirstMatch

variable {α β : Type*}

def modifyFirst (p : α → Bool) (f : α → α) : List α → List α
  | [] => []
  | a :: as => if p a then f a :: as else a :: modifyFirst p f as

theorem modifyFirst_cons_of_pos {p : α → Bool} {a : α} (h : p a = true) (f : α → α)
    (as : List α) : modifyFirst p f (a :: as) = f a :: as := by simp [modifyFirst, h]

theorem modifyFirst_cons_of_neg {p : α → Bool} {a : α} (h : p a = false) (f : α → α)
    (as : List α) : modifyFirst p f (a :: as) = a :: modifyFirst p f as := by
  simp [modifyFirst, h]

theorem map_modifyFirst {p : α → Bool} {f : α → α} {g : α → β} {as : List α}
    (h : ∀ a, as.find? p = some a → g (f a) = g a) : (modifyFirst p f as).map g = as.map g := by
  induction as with
  | nil => rfl
  | cons a as ih =>
    cases hp : p a with
    | true => rw [modifyFirst_cons_of_pos hp, List.map_cons, List.map_cons, h a (by simp [hp])]
    | false =>
      rw [modifyFirst_cons_of_neg hp, List.map_cons, List.map_cons,
        ih fun b hb => h b (by simpa [hp] using hb)]

theorem modifyFirst_eq_self {p : α → Bool} {f : α → α} {as : List α}
    (h : ∀ a, as.find? p = some a → f a = a) : modifyFirst p f as = as := by
  induction as with
  | nil => rfl
  | cons a as ih =>
    cases hp : p a with
    | true => rw [modifyFirst_cons_of_pos hp, h a (by simp [hp])]
    | false =>
      rw [modifyFirst_cons_of_neg hp, ih fun b hb => h b (by simpa [hp] using hb)]

theorem modifyFirst_eq_self_iff {p : α → Bool} {f : α → α} {as : List α} :
    modifyFirst p f as = as ↔ ∀ a, as.find? p = some a → f a = a := by
  refine ⟨?_, modifyFirst_eq_self⟩
  induction as with
  | nil => simp
  | cons a as ih =>
    cases hp : p a with
    | true =>
      rw [modifyFirst_cons_of_pos hp]
      intro hsame b hb
      obtain rfl : a = b := by simpa [hp] using hb
      exact (List.cons.inj hsame).1
    | false =>
      rw [modifyFirst_cons_of_neg hp]
      intro hsame b hb
      exact ih (List.cons.inj hsame).2 b (by simpa [hp] using hb)

theorem getElem?_modifyFirst (p : α → Bool) (f : α → α) (as : List α) (i : Nat) :
    (modifyFirst p f as)[i]? =
      as[i]?.map fun a => if p a && !(as.take i).any p then f a else a := by
  induction as generalizing i with
  | nil => rfl
  | cons a as ih =>
    cases hp : p a with
    | true =>
      rw [modifyFirst_cons_of_pos hp]
      cases i with
      | zero => simp [hp]
      | succ i => simp [hp]
    | false =>
      rw [modifyFirst_cons_of_neg hp]
      cases i with
      | zero => simp [hp]
      | succ i => simpa [hp] using ih i

theorem find?_modifyFirst {p q : α → Bool} {f : α → α} {as : List α} {a : α}
    (ha : as.find? q = some a) (hq : ∀ c, as.find? p = some c → q (f c) = q c) :
    as.find? p = some a ∧ (modifyFirst p f as).find? q = some (f a) ∨
      as.find? p ≠ some a ∧ (modifyFirst p f as).find? q = some a := by
  induction as with
  | nil => cases ha
  | cons b as ih =>
    cases hp : p b with
    | true =>
      have hb := hq b (by simp [hp])
      rw [modifyFirst_cons_of_pos hp, List.find?_cons_of_pos hp]
      cases hqb : q b with
      | true =>
        obtain rfl : b = a := by simpa [hqb] using ha
        exact .inl ⟨rfl, List.find?_cons_of_pos (hb.trans hqb)⟩
      | false =>
        have hne : b ≠ a := by
          rintro rfl
          rw [List.find?_some ha] at hqb
          cases hqb
        rw [List.find?_cons_of_neg (by simp [hqb])] at ha
        exact .inr ⟨by simpa using hne, by rw [List.find?_cons_of_neg (by simp [hb, hqb]), ha]⟩
    | false =>
      rw [modifyFirst_cons_of_neg hp, List.find?_cons_of_neg (by simp [hp])]
      cases hqb : q b with
      | true =>
        obtain rfl : b = a := by simpa [hqb] using ha
        refine .inr ⟨fun h => ?_, List.find?_cons_of_pos hqb⟩
        rw [List.find?_some h] at hp
        cases hp
      | false =>
        rw [List.find?_cons_of_neg (by simp [hqb])] at ha ⊢
        exact ih ha fun c hc => hq c (by simpa [hp] using hc)

theorem find?_unique {p q : α → Bool} {as : List α} {a b : α} (ha : as.find? p = some a)
    (hb : as.find? q = some b) (hqa : q a = true) (hpb : p b = true) : a = b := by
  -- two first entries, each of which passes the other's test, are one
  induction as with
  | nil => cases ha
  | cons c as ih =>
    cases hp : p c with
    | true =>
      obtain rfl : c = a := by simpa [hp] using ha
      simpa [hqa] using hb
    | false =>
      have hq : q c = false := by
        by_contra hne
        obtain rfl : c = b := by simpa [hne] using hb
        rw [hpb] at hp
        cases hp
      exact ih (by simpa [hp] using ha) (by simpa [hq] using hb)

theorem mem_modifyFirst {p : α → Bool} {as : List α} {a : α} (h : as.find? p = some a)
    (f : α → α) : f a ∈ modifyFirst p f as := by
  induction as with
  | nil => cases h
  | cons b as ih =>
    cases hp : p b with
    | true =>
      obtain rfl : b = a := by simpa [hp] using h
      rw [modifyFirst_cons_of_pos hp]
      exact List.mem_cons_self
    | false =>
      rw [modifyFirst_cons_of_neg hp]
      exact List.mem_cons_of_mem b (ih (by simpa [hp] using h))

theorem countP_le_modifyFirst (q p : α → Bool) (f : α → α) (as : List α) :
    as.countP q ≤ (modifyFirst p f as).countP q + 1 := by
  induction as with
  | nil => exact Nat.zero_le _
  | cons a as ih =>
    cases hp : p a with
    | true =>
      rw [modifyFirst_cons_of_pos hp, List.countP_cons, List.countP_cons]
      split_ifs <;> omega
    | false =>
      rw [modifyFirst_cons_of_neg hp, List.countP_cons, List.countP_cons]
      omega

theorem filter_modifyFirst {p q : α → Bool} {f : α → α}
    (h : ∀ a, p a = true → q a = false ∧ q (f a) = false) (as : List α) :
    (modifyFirst p f as).filter q = as.filter q := by
  induction as with
  | nil => rfl
  | cons a as ih =>
    cases hp : p a with
    | true =>
      obtain ⟨hbefore, hafter⟩ := h a hp
      rw [modifyFirst_cons_of_pos hp, List.filter_cons, List.filter_cons, hbefore, hafter]
      rfl
    | false => rw [modifyFirst_cons_of_neg hp, List.filter_cons, List.filter_cons, ih]

theorem modifyFirst_eq_map_of_countP {p : α → Bool} {as : List α} (h : as.countP p ≤ 1)
    (f : α → α) : modifyFirst p f as = as.map fun a => if p a then f a else a := by
  induction as with
  | nil => rfl
  | cons a as ih =>
    rw [List.countP_cons] at h
    rw [List.map_cons]
    cases hp : p a with
    | false => rw [modifyFirst_cons_of_neg hp, ih (by omega), if_neg (by simp)]
    | true =>
      have hnone : as.countP p = 0 := by
        rw [if_pos hp] at h
        omega
      have hrest : ∀ b ∈ as, (if p b then f b else b) = b :=
        fun b hb => if_neg (List.countP_eq_zero.mp hnone b hb)
      rw [modifyFirst_cons_of_pos hp, if_pos rfl, List.map_congr_left hrest, List.map_id']

section Keyed
variable {κ : Type*} [BEq κ] [LawfulBEq κ] {key : α → κ}

theorem find?_of_nodup {as : List α} (h : (as.map key).Nodup) {a : α} (ha : a ∈ as) :
    as.find? (fun b => key b == key a) = some a := by
  induction as with
  | nil => cases ha
  | cons b as ih =>
    rw [List.map_cons, List.nodup_cons] at h
    rcases List.mem_cons.mp ha with rfl | hmem
    · simp
    · have hne : (key b == key a) = false := by
        rw [beq_eq_false_iff_ne]
        intro heq
        exact h.1 (heq ▸ List.mem_map_of_mem hmem)
      rw [List.find?_cons_of_neg (by simp [hne]), ih h.2 hmem]

theorem countP_key_le_one {as : List α} (h : (as.map key).Nodup) (k : κ) :
    as.countP (fun b => key b == k) ≤ 1 := by
  have hcount := List.nodup_iff_count_le_one.mp h k
  rwa [List.count, List.countP_map] at hcount

theorem filter_key_of_nodup (key : α → κ) {as : List α} (h : (as.map key).Nodup) {a : α} (ha : a ∈ as) :
    as.filter (fun b => key b == key a) = [a] := by
  have hmem : a ∈ as.filter fun b => key b == key a := List.mem_filter.mpr ⟨ha, beq_self_eq_true _⟩
  have hcount := countP_key_le_one h (key a)
  rw [List.countP_eq_length_filter] at hcount
  obtain ⟨b, hb⟩ := List.length_eq_one_iff.mp
    (Nat.le_antisymm hcount (List.length_pos_of_mem hmem))
  rw [hb, List.mem_singleton] at hmem
  rw [hb, hmem]

theorem modifyFirst_eq_map {as : List α} (h : (as.map key).Nodup) (k : κ) (f : α → α) :
    modifyFirst (fun b => key b == k) f as = as.map fun b => if key b == k then f b else b :=
  modifyFirst_eq_map_of_countP (countP_key_le_one h k) f

section Fold
variable {υ : Type*} (key) (ukey : υ → κ) (f : υ → α → α)

theorem map_key_foldl_modifyFirst (hkey : ∀ u a, key a = ukey u → key (f u a) = ukey u)
    (us : List υ) (as : List α) :
    (us.foldl (fun as u => modifyFirst (fun a => key a == ukey u) (f u) as) as).map key =
      as.map key := by
  induction us generalizing as with
  | nil => rfl
  | cons u us ih =>
    rw [List.foldl_cons, ih]
    refine map_modifyFirst fun a ha => ?_
    have hfound : key a = ukey u := by simpa using List.find?_some ha
    rw [hkey u a hfound, hfound]

theorem getElem?_foldl_modifyFirst (hkey : ∀ u a, key a = ukey u → key (f u a) = ukey u)
    (us : List υ) (as : List α) (i : Nat) :
    (us.foldl (fun as u => modifyFirst (fun a => key a == ukey u) (f u) as) as)[i]? =
      as[i]?.map fun a =>
        if (as.take i).any (fun b => key b == key a) then a
        else (us.filter (fun u => ukey u == key a)).foldl (fun a u => f u a) a := by
  induction us generalizing as with
  | nil => simp
  | cons u us ih =>
    have hkeys := map_key_foldl_modifyFirst key ukey f hkey [u] as
    rw [List.foldl_cons, ih, getElem?_modifyFirst, Option.map_map]
    rcases ha : as[i]? with _ | a
    · rfl
    · have hany : ∀ k, ((modifyFirst (fun a => key a == ukey u) (f u) as).take i).any
          (fun b => key b == k) = (as.take i).any fun b => key b == k := by
        intro k
        have htake := congrArg (fun ks => (ks.take i).any (· == k)) hkeys
        simpa only [← List.map_take, List.any_map, Function.comp_def, List.foldl_cons,
          List.foldl_nil] using htake
      refine congrArg some ?_
      simp only [Function.comp_apply, hany]
      by_cases hu : key a = ukey u
      · have hnew : key (f u a) = key a := (hkey u a hu).trans hu.symm
        cases hearlier : (as.take i).any fun b => key b == ukey u with
        | true => simp [hu, hearlier]
        | false => simp [hu, hearlier, hkey u a hu]
      · have hother : (key a == ukey u) = false := beq_false_of_ne hu
        have hskip : (ukey u == key a) = false := beq_false_of_ne (Ne.symm hu)
        have hsame : ∀ c : Bool, (if (key a == ukey u && c) = true then f u a else a) = a := by
          intro c
          rw [hother]
          rfl
        rw [hsame, List.filter_cons_of_neg (by simp [hskip])]

end Fold

end Keyed

theorem foldl_filter_last {υ : Type*} {p : υ → Bool} {f : υ → α → α} {g : α → β} {h : υ → β}
    (hlast : ∀ u a, g (f u a) = h u) (us : List υ) (a : α) :
    g ((us.filter p).foldl (fun a u => f u a) a) = ((us.reverse.find? p).map h).getD (g a) := by
  induction us using List.reverseRecOn with
  | nil => rfl
  | append_singleton us u ih =>
    rw [List.filter_append, List.foldl_append, List.reverse_append, List.reverse_singleton,
      List.singleton_append]
    cases hp : p u with
    | true =>
      rw [List.filter_cons_of_pos hp, List.find?_cons_of_pos hp]
      exact hlast u _
    | false =>
      rw [List.filter_cons_of_neg (by simp [hp]), List.find?_cons_of_neg (by simp [hp])]
      exact ih

end FirstMatch
