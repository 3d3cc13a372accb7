import Mathlib.Data.List.Basic

/-! Interleavings as label sequences. A label names one atomic step of one party and
may be disabled; `Run` also carries a condition on the state each step is taken in. -/

namespace Schedule

variable {σ ℓ : Type*}

inductive Run (next : σ → ℓ → Option σ) (ok : σ → ℓ → Prop) : σ → List ℓ → σ → Prop
  | nil (s : σ) : Run next ok s [] s
  | cons {s t u : σ} {l : ℓ} {ls : List ℓ} (hok : ok s l) (hstep : next s l = some t)
      (rest : Run next ok t ls u) : Run next ok s (l :: ls) u

variable {next : σ → ℓ → Option σ} {ok : σ → ℓ → Prop}

theorem Run.invariant {I : σ → Prop} {s t : σ} {ls : List ℓ} (h : Run next ok s ls t)
    (hstep : ∀ s l t, I s → ok s l → next s l = some t → I t) (hs : I s) : I t := by
  induction h with
  | nil => exact hs
  | cons hok hnext _ ih => exact ih (hstep _ _ _ hs hok hnext)

theorem Run.history {γ : Type*} {track : γ → ℓ → γ} {I : γ → σ → Prop} {s t : σ} {ls : List ℓ}
    (h : Run next ok s ls t)
    (hstep : ∀ g s l t, I g s → ok s l → next s l = some t → I (track g l) t) {g : γ}
    (hs : I g s) : I (ls.foldl track g) t := by
  induction h generalizing g with
  | nil => exact hs
  | cons hok hnext _ ih => exact ih (hstep _ _ _ _ hs hok hnext)

theorem Run.of_concat {s t : σ} {ls : List ℓ} {l : ℓ} (h : Run next ok s (ls ++ [l]) t) :
    ∃ u, Run next ok s ls u ∧ ok u l ∧ next u l = some t := by
  induction ls generalizing s with
  | nil =>
    cases h with
    | cons hok hnext hrest =>
      cases hrest
      exact ⟨s, .nil s, hok, hnext⟩
  | cons l' ls ih =>
    cases h with
    | cons hok hnext hrest =>
      obtain ⟨u, hu, hlast⟩ := ih hrest
      exact ⟨u, .cons hok hnext hu, hlast⟩

def exec (next : σ → ℓ → Option σ) : σ → List ℓ → Option σ
  | s, [] => some s
  | s, l :: ls => (next s l).bind fun t => exec next t ls

theorem exec_append {s : σ} (ls ls' : List ℓ) :
    exec next s (ls ++ ls') = (exec next s ls).bind (exec next · ls') := by
  induction ls generalizing s with
  | nil => rfl
  | cons l ls ih =>
    rw [List.cons_append, exec, exec, Option.bind_assoc]
    exact congrArg _ (funext fun t => ih)

def Reaches (next : σ → ℓ → Option σ) (P : σ → Prop) (s : σ) : Prop :=
  ∃ ls t, exec next s ls = some t ∧ P t

section Reaches
variable {P Q : σ → Prop} {s t : σ} {l : ℓ} {ls : List ℓ}

theorem Reaches.refl (h : P s) : Reaches next P s := ⟨[], s, rfl, h⟩

theorem Reaches.of_exec (hexec : exec next s ls = some t) (h : Reaches next P t) :
    Reaches next P s := by
  obtain ⟨ls', u, hrest, hu⟩ := h
  exact ⟨ls ++ ls', u, by rw [exec_append, hexec]; exact hrest, hu⟩

theorem Reaches.of_next (hnext : next s l = some t) (h : Reaches next P t) : Reaches next P s := by
  have hexec : exec next s [l] = some t := by
    rw [exec, hnext]
    rfl
  exact .of_exec hexec h

theorem Reaches.trans (h : Reaches next P s) (hP : ∀ t, P t → Reaches next Q t) :
    Reaches next Q s := by
  obtain ⟨ls, t, hexec, ht⟩ := h
  exact .of_exec hexec (hP t ht)

end Reaches

def guard (next : σ → ℓ → Option σ) (ok : σ → ℓ → Prop) [∀ s l, Decidable (ok s l)] :
    σ → ℓ → Option σ :=
  fun s l => if ok s l then next s l else none

theorem Run.of_exec [∀ s l, Decidable (ok s l)] {s t : σ} {ls : List ℓ}
    (h : exec (guard next ok) s ls = some t) : Run next ok s ls t := by
  induction ls generalizing s with
  | nil =>
    obtain rfl : s = t := by simpa [exec] using h
    exact .nil s
  | cons l ls ih =>
    obtain ⟨u, hu, hrest⟩ := Option.bind_eq_some_iff.mp h
    obtain ⟨hok, hnext⟩ : ok s l ∧ next s l = some u := by simpa [guard] using hu
    exact .cons hok hnext (ih hrest)

end Schedule
