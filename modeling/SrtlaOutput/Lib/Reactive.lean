import Mathlib.Data.List.Basic

/-! Machines that answer every input. The rules of this file lift a fact about one
step to every run: an invariant, the agreement of two runs that get the same
inputs, and the agreement of a run with the same run after extra inputs. -/

namespace Reactive

variable {σ α ω β : Type*}

def exec (step : σ → α → σ × ω) : σ → List α → σ
  | s, [] => s
  | s, a :: as => exec step (step s a).1 as

def replies (step : σ → α → σ × ω) : σ → List α → List ω
  | _, [] => []
  | s, a :: as => (step s a).2 :: replies step (step s a).1 as

theorem exec_invariant {step : σ → α → σ × ω} {I : σ → Prop}
    (hstep : ∀ s a, I s → I (step s a).1) {s : σ} (hs : I s) (as : List α) :
    I (exec step s as) := by
  induction as generalizing s with
  | nil => exact hs
  | cons a as ih => exact ih (hstep s a hs)

theorem exec_invariant_of {step : σ → α → σ × ω} {I : σ → Prop} {P : α → Prop}
    (hstep : ∀ s a, P a → I s → I (step s a).1) {s : σ} (hs : I s) {as : List α}
    (has : ∀ a ∈ as, P a) : I (exec step s as) := by
  induction as generalizing s with
  | nil => exact hs
  | cons a as ih =>
    have ha : P a := has a List.mem_cons_self
    exact ih (hstep s a ha hs) fun b hb => has b (List.mem_cons_of_mem a hb)

/-- Two runs that get the same inputs: the relation is kept and the observed part of
the replies is the same. -/
structure Lockstep (step : σ → α → σ × ω) (R : σ → σ → Prop) (obs : ω → β) : Prop where
  keeps : ∀ s t a, R s t → R (step s a).1 (step t a).1
  agrees : ∀ s t a, R s t → obs (step s a).2 = obs (step t a).2

theorem Lockstep.replies {step : σ → α → σ × ω} {R : σ → σ → Prop} {obs : ω → β}
    (h : Lockstep step R obs) {s t : σ} (hst : R s t) (as : List α) :
    (replies step s as).map obs = (replies step t as).map obs := by
  induction as generalizing s t with
  | nil => rfl
  | cons a as ih =>
    simp only [Reactive.replies, List.map_cons]
    rw [h.agrees s t a hst, ih (h.keeps s t a hst)]

/-- What `π` erases reaches neither the observed replies nor what `π` keeps. -/
structure Forgets (step : σ → α → σ × ω) (π : σ → σ) (obs : ω → β) : Prop where
  keeps : ∀ s a, π (step s a).1 = π (step (π s) a).1
  agrees : ∀ s a, obs (step s a).2 = obs (step (π s) a).2

theorem Forgets.lockstep {step : σ → α → σ × ω} {π : σ → σ} {obs : ω → β}
    (h : Forgets step π obs) : Lockstep step (fun s t => π s = π t) obs where
  keeps s t a hst := by rw [h.keeps s a, h.keeps t a, hst]
  agrees s t a hst := by rw [h.agrees s a, h.agrees t a, hst]

/-- Every input of the run is one that `guard` allows in the state it meets. -/
def Along (step : σ → α → σ × ω) (guard : σ → α → Prop) : σ → List α → Prop
  | _, [] => True
  | s, a :: as => guard s a ∧ Along step guard (step s a).1 as

/-! A padded run: `.inl` marks an input of the base run, `.inr` an extra one. -/

/-- Every extra input satisfies `silent` in the state it meets. -/
def Padded (step : σ → α → σ × ω) (silent : σ → α → Prop) : σ → List (α ⊕ α) → Prop
  | _, [] => True
  | s, .inl a :: as => Padded step silent (step s a).1 as
  | s, .inr a :: as => silent s a ∧ Padded step silent (step s a).1 as

def base : List (α ⊕ α) → List α
  | [] => []
  | .inl a :: as => a :: base as
  | .inr _ :: as => base as

def baseReplies (step : σ → α → σ × ω) : σ → List (α ⊕ α) → List ω
  | _, [] => []
  | s, .inl a :: as => (step s a).2 :: baseReplies step (step s a).1 as
  | s, .inr a :: as => baseReplies step (step s a).1 as

structure Stutter (step : σ → α → σ × ω) (silent : σ → α → Prop) (R : σ → σ → Prop)
    (obs : ω → β) : Prop where
  lockstep : Lockstep step R obs
  absorbs : ∀ s t a, R s t → silent s a → R (step s a).1 t

theorem Stutter.baseReplies {step : σ → α → σ × ω} {silent : σ → α → Prop}
    {R : σ → σ → Prop} {obs : ω → β} (h : Stutter step silent R obs) {s t : σ}
    (hst : R s t) (as : List (α ⊕ α)) (hp : Padded step silent s as) :
    (Reactive.baseReplies step s as).map obs = (replies step t (base as)).map obs := by
  induction as generalizing s t with
  | nil => rfl
  | cons x as ih =>
    cases x with
    | inl a =>
      simp only [Reactive.baseReplies, base, replies, List.map_cons]
      rw [h.lockstep.agrees s t a hst, ih (h.lockstep.keeps s t a hst) hp]
    | inr a => exact ih (h.absorbs s t a hst hp.1) hp.2

end Reactive
