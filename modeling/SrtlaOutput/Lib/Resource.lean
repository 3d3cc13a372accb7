import Mathlib.Data.List.TakeWhile

/-! Logs of the calls on a shared resource whose handles are given out, used and given back. A
handle may be given out again after it was given back. -/

namespace Resource

variable {α κ : Type*} [DecidableEq α]

inductive Event (α κ : Type*)
  | acquire (a : α)
  | use (k : κ) (a : α)
  | release (a : α)
  deriving DecidableEq, Repr

def Event.track (a : α) (held : Bool) : Event α κ → Bool
  | .acquire b => held || b = a
  | .use _ _ => held
  | .release b => held && b ≠ a

/-- The last call that gave `a` out or took it back gave it out. -/
def held (log : List (Event α κ)) (a : α) : Bool := log.foldl (Event.track a) false

/-- A call after `log`: only a free handle is given out, and only a held one is used or given
back. -/
def Event.Permitted (log : List (Event α κ)) : Event α κ → Prop
  | .acquire a => held log a = false
  | .use _ a => held log a = true
  | .release a => held log a = true

def Disciplined (log : List (Event α κ)) : Prop :=
  ∀ before e after, log = before ++ e :: after → e.Permitted before

omit [DecidableEq α] in
theorem concat_eq_split {log before after : List (Event α κ)} {e e' : Event α κ}
    (h : log ++ [e] = before ++ e' :: after) :
    (before = log ∧ e' = e) ∨ ∃ rest, log = before ++ e' :: rest := by
  rcases List.eq_nil_or_concat after with rfl | ⟨rest, last, rfl⟩
  · obtain ⟨hlog, he⟩ := List.append_inj' h rfl
    cases he
    exact .inl ⟨hlog.symm, rfl⟩
  · rw [List.concat_eq_append, ← List.cons_append, ← List.append_assoc] at h
    exact .inr ⟨rest, (List.append_inj' h rfl).1⟩

@[simp] theorem held_nil (a : α) : held ([] : List (Event α κ)) a = false := rfl

theorem held_concat (log : List (Event α κ)) (e : Event α κ) (a : α) :
    held (log ++ [e]) a = e.track a (held log a) := by
  simp [held]

@[simp] theorem held_acquire (log : List (Event α κ)) (a b : α) :
    held (log ++ [.acquire b]) a = (held log a || b = a) := held_concat log _ a

@[simp] theorem held_use (log : List (Event α κ)) (k : κ) (a b : α) :
    held (log ++ [.use k b]) a = held log a := held_concat log _ a

@[simp] theorem held_release (log : List (Event α κ)) (a b : α) :
    held (log ++ [.release b]) a = (held log a && b ≠ a) := held_concat log _ a

theorem Disciplined.nil : Disciplined ([] : List (Event α κ)) := by
  intro before e after h
  simp at h

theorem Disciplined.concat {log : List (Event α κ)} (h : Disciplined log) {e : Event α κ}
    (he : e.Permitted log) : Disciplined (log ++ [e]) := by
  intro before e' after hsplit
  rcases concat_eq_split hsplit with ⟨rfl, rfl⟩ | ⟨rest, hlog⟩
  · exact he
  · exact h before e' rest hlog

theorem Disciplined.permitted {before after : List (Event α κ)} {e : Event α κ}
    (h : Disciplined (before ++ e :: after)) : e.Permitted before := h before e after rfl

theorem held_append_of_free {log more : List (Event α κ)} {a : α} (hfree : held log a = false)
    (hnot : .acquire a ∉ more) : held (log ++ more) a = false := by
  induction more generalizing log with
  | nil => simpa using hfree
  | cons e more ih =>
    obtain ⟨hne, hrest⟩ := not_or.mp (fun h => hnot (List.mem_cons.mpr h))
    have hstep : held (log ++ [e]) a = false := by
      cases e with
      | acquire b =>
        have hba : b ≠ a := by
          rintro rfl
          exact hne rfl
        simp [hfree, hba]
      | use k b => simp [hfree]
      | release b => simp [hfree]
    have happ := ih hstep hrest
    rwa [List.append_assoc, List.singleton_append] at happ

theorem Disciplined.not_used {before mid after : List (Event α κ)} {k : κ} {a : α}
    (h : Disciplined (before ++ .release a :: (mid ++ .use k a :: after))) :
    .acquire a ∈ mid := by
  -- no use of a handle between its return and its next release into the world
  by_contra hnot
  have hfree : held (before ++ [.release a]) a = false := by simp
  have hkept := held_append_of_free hfree hnot
  have hsplit : before ++ .release a :: (mid ++ .use k a :: after) =
      (before ++ [.release a] ++ mid) ++ .use k a :: after := by simp
  rw [hsplit] at h
  have hheld : held (before ++ [.release a] ++ mid) a = true := h.permitted
  rw [hkept] at hheld
  cases hheld

def returns (a : α) [DecidableEq κ] (log : List (Event α κ)) : ℕ :=
  (log.takeWhile (· ≠ .acquire a)).count (.release a)

variable [DecidableEq κ]

theorem returns_of_free {log more : List (Event α κ)} {a : α} (h : Disciplined (log ++ more))
    (hfree : held log a = false) : returns a more = 0 := by
  induction more generalizing log with
  | nil => rfl
  | cons e more ih =>
    have hcons : log ++ e :: more = (log ++ [e]) ++ more := by simp
    have hpermitted := h.permitted
    rw [hcons] at h
    cases e with
    | acquire b =>
      by_cases hba : b = a
      · simp [returns, hba]
      · have hrest := ih h (by simp [hfree, hba])
        simpa [returns, hba] using hrest
    | use k b =>
      have hrest := ih h (by simp [hfree])
      simpa [returns] using hrest
    | release b =>
      have hba : b ≠ a := by
        rintro rfl
        have hheld : held log b = true := hpermitted
        rw [hfree] at hheld
        cases hheld
      have hrest := ih h (by simp [hfree])
      simpa [returns, hba] using hrest

theorem returns_of_held {log more : List (Event α κ)} {a : α} (h : Disciplined (log ++ more))
    (hheld : held log a = true) (hend : held (log ++ more) a = false) : returns a more = 1 := by
  -- a handle that is free at the end of the log was given back exactly once
  induction more generalizing log with
  | nil =>
    rw [List.append_nil, hheld] at hend
    cases hend
  | cons e more ih =>
    have hcons : log ++ e :: more = (log ++ [e]) ++ more := by simp
    have hpermitted := h.permitted
    rw [hcons] at h hend
    cases e with
    | acquire b =>
      have hba : b ≠ a := by
        rintro rfl
        have hfree : held log b = false := hpermitted
        rw [hheld] at hfree
        cases hfree
      have hrest := ih h (by simp [hheld]) hend
      simpa [returns, hba] using hrest
    | use k b =>
      have hrest := ih h (by simp [hheld]) hend
      simpa [returns] using hrest
    | release b =>
      by_cases hba : b = a
      · have hrest := returns_of_free h (a := a) (by simp [hba])
        simpa [returns, hba] using hrest
      · have hrest := ih h (by simp [hheld, hba]) hend
        simpa [returns, hba] using hrest

theorem Disciplined.returned_once {before after : List (Event α κ)} {a : α}
    (h : Disciplined (before ++ .acquire a :: after))
    (hend : held (before ++ .acquire a :: after) a = false) : returns a after = 1 := by
  have hcons : before ++ .acquire a :: after = (before ++ [.acquire a]) ++ after := by simp
  rw [hcons] at h hend
  exact returns_of_held h (by simp) hend

end Resource
