import Mathlib.Data.List.Basic

/-! A replica behind a mailbox. The sender applies a message to its own copy and puts it
into the mailbox; the replica applies the messages in order. The replica tracks the
sender's copy when the messages still in the mailbox would take it there. -/

namespace Mailbox

variable {σ μ : Type*}

def Tracks (apply : σ → μ → σ) (replica : σ) (queue : List μ) (target : σ) : Prop :=
  queue.foldl apply replica = target

variable {apply : σ → μ → σ} {replica target : σ} {queue : List μ}

theorem Tracks.send (h : Tracks apply replica queue target) (m : μ) :
    Tracks apply replica (queue ++ [m]) (apply target m) := by
  rw [Tracks, List.foldl_append, h]
  rfl

theorem Tracks.take {m : μ} (h : Tracks apply replica (m :: queue) target) :
    Tracks apply (apply replica m) queue target := h

theorem Tracks.drained (h : Tracks apply replica [] target) : replica = target := h

/-! Two mailboxes to which the same happens. -/

variable {q q' r r' : List μ}

inductive Move
  | put | drop | take

/-- To both, the same messages are added, or both are emptied, or both lose the first message. -/
inductive Moved : Move → List μ → List μ → List μ → List μ → Prop
  | put {q q' : List μ} (posted : List μ) : Moved .put q (q ++ posted) q' (q' ++ posted)
  | drop {q q' : List μ} : Moved .drop q [] q' []
  | take {q q' : List μ} : Moved .take q q.tail q' q'.tail

theorem Moved.same : Moved .put q q q' q' := by
  have hput : Moved .put q (q ++ []) q' (q' ++ []) := .put []
  rwa [List.append_nil, List.append_nil] at hput

theorem Moved.length_le {move : Move} (h : Moved move q r q' r') (hle : q'.length ≤ q.length) :
    r'.length ≤ r.length := by
  cases h with
  | put posted =>
    rw [List.length_append, List.length_append]
    exact Nat.add_le_add_right hle _
  | drop => exact Nat.le_refl _
  | take =>
    rw [List.length_tail, List.length_tail]
    exact Nat.sub_le_sub_right hle 1

/-- The first mailbox is the second with one message more, which has `n` others before it; without
a position, the message is in neither. -/
def Extra (m : μ) : Option ℕ → List μ → List μ → Prop
  | none, q, q' => q = q'
  | some n, q, q' =>
    ∃ before after, before.length = n ∧ q = before ++ m :: after ∧ q' = before ++ after

def Move.position : Move → Option ℕ → Option ℕ
  | .put, position => position
  | .drop, _ => none
  | .take, some (n + 1) => some n
  | .take, _ => none

def added (q r : List μ) : Option ℕ := if r.length = q.length then none else some q.length

variable {m : μ} {position : Option ℕ}

theorem extra_added (h : r = q ++ [m] ∨ r = q) : Extra m (added q r) r q := by
  rcases h with rfl | rfl
  · rw [added, if_neg (by simp)]
    exact ⟨q, [], rfl, rfl, (List.append_nil q).symm⟩
  · rw [added, if_pos rfl]
    rfl

theorem Extra.moved {move : Move} (h : Extra m position q q') (hmoved : Moved move q r q' r')
    (hother : move = .take → position ≠ some 0) : Extra m (move.position position) r r' := by
  cases hmoved with
  | put posted =>
    cases position with
    | none => exact congrArg (· ++ posted) h
    | some n =>
      obtain ⟨before, after, hlength, rfl, rfl⟩ := h
      exact ⟨before, after ++ posted, hlength, by simp, by simp⟩
  | drop => rfl
  | take =>
    cases position with
    | none => exact congrArg List.tail h
    | some n =>
      obtain ⟨before, after, rfl, rfl, rfl⟩ := h
      cases before with
      | nil => exact absurd rfl (hother rfl)
      | cons first before => exact ⟨before, after, rfl, rfl, rfl⟩

theorem Extra.head (h : Extra m position q q') (hother : position ≠ some 0) :
    q.head? = q'.head? := by
  cases position with
  | none => exact congrArg List.head? h
  | some n =>
    obtain ⟨before, after, rfl, rfl, rfl⟩ := h
    cases before with
    | nil => exact absurd rfl hother
    | cons first before => rfl

theorem Extra.first (h : Extra m (some 0) q q') : q = m :: q' := by
  obtain ⟨before, after, hlength, rfl, rfl⟩ := h
  rw [List.eq_nil_of_length_eq_zero hlength]
  rfl

end Mailbox
