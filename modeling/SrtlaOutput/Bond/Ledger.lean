import SrtlaOutput.Bond.Defs
import SrtlaOutput.Uplink.Link
import Mathlib.Algebra.Group.Prod

/-! The bond as a ledger: its links, the ring, and two counts. Each event of the loop is a chain
of entries in it. -/

namespace Srtla.Bond
open Uplink Relation
variable {F A : Type}

structure Ledger (A : Type) where
  links : List (Link A)
  ring : SequenceTracker
  /-- The numbered packets of the caller that a link took, and the registrations. -/
  counts : ℕ × ℕ

/-- Which entries there are: only ids that are `fresh`, packets of the caller while it is `busy`,
and links that come, go or change hands while it is `changing`. -/
structure Scope where
  fresh : Prop
  busy : Prop
  changing : Prop

namespace Ledger

def paid (l : Link A) (delivery : Option DeliveryCredit) : Link A :=
  match delivery.filter (·.newlyCredited) with
  | some credit => l.credit credit.wireBytes
  | none => l

inductive Step (w : Scope) : Ledger A → Ledger A → Prop
  | link {pre post : List (Link A)} {l l' : Link A} {ring : SequenceTracker} {n : ℕ × ℕ}
      (h : l.Step l') : Step w ⟨pre ++ l :: post, ring, n⟩ ⟨pre ++ l' :: post, ring, n⟩
  | forward {pre post : List (Link A)} {l : Link A} {ring : SequenceTracker} {n : ℕ × ℕ}
      (hbusy : w.busy) (data : List UInt8) (seq : UInt32) (now : ℕ) :
      Step w ⟨pre ++ l :: post, ring, n⟩
        ⟨pre ++ l.offer ⟨data, some seq, now⟩ :: post,
          ring.insertWithSize seq l.connId now data.length, n + (1, 0)⟩
  | pass {pre post : List (Link A)} {l : Link A} {ring : SequenceTracker} {n : ℕ × ℕ}
      (hbusy : w.busy) (data : List UInt8) (now : ℕ) :
      Step w ⟨pre ++ l :: post, ring, n⟩ ⟨pre ++ l.offer ⟨data, none, now⟩ :: post, ring, n⟩
  | probe {pre post : List (Link A)} {l : Link A} {ring : SequenceTracker} {n : ℕ × ℕ}
      (hbusy : w.busy) (seq : UInt32) (data : List UInt8) (now : ℕ) :
      Step w ⟨pre ++ l :: post, ring, n⟩ ⟨pre ++ l.probe seq data now :: post, ring, n⟩
  | flush {pre post : List (Link A)} {l : Link A} {ring : SequenceTracker} {n : ℕ × ℕ}
      (hbusy : w.busy) :
      Step w ⟨pre ++ l :: post, ring, n⟩ ⟨pre ++ l.flush :: post, ring, n⟩
  | join {pre post : List (Link A)} {l : Link A} {ring : SequenceTracker} {n : ℕ × ℕ} :
      Step w ⟨pre ++ l :: post, ring, n⟩ ⟨pre ++ l.join :: post, ring, n + (0, 1)⟩
  | admin {pre post : List (Link A)} {l : Link A} {ring : SequenceTracker} {n : ℕ × ℕ}
      (hchanging : w.changing) (enabled : Bool) :
      Step w ⟨pre ++ l :: post, ring, n⟩ ⟨pre ++ l.admin enabled :: post, ring, n⟩
  | acknowledge {pre post : List (Link A)} {l : Link A} {ring : SequenceTracker} {n : ℕ × ℕ}
      (seq : UInt32) (now : ℕ) :
      Step w ⟨pre ++ l :: post, ring, n⟩
        ⟨pre ++ paid l (ring.acknowledgeDelivery seq l.connId now).2 :: post,
          (ring.acknowledgeDelivery seq l.connId now).1, n⟩
  | recover {pre post : List (Link A)} {l : Link A} {ring : SequenceTracker} {n : ℕ × ℕ} :
      Step w ⟨pre ++ l :: post, ring, n⟩
        ⟨pre ++ l.recover :: post, ring.removeConnection l.connId, n⟩
  | reopen {pre post : List (Link A)} {l : Link A} {ring : SequenceTracker} {n : ℕ × ℕ} :
      Step w ⟨pre ++ l :: post, ring, n⟩
        ⟨pre ++ l.reopen :: post, ring.removeConnection l.connId, n⟩
  | close {pre post : List (Link A)} {l : Link A} {ring : SequenceTracker} {n : ℕ × ℕ}
      (hchanging : w.changing) :
      Step w ⟨pre ++ l :: post, ring, n⟩ ⟨pre ++ post, ring.removeConnection l.connId, n⟩
  | connect {links : List (Link A)} {ring : SequenceTracker} {n : ℕ × ℕ} {connId : UInt64}
      (hchanging : w.changing) (localIp : A)
      (hfresh : w.fresh → connId ≠ 0 ∧ ∀ l ∈ links, l.connId ≠ connId) :
      Step w ⟨links, ring, n⟩ ⟨links ++ [.fresh connId localIp], ring, n⟩

abbrev Steps (w : Scope) : Ledger A → Ledger A → Prop := ReflTransGen (Step w)

theorem Steps.invariant {w : Scope} {I : Ledger A → Prop}
    (hstep : ∀ l l', Step w l l' → I l → I l') {l l' : Ledger A} (h : Steps w l l') (hl : I l) :
    I l' := by
  induction h with
  | refl => exact hl
  | tail _ hlast ih => exact hstep _ _ hlast ih

/-- What happens to one link, wherever it stands. -/
def Moves (w : Scope) (ring : SequenceTracker) (n : ℕ × ℕ) (l : Link A) (ring' : SequenceTracker)
    (n' : ℕ × ℕ)
    (l' : Link A) : Prop :=
  ∀ pre post, Steps w ⟨pre ++ l :: post, ring, n⟩ ⟨pre ++ l' :: post, ring', n'⟩

section Moves
variable {w : Scope} {ring ring' ring'' : SequenceTracker} {n n' n'' : ℕ × ℕ} {l l' l'' : Link A}

theorem Moves.refl : Moves w ring n l ring n l := fun _ _ => .refl

theorem Moves.trans (h : Moves w ring n l ring' n' l') (h' : Moves w ring' n' l' ring'' n'' l'') :
    Moves w ring n l ring'' n'' l'' :=
  fun pre post => (h pre post).trans (h' pre post)

theorem Moves.of_steps (h : Link.Steps l l') : Moves w ring n l ring n l' := by
  intro pre post
  induction h with
  | refl => exact .refl
  | tail _ hstep ih => exact ih.tail (.link hstep)

theorem Moves.of_eq (h : l' = l) : Moves w ring n l ring n l' := .of_steps (.of_eq h)

theorem Moves.at {links : List (Link A)} {i : ℕ} (hi : links[i]? = some l)
    (h : Moves w ring n l ring' n' l') : Steps w ⟨links, ring, n⟩ ⟨links.set i l', ring', n'⟩ := by
  obtain ⟨hlt, rfl⟩ := List.getElem?_eq_some_iff.mp hi
  have hset : links.set i l' = links.take i ++ l' :: links.drop (i + 1) :=
    List.set_eq_take_cons_drop l' hlt
  have hsplit : links = links.take i ++ links[i] :: links.drop (i + 1) := by
    rw [List.getElem_cons_drop, List.take_append_drop]
  rw [hset]
  nth_rewrite 1 [hsplit]
  exact h _ _

theorem sweep_steps [F64 F] {σ : Type} {f : ℕ → σ → Connection F A → σ × Connection F A}
    (ringOf : σ → SequenceTracker)
    (h : ∀ i s c, Moves w (ringOf s) n c.link (ringOf (f i s c).1) n (f i s c).2.link)
    (pre : List (Link A)) (i : ℕ) (s : σ) (conns : List (Connection F A)) :
    Steps w ⟨pre ++ conns.map Connection.link, ringOf s, n⟩
      ⟨pre ++ (Sweep.run f i s conns).2.map Connection.link, ringOf (Sweep.run f i s conns).1, n⟩ := by
  induction conns generalizing pre i s with
  | nil => exact .refl
  | cons c conns ih =>
    rw [Sweep.run_cons, List.map_cons, List.map_cons]
    have hrest := ih (pre ++ [(f i s c).2.link]) (i + 1) (f i s c).1
    rw [List.append_assoc, List.append_assoc, List.singleton_append, List.singleton_append] at hrest
    exact (h i s c _ _).trans hrest

theorem map_steps [F64 F] {f : Connection F A → Connection F A}
    (h : ∀ c, Moves w ring n c.link ring n (f c).link) (pre : List (Link A))
    (conns : List (Connection F A)) :
    Steps w ⟨pre ++ conns.map Connection.link, ring, n⟩
      ⟨pre ++ (conns.map f).map Connection.link, ring, n⟩ := by
  induction conns generalizing pre with
  | nil => exact .refl
  | cons c conns ih =>
    have hrest := ih (pre ++ [(f c).link])
    rw [List.append_assoc, List.append_assoc, List.singleton_append, List.singleton_append] at hrest
    exact (h c _ _).trans hrest

theorem forall_steps {links links' : List (Link A)} (h : List.Forall₂ Link.Steps links links')
    (pre : List (Link A)) : Steps w ⟨pre ++ links, ring, n⟩ ⟨pre ++ links', ring, n⟩ := by
  induction h generalizing pre with
  | nil => exact .refl
  | cons hstep _ ih =>
    rename_i l l' links links' _
    have hrest := ih (pre ++ [l'])
    rw [List.append_assoc, List.append_assoc, List.singleton_append, List.singleton_append] at hrest
    exact (Moves.of_steps hstep _ _).trans hrest

end Moves

end Ledger

end Srtla.Bond
