import SrtlaOutput.Bond.Bounds
import SrtlaOutput.Uplink.Backoff

/-! The loop together with its congestion controller. Its runs are runs of the loop alone, with
verdicts that the controller draws from what the ticks showed it of each link. -/

namespace Srtla.Bond
open Uplink LinkCcController
variable {F A : Type} [F64Exp F]

structure Sender (F A : Type) where
  bond : State F A
  linkCc : LinkCcController F

namespace Sender
variable [DecidableEq A]

def step (s : Sender F A) : Event A → Sender F A × List Output
  | .tick opened now input =>
    let (bond, out) := s.bond.work opened now input
    let linkCc := s.linkCc.tickAll bond.connections now
    ({ bond := bond.judge linkCc.verdict, linkCc }, out)
  | e => ({ s with bond := (s.bond.step e).1 }, (s.bond.step e).2)

def start (s : Setup A) : Sender F A where
  bond := s.start
  linkCc := .new

def samplesOf (id : UInt64) (s : Sender F A) : Event A → List (Sample F)
  | .tick opened now input =>
    ((s.bond.work opened now input).1.connections.filter (·.connId == id)).map (sample · now)
  | _ => []

/-- What is known of a link comes from the last of these samples. Links that are gone are
forgotten, so these need not be all. -/
def Sampled (history : UInt64 → List (Sample F)) (cc : LinkCcController F) : Prop :=
  ∀ id st, cc.perConn id = some st → ∃ xs, xs <:+ history id ∧ st = after xs

def Grounded (history : UInt64 → List (Sample F)) (verdict : UInt64 → Option (ℕ × Bool)) : Prop :=
  ∀ id target degraded, verdict id = some (target, degraded) →
    minTargetBps ≤ target ∧ target ≤ maxTargetBps ∧
      ∃ xs, xs <:+ history id ∧ (after xs).targetBps = target ∧ (after xs).lossDegraded = degraded

section Controller
variable {history : UInt64 → List (Sample F)} {cc : LinkCcController F}

omit [DecidableEq A] in
theorem Sampled.visit (h : Sampled history cc) (now : ℕ) (c : Connection F A) :
    Sampled (fun id => history id ++ if c.connId == id then [sample c now] else [])
      (cc.visit now c) := by
  intro id st hst
  rw [LinkCcController.visit] at hst
  dsimp only at hst ⊢
  by_cases hid : id = c.connId
  · subst hid
    rw [Function.update_self] at hst
    obtain rfl := Option.some_inj.mp hst
    rw [if_pos (beq_self_eq_true _)]
    cases hknown : cc.perConn c.connId with
    | none => exact ⟨[sample c now], List.suffix_append _ _, rfl⟩
    | some st =>
      obtain ⟨xs, ⟨front, hfront⟩, rfl⟩ := h c.connId st hknown
      refine ⟨xs ++ [sample c now], ⟨front, ?_⟩, (after_concat xs _).symm⟩
      rw [← List.append_assoc, hfront]
  · rw [Function.update_of_ne hid] at hst
    rw [if_neg (by simpa using Ne.symm hid), List.append_nil]
    exact h id st hst

omit [DecidableEq A] in
theorem Sampled.tickAll (h : Sampled history cc) (conns : List (Connection F A)) (now : ℕ) :
    Sampled (fun id => history id ++ (conns.filter (·.connId == id)).map (sample · now))
      (cc.tickAll conns now) := by
  have hfold : Sampled (fun id => history id ++ (conns.filter (·.connId == id)).map (sample · now))
      (conns.foldl (LinkCcController.visit now) cc) := by
    induction conns generalizing cc history with
    | nil => simpa using h
    | cons c conns ih =>
      have hrest := ih (h.visit now c)
      have hsplit : ∀ id, history id ++ ((c :: conns).filter (·.connId == id)).map (sample · now) =
          history id ++ (if c.connId == id then [sample c now] else []) ++
            (conns.filter (·.connId == id)).map (sample · now) := by
        intro id
        rw [List.filter_cons, List.append_assoc]
        split <;> rfl
      rw [funext hsplit]
      exact hrest
  intro id st hst
  rw [LinkCcController.tickAll] at hst
  dsimp only at hst
  split at hst
  · exact hfold id st hst
  · exact absurd hst (Option.some_ne_none st).symm

theorem Sampled.verdict (h : Sampled history cc) : Grounded history cc.verdict := by
  intro id target degraded hverdict
  obtain ⟨st, hst, hpair⟩ := Option.map_eq_some_iff.mp hverdict
  obtain ⟨xs, hxs, rfl⟩ := h id st hst
  obtain ⟨rfl, rfl⟩ := Prod.ext_iff.mp hpair
  exact ⟨(targetBps_mem xs).1, (targetBps_mem xs).2, xs, hxs, rfl, rfl⟩

end Controller

variable {history : UInt64 → List (Sample F)} {s : Sender F A}

theorem Sampled.step (h : Sampled history s.linkCc) (e : Event A) :
    Sampled (fun id => history id ++ samplesOf id s e) (s.step e).1.linkCc := by
  cases e with
  | tick opened now input => exact h.tickAll _ now
  | _ =>
    intro id st hst
    obtain ⟨xs, hxs, hst⟩ := h id st hst
    exact ⟨xs, by simpa [samplesOf] using hxs, hst⟩

end Sender

end Srtla.Bond
