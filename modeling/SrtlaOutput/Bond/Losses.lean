import SrtlaOutput.Bond.Bounds
import Mathlib.Algebra.BigOperators.Group.List.Basic
import Mathlib.Algebra.Order.BigOperators.Group.List

/-! Reported losses. A numbered packet of the caller is queued once, logged once, and charged at
most once, however often the receiver, or somebody else, reports it lost. -/

namespace Srtla.Bond
open Uplink
variable {F A : Type}

/-- The packets a link may still be charged for, and those it was charged for. -/
def exposure (l : Link A) : ℤ :=
  l.naks + l.log.entries.length + l.queue.countP (·.seq.isSome)

theorem length_erase {log : PacketLog} {seq : Int32} (h : seq ∈ log) :
    (log.erase seq).entries.length + 1 = log.entries.length := by
  have hkeys : ∀ log : PacketLog, log.entries.length = log.keys.length := fun log =>
    (List.length_map _).symm
  rw [hkeys, hkeys, AList.keys_erase, List.length_erase_add_one h]

theorem exposure_register (l : Link A) (p : DrainedPacket) :
    exposure (l.register p) ≤ exposure l + if p.seq.isSome then 1 else 0 := by
  rw [Link.register]
  cases hseq : p.seq with
  | none => exact le_add_of_nonneg_right le_rfl
  | some s =>
    have hlog := length_insert_le l.log s.toInt32 p.timeMs
    simp only [exposure, Link.setLog, Option.isSome_some, if_true]
    omega

theorem exposure_flush (l : Link A) : exposure l.flush ≤ exposure l := by
  have hfold : ∀ (ps : List DrainedPacket) (l : Link A),
      exposure (ps.foldl Link.register l) ≤ exposure l + ps.countP (·.seq.isSome) := by
    intro ps
    induction ps with
    | nil => exact fun l => le_add_of_nonneg_right le_rfl
    | cons p ps ih =>
      intro l
      have hone := exposure_register l p
      refine (ih (l.register p)).trans ?_
      rw [List.countP_cons, Nat.cast_add]
      split at hone <;> simp_all
      all_goals omega
  refine (hfold l.queue { l with queue := [] }).trans ?_
  simp only [exposure, List.countP_nil]
  omega

theorem exposure_step {l l' : Link A} (h : l.Step l') : exposure l' ≤ exposure l := by
  cases h with
  | answer => exact le_rfl
  | refuse => exact le_rfl
  | hear => exact le_rfl
  | acknowledge log hlog =>
    have hlength := hlog.length_le
    simp only [exposure, Link.setLog]
    omega
  | lose seq hseq =>
    have hlength := length_erase hseq
    have hnaks : min (l.naks + 1) i32Max ≤ l.naks + 1 := min_le_left _ _
    simp only [exposure, Link.setLog]
    omega
  | grow n => exact le_rfl

theorem exposure_nonneg {l : Link A} (hl : Bounded l) : 0 ≤ exposure l := by
  have hnaks := hl.naks.1
  rw [exposure]
  omega

theorem exposure_recover (l : Link A) : exposure l.recover ≤ exposure l := by
  have hrecover : exposure l.recover = l.naks := by
    rw [exposure]
    exact (add_zero _).trans (add_zero _)
  rw [hrecover, exposure]
  omega

theorem exposure_offer (l : Link A) (p : DrainedPacket) :
    exposure (l.offer p) = exposure l + if p.seq.isSome then 1 else 0 := by
  simp only [exposure, Link.offer, List.countP_append, List.countP_singleton]
  split <;> push_cast <;> ring

theorem exposure_probe (l : Link A) (seq : UInt32) (data : List UInt8) (now : ℕ) :
    exposure (l.probe seq data now) = exposure l := by
  rw [Link.probe, exposure_offer]
  exact add_zero _

theorem exposure_admin (l : Link A) (enabled : Bool) : exposure (l.admin enabled) = exposure l := rfl

theorem exposure_paid (l : Link A) (delivery : Option DeliveryCredit) :
    exposure (Ledger.paid l delivery) = exposure l := by
  rw [Ledger.paid]
  split <;> rfl

/-- Each numbered packet pays for one charge. -/
structure Charged (b : Ledger A) : Prop where
  bounded : ∀ l ∈ b.links, Bounded l
  total : (b.links.map exposure).sum ≤ b.counts.1

theorem Charged.step {w : Scope} {b b' : Ledger A} (h : Ledger.Step w b b') (hb : Charged b) :
    Charged b' := by
  refine ⟨(Bounded.keeps w).forall_step b b' h hb.bounded, ?_⟩
  have htotal := hb.total
  have hone : ∀ {pre post : List (Link A)} {l l' : Link A} {n d : ℕ},
      exposure l' ≤ exposure l + d → ((pre ++ l :: post).map exposure).sum ≤ n →
      ((pre ++ l' :: post).map exposure).sum ≤ (n + d : ℕ) := by
    intro pre post l l' n d hl hsum
    rw [List.map_append, List.map_cons, List.sum_append, List.sum_cons] at hsum ⊢
    push_cast
    linarith
  have hless : ∀ {pre post : List (Link A)} {l l' : Link A} {n : ℕ}, exposure l' ≤ exposure l →
      ((pre ++ l :: post).map exposure).sum ≤ n → ((pre ++ l' :: post).map exposure).sum ≤ n :=
    fun hl => hone (d := 0) (hl.trans (le_add_of_nonneg_right le_rfl))
  have hmem : ∀ {pre post : List (Link A)} {l : Link A}, l ∈ pre ++ l :: post :=
    List.mem_append_right _ List.mem_cons_self
  cases h with
  | link h => exact hless (exposure_step h) htotal
  | forward _ data seq now => exact hone (d := 1) (exposure_offer _ _).le htotal
  | pass _ data now => exact hone (d := 0) (exposure_offer _ _).le htotal
  | probe _ seq data now => exact hless (exposure_probe _ _ _ _).le htotal
  | flush => exact hless (exposure_flush _) htotal
  | join => exact hless (exposure_nonneg (hb.bounded _ hmem)) htotal
  | admin _ enabled => exact hless (exposure_admin _ enabled).le htotal
  | acknowledge seq now => exact hless (exposure_paid _ _).le htotal
  | recover => exact hless (exposure_recover _) htotal
  | reopen => exact hless (exposure_nonneg (hb.bounded _ hmem)) htotal
  | close =>
    rw [List.map_append, List.map_cons, List.sum_append, List.sum_cons] at htotal
    rw [List.map_append, List.sum_append]
    have hclosed := exposure_nonneg (hb.bounded _ hmem)
    linarith
  | connect _ localIp =>
    rw [List.map_append, List.sum_append]
    exact (add_zero _).le.trans htotal

/-- In every run, the losses that the links are charged for, with the packets that they still
count as under way, are no more than the numbered packets that the caller handed in. -/
theorem losses_le_numbered [F64Exp F] [DecidableEq A] (s : Setup A) (es : List (Event A)) :
    ((run s es : State F A).connections.map fun c => c.congestion.nakCount + c.inFlightPackets).sum ≤
      ((es.map Event.numbered).sum : ℤ) := by
  obtain ⟨m, hm, hrun⟩ := run_invariant (F := F) False (I := Charged (A := A))
    ⟨fun _ hl => absurd hl List.not_mem_nil, le_rfl⟩ (fun _ _ h hb => hb.step h) s es False.elim
  have hexposure : ((run s es : State F A).connections.map fun c =>
      c.congestion.nakCount + c.inFlightPackets).sum ≤
      ((links (run s es : State F A).connections).map exposure).sum := by
    rw [links, List.map_map]
    refine List.sum_le_sum fun c hc => ?_
    have hflight := (run_bounded s es c hc).inFlight
    rw [Function.comp_apply, exposure, ← hflight]
    exact le_add_of_nonneg_right (Int.natCast_nonneg _)
  exact hexposure.trans (hrun.total.trans (by exact_mod_cast hm))

end Srtla.Bond
