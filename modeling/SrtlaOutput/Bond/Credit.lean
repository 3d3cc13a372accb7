import SrtlaOutput.Bond.Bounds
import Mathlib.Algebra.BigOperators.Fin
import Mathlib.Algebra.Order.BigOperators.Group.Finset

/-! Delivered bytes. The ring owes a link the bytes of the packets that it remembers as its own
and has not credited yet; what was delivered and what is owed never exceed what was sent. -/

namespace Srtla.Bond
open Uplink Finset Wire
variable {F A : Type}

/-- What an entry of the ring still owes to a link. -/
def due (connId : UInt64) (e : SequenceTrackingEntry) : ℕ :=
  if e.connId = connId ∧ e.deliveryCredited = false then e.wireBytes else 0

def owed (ring : SequenceTracker) (connId : UInt64) : ℕ := ∑ i, due connId (ring.entries i)

theorem due_empty (connId : UInt64) : due connId {} = 0 := ite_self 0

theorem due_of_ne {connId : UInt64} {e : SequenceTrackingEntry} (h : e.connId ≠ connId) :
    due connId e = 0 := if_neg fun hd => h hd.1

theorem owed_update (entries : Fin seqTrackingSize → SequenceTrackingEntry)
    (i : Fin seqTrackingSize) (e : SequenceTrackingEntry) (connId : UInt64) :
    owed ⟨Function.update entries i e⟩ connId + due connId (entries i) =
      owed ⟨entries⟩ connId + due connId e := by
  have hupdate : (fun j => due connId (Function.update entries i e j)) =
      Function.update (fun j => due connId (entries j)) i (due connId e) :=
    funext fun j => Function.apply_update (fun _ => due connId) entries i e j
  rw [owed, owed, hupdate, Finset.sum_update_of_mem (mem_univ i), sdiff_singleton_eq_erase,
    ← Finset.add_sum_erase univ (fun j => due connId (entries j)) (mem_univ i)]
  ring

theorem owed_insert_le (ring : SequenceTracker) (seq : UInt32) (connId : UInt64)
    (time bytes : ℕ) :
    owed (ring.insertWithSize seq connId time bytes) connId ≤ owed ring connId + bytes := by
  have hupdate := owed_update ring.entries (SequenceTracker.slot seq)
    { connId, timestampMs := time, wireBytes := min bytes (2 ^ 32 - 1), seq } connId
  have hdue : due connId { connId, timestampMs := time, wireBytes := min bytes (2 ^ 32 - 1), seq } ≤
      bytes := by
    rw [due, if_pos ⟨rfl, rfl⟩]
    exact min_le_left _ _
  exact (Nat.le_add_right _ _).trans (hupdate.le.trans (Nat.add_le_add_left hdue _))

theorem owed_insert_of_ne {connId connId' : UInt64} (h : connId ≠ connId') (ring : SequenceTracker)
    (seq : UInt32) (time bytes : ℕ) :
    owed (ring.insertWithSize seq connId time bytes) connId' ≤ owed ring connId' := by
  have hupdate := owed_update ring.entries (SequenceTracker.slot seq)
    { connId, timestampMs := time, wireBytes := min bytes (2 ^ 32 - 1), seq } connId'
  rw [due_of_ne (e := { connId, timestampMs := time, wireBytes := _, seq }) h, add_zero] at hupdate
  exact (Nat.le_add_right _ _).trans hupdate.le

theorem owed_remove_le (ring : SequenceTracker) (connId connId' : UInt64) :
    owed (ring.removeConnection connId) connId' ≤ owed ring connId' := by
  refine Finset.sum_le_sum fun i _ => ?_
  rcases eq_or_ne (ring.entries i).connId connId with h | h
  · rw [SequenceTracker.removeConnection_of_eq h, due_empty]
    exact Nat.zero_le _
  · rw [SequenceTracker.removeConnection_of_ne h]

theorem owed_remove_self (ring : SequenceTracker) (connId : UInt64) :
    owed (ring.removeConnection connId) connId = 0 := by
  refine Finset.sum_eq_zero fun i _ => ?_
  rcases eq_or_ne (ring.entries i).connId connId with h | h
  · rw [SequenceTracker.removeConnection_of_eq h, due_empty]
  · rw [SequenceTracker.removeConnection_of_ne h, due_of_ne h]

theorem owed_acknowledge (ring : SequenceTracker) (seq : UInt32) (connId : UInt64) (now : ℕ) :
    (∀ connId', owed (ring.acknowledgeDelivery seq connId now).1 connId' ≤ owed ring connId') ∧
    ∀ credit ∈ (ring.acknowledgeDelivery seq connId now).2.filter (·.newlyCredited),
      owed (ring.acknowledgeDelivery seq connId now).1 connId + credit.wireBytes =
        owed ring connId := by
  rw [SequenceTracker.acknowledgeDelivery]
  split
  · exact ⟨fun _ => le_rfl, fun credit hcredit => absurd hcredit (by simp)⟩
  next hvalid =>
    have hupdate := owed_update ring.entries (SequenceTracker.slot seq)
      { ring.entries (SequenceTracker.slot seq) with deliveryCredited := true }
    have hcredited : ∀ connId', due connId'
        { ring.entries (SequenceTracker.slot seq) with deliveryCredited := true } = 0 :=
      fun connId' => if_neg fun h => Bool.false_ne_true h.2.symm
    constructor
    · intro connId'
      have h := hupdate connId'
      rw [hcredited, add_zero] at h
      exact (Nat.le_add_right _ _).trans h.le
    · intro credit hcredit
      obtain ⟨hsome, hnew⟩ := Option.mem_filter_iff.mp hcredit
      obtain rfl := Option.some.inj hsome
      have howner : (ring.entries (SequenceTracker.slot seq)).connId = connId := by
        by_contra hne
        simp [hne] at hvalid
      have h := hupdate connId
      rw [hcredited, add_zero] at h
      rw [due, if_pos ⟨howner, by simpa using hnew⟩] at h
      exact h

/-- The bytes sent cover those delivered and those owed, unless the counter is at its end. -/
def Covered (ring : SequenceTracker) (l : Link A) : Prop :=
  l.delivered ≤ u64Max ∧ (l.sent = u64Max ∨ l.delivered + owed ring l.connId ≤ l.sent)

section Covered
variable {ring ring' : SequenceTracker} {l l' : Link A}

theorem Covered.mono (h : Covered ring l) (hid : l'.connId = l.connId)
    (howed : owed ring' l.connId ≤ owed ring l.connId) (hsent : l'.sent = l.sent)
    (hdelivered : l'.delivered ≤ l.delivered) : Covered ring' l' := by
  refine ⟨hdelivered.trans h.1, ?_⟩
  rw [hid, hsent]
  exact h.2.imp_right fun hle => (Nat.add_le_add hdelivered howed).trans hle

theorem Covered.send (h : Covered ring l) {bytes : ℕ} (hid : l'.connId = l.connId)
    (howed : owed ring' l.connId ≤ owed ring l.connId + bytes)
    (hsent : l'.sent = saturatingAdd l.sent bytes) (hdelivered : l'.delivered = l.delivered) :
    Covered ring' l' := by
  refine ⟨hdelivered ▸ h.1, ?_⟩
  rw [hid, hsent, hdelivered, saturatingAdd]
  have hcovered := h.2
  omega

theorem Covered.fresh (h : owed ring l.connId = 0) (hdelivered : l.delivered = 0) :
    Covered ring l := by
  refine ⟨hdelivered ▸ Nat.zero_le _, .inr ?_⟩
  rw [hdelivered, h]
  exact Nat.zero_le _

theorem Covered.step (h : Covered ring l) (hstep : l.Step l') : Covered ring l' := by
  cases hstep with
  | answer => exact h
  | refuse => exact h
  | hear => exact h
  | acknowledge => exact h
  | lose => exact h
  | grow => exact h

theorem Covered.flush (h : Covered ring l) : Covered ring l.flush :=
  h.mono l.flush_connId le_rfl l.flush_sent l.flush_delivered.le

theorem Covered.paid {seq : UInt32} {now : ℕ} (h : Covered ring l) :
    Covered (ring.acknowledgeDelivery seq l.connId now).1
      (Ledger.paid l (ring.acknowledgeDelivery seq l.connId now).2) := by
  obtain ⟨hle, hpaid⟩ := owed_acknowledge ring seq l.connId now
  rw [Ledger.paid]
  split
  next credit hcredit =>
    have hbytes := hpaid credit hcredit
    refine ⟨min_le_right _ _, h.2.imp_right fun hcovered => ?_⟩
    have hsum : min (l.delivered + credit.wireBytes) u64Max ≤ l.delivered + credit.wireBytes :=
      min_le_left _ _
    simp only [Link.credit, saturatingAdd]
    omega
  next => exact h.mono rfl (hle l.connId) rfl le_rfl

end Covered

/-- The ids of the links are all different, and the ring knows no others. -/
structure Solvent (b : Ledger A) : Prop where
  ids : (b.links.map (·.connId)).Nodup
  known : ∀ i, (b.ring.entries i).connId ≠ 0 →
    (b.ring.entries i).connId ∈ b.links.map (·.connId)
  covered : ∀ l ∈ b.links, Covered b.ring l

namespace Solvent
variable {pre post : List (Link A)} {l l' : Link A} {ring ring' : SequenceTracker} {n n' : ℕ × ℕ}

theorem empty : Solvent (⟨[], .new, 0⟩ : Ledger A) :=
  ⟨List.nodup_nil, fun _ h => absurd rfl h, fun _ h => absurd h List.not_mem_nil⟩

theorem other (hb : Solvent ⟨pre ++ l :: post, ring, n⟩) : ∀ x ∈ pre ++ post, x.connId ≠ l.connId := by
  have hids := hb.ids
  rw [List.map_append, List.map_cons, List.nodup_middle, List.nodup_cons, ← List.map_append] at hids
  exact fun x hx heq => hids.1 (heq ▸ List.mem_map_of_mem hx)

theorem replace (hb : Solvent ⟨pre ++ l :: post, ring, n⟩) (hid : l'.connId = l.connId)
    (hknown : ∀ i, (ring'.entries i).connId ≠ 0 → (ring'.entries i).connId = l.connId ∨
      (ring'.entries i).connId = (ring.entries i).connId)
    (howed : ∀ id, id ≠ l.connId → owed ring' id ≤ owed ring id)
    (hl : Covered ring l → Covered ring' l') : Solvent ⟨pre ++ l' :: post, ring', n'⟩ := by
  -- what happens to one link leaves the books of the others in order
  have hmap : (pre ++ l' :: post).map (·.connId) = (pre ++ l :: post).map (·.connId) := by
    simp only [List.map_append, List.map_cons, hid]
  have hother := hb.other
  have hcovered := hb.covered
  simp only [List.forall_mem_append, List.forall_mem_cons] at hother hcovered
  refine ⟨hmap ▸ hb.ids, fun i hi => ?_, ?_⟩
  · rw [hmap]
    rcases hknown i hi with h | h
    · rw [h]
      exact List.mem_map_of_mem (List.mem_append_right _ List.mem_cons_self)
    · rw [h] at hi ⊢
      exact hb.known i hi
  · have hrest : ∀ x : Link A, x.connId ≠ l.connId → Covered ring x → Covered ring' x :=
      fun x hx h => h.mono rfl (howed _ hx) rfl le_rfl
    simp only [List.forall_mem_append, List.forall_mem_cons]
    exact ⟨fun x hx => hrest x (hother.1 x hx) (hcovered.1 x hx), hl hcovered.2.1,
      fun x hx => hrest x (hother.2 x hx) (hcovered.2.2 x hx)⟩

theorem modify (hb : Solvent ⟨pre ++ l :: post, ring, n⟩) (hid : l'.connId = l.connId)
    (hl : Covered ring l → Covered ring l') : Solvent ⟨pre ++ l' :: post, ring, n'⟩ :=
  hb.replace hid (fun _ _ => .inr rfl) (fun _ _ => le_rfl) hl

theorem removed_known (ring : SequenceTracker) (connId : UInt64) (i : Fin seqTrackingSize)
    (hi : ((ring.removeConnection connId).entries i).connId ≠ 0) :
    (ring.entries i).connId ≠ connId ∧
      ((ring.removeConnection connId).entries i).connId = (ring.entries i).connId := by
  rcases eq_or_ne (ring.entries i).connId connId with h | h
  · rw [SequenceTracker.removeConnection_of_eq h] at hi
    exact absurd rfl hi
  · exact ⟨h, by rw [SequenceTracker.removeConnection_of_ne h]⟩

theorem step {b b' : Ledger A} (h : Ledger.Step ⟨True, True, True⟩ b b') (hb : Solvent b) : Solvent b' := by
  cases h with
  | link h =>
    refine hb.modify ?_ fun hl => hl.step h
    cases h <;> rfl
  | @forward pre post l ring n _ data seq now =>
    refine hb.replace rfl (fun i hi => ?_)
      (fun id hid => owed_insert_of_ne hid.symm ring seq now data.length)
      fun hl => hl.send rfl (owed_insert_le ring seq l.connId now data.length) rfl rfl
    rcases eq_or_ne i (SequenceTracker.slot seq) with rfl | hne
    · exact .inl (by rw [SequenceTracker.insertWithSize_self])
    · exact .inr (congrArg SequenceTrackingEntry.connId (Function.update_of_ne hne _ _))
  | pass _ data now =>
    exact hb.modify rfl fun hl => hl.send rfl (Nat.le_add_right _ _) rfl rfl
  | probe _ seq data now =>
    exact hb.modify rfl fun hl => hl.send rfl (Nat.le_add_right _ _) rfl rfl
  | flush => exact hb.modify (Link.flush_connId _) fun hl => hl.flush
  | join => exact hb.modify rfl fun hl => hl.mono rfl le_rfl rfl (Nat.zero_le _)
  | admin _ enabled => exact hb.modify rfl id
  | @acknowledge pre post l ring n seq now =>
    refine hb.replace ?_ (fun i _ => .inr ?_)
      (fun id _ => (owed_acknowledge ring seq l.connId now).1 id) fun hl => hl.paid
    · rw [Ledger.paid]
      split <;> rfl
    · rcases SequenceTracker.acknowledgeDelivery_entries ring seq l.connId now i with h | h <;> rw [h]
  | @recover pre post l ring n =>
    exact hb.replace rfl (fun i hi => .inr (removed_known ring l.connId i hi).2)
      (fun id _ => owed_remove_le ring l.connId id)
      fun hl => hl.mono rfl (owed_remove_le ring l.connId l.connId) rfl le_rfl
  | @reopen pre post l ring n =>
    exact hb.replace rfl (fun i hi => .inr (removed_known ring l.connId i hi).2)
      (fun id _ => owed_remove_le ring l.connId id)
      fun _ => .fresh (owed_remove_self ring l.connId) rfl
  | @close pre post l ring n =>
    have hids := hb.ids
    have hcovered := hb.covered
    rw [List.map_append, List.map_cons, List.nodup_middle, List.nodup_cons, ← List.map_append] at hids
    refine ⟨hids.2, fun i hi => ?_, fun x hx => ?_⟩
    · obtain ⟨hne, heq⟩ := removed_known ring l.connId i hi
      rw [heq] at hi ⊢
      have hknown := hb.known i hi
      rw [List.map_append, List.map_cons, List.mem_append, List.mem_cons] at hknown
      rw [List.map_append, List.mem_append]
      exact hknown.imp_right fun h => h.resolve_left hne
    · have hmem : x ∈ pre ++ l :: post := by
        rcases List.mem_append.mp hx with h | h
        · exact List.mem_append_left _ h
        · exact List.mem_append_right _ (List.mem_cons_of_mem _ h)
      exact (hcovered x hmem).mono rfl (owed_remove_le ring l.connId x.connId) rfl le_rfl
  | @connect links ring n connId _ localIp hfresh =>
    obtain ⟨hid, hunused⟩ := hfresh trivial
    have hnew : connId ∉ links.map (·.connId) := by
      intro hmem
      obtain ⟨x, hx, heq⟩ := List.mem_map.mp hmem
      exact hunused x hx heq
    have howed : owed ring connId = 0 := by
      refine Finset.sum_eq_zero fun i _ => due_of_ne fun heq => hnew ?_
      exact heq ▸ hb.known i (heq ▸ hid)
    refine ⟨?_, fun i hi => ?_, ?_⟩
    · rw [List.map_append, List.nodup_append]
      refine ⟨hb.ids, List.nodup_singleton _, ?_⟩
      intro x hx y hy heq
      obtain rfl : y = connId := List.mem_singleton.mp hy
      exact hnew (heq ▸ hx)
    · rw [List.map_append]
      exact List.mem_append_left _ (hb.known i hi)
    · refine List.forall_mem_append.mpr ⟨hb.covered, fun x hx => ?_⟩
      obtain rfl := List.mem_singleton.mp hx
      exact .fresh howed rfl

end Solvent

/-- In every run, the bytes that a link reports as delivered are bytes that it reports as sent. -/
theorem delivered_le_sent [F64Exp F] [DecidableEq A] (s : Setup A) (es : List (Event A))
    (hdraws : DrawsAnew F s es) :
    ∀ c ∈ (run s es : State F A).connections,
      c.deliveredBitrate.bytesSentTotal ≤ c.bitrate.bytesSentTotal := by
  obtain ⟨m, -, hrun⟩ := run_invariant (F := F) True (I := Solvent (A := A)) .empty
    (fun _ _ h hb => hb.step h) s es fun _ => hdraws
  intro c hc
  obtain ⟨hcapped, hcovered⟩ := hrun.covered c.link (List.mem_map_of_mem hc)
  rcases hcovered with hfull | hcovered
  · exact hcapped.trans hfull.ge
  · exact (Nat.le_add_right _ _).trans hcovered

theorem delivered_le_sent_acknowledged :
    ∃ c ∈ (run oneLink [.datagram [0, 0, 0, 5, 1, 2, 3, 4] 10 fun _ => none, .flush 30 fun _ => none,
        .packet 7 (createAckPacket [5]) 60] : State ℚ Ipv4).connections,
      c.deliveredBitrate.bytesSentTotal ≤ c.bitrate.bytesSentTotal := by
  have hne : (run oneLink [.datagram [0, 0, 0, 5, 1, 2, 3, 4] 10 fun _ => none, .flush 30 fun _ => none,
      .packet 7 (createAckPacket [5]) 60] : State ℚ Ipv4).connections ≠ [] := by decide +kernel
  obtain ⟨c, hc⟩ := List.exists_mem_of_ne_nil _ hne
  exact ⟨c, hc, delivered_le_sent oneLink [.datagram _ 10 _, .flush 30 _, .packet 7 _ 60]
    ⟨oneLink_draws, trivial, trivial, trivial, trivial⟩ c hc⟩

end Srtla.Bond
