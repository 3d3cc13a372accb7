import SrtlaOutput.Bond.Credit
import SrtlaOutput.Lib.InOrder

/-! The packets of the caller on the wire of one uplink: in the order they were handed in, each
at most once, as they are or marked as retransmitted. -/

namespace Srtla.Bond
open Uplink Wire
variable {F A : Type}

/-- What may go out for a packet of the caller. -/
def Copy (data pkt : List UInt8) : Prop := data = pkt ∨ data = setSrtDataRetransmit pkt

abbrev Follows : List (List UInt8) → List (List UInt8) → Prop := List.SublistForall₂ Copy

def Output.on (k : UInt64) : Output → Option (List UInt8)
  | .uplink connId data => if connId = k then some data else none
  | .client _ => none

def sentOn (k : UInt64) (outs : List Output) : List (List UInt8) := outs.filterMap (Output.on k)

def Event.datagram? : Event A → Option (List UInt8)
  | .datagram pkt _ _ => some pkt
  | _ => none

/-- The packets of the caller among the output of a step. The other events send none. -/
def Event.payload (outs : List Output) : Event A → List Output
  | .datagram _ _ _ => outs
  | .flush _ _ => outs
  | _ => []

def waiting (l : Link A) : List (List UInt8) := l.queue.map (·.data)

theorem sentOn_append (k : UInt64) (outs outs' : List Output) :
    sentOn k (outs ++ outs') = sentOn k outs ++ sentOn k outs' := List.filterMap_append

theorem sentOn_uplink (k : UInt64) (datas : List (List UInt8)) :
    sentOn k (datas.map (.uplink k)) = datas := by
  rw [sentOn, List.filterMap_map]
  exact (List.filterMap_congr fun d _ => if_pos rfl).trans List.filterMap_some

theorem sentOn_uplink_of_ne {k k' : UInt64} (h : k' ≠ k) (datas : List (List UInt8)) :
    sentOn k (datas.map (.uplink k')) = [] := by
  rw [sentOn, List.filterMap_map]
  exact List.filterMap_eq_nil_iff.mpr fun d _ => if_neg h

/-! One link. -/

section Link
variable [F64 F]

/-- A call on a link sends some of its packets; what follows on them follows the caller. -/
def Carries (handed handed' : List (List UInt8)) (e : Effects) (c : Connection F A)
    (e' : Effects) (c' : Connection F A) : Prop :=
  ∃ datas, e'.out = e.out ++ datas.map (.uplink c.connId) ∧ c'.connId = c.connId ∧
    ∀ past, Follows (past ++ waiting c.link) handed →
      Follows (past ++ (datas ++ waiting c'.link)) handed'

variable {handed handed' handed'' : List (List UInt8)} {e e' e'' : Effects}
  {c c' c'' : Connection F A}

theorem Carries.refl : Carries handed handed e c e c :=
  ⟨[], by simp, rfl, fun _ h => h⟩

theorem Carries.trans (h : Carries handed handed' e c e' c')
    (h' : Carries handed' handed'' e' c' e'' c'') : Carries handed handed'' e c e'' c'' := by
  obtain ⟨datas, hout, hid, hfollows⟩ := h
  obtain ⟨datas', hout', hid', hfollows'⟩ := h'
  refine ⟨datas ++ datas', ?_, hid'.trans hid, fun past hpast => ?_⟩
  · rw [hout', hout, hid, List.map_append, List.append_assoc]
  · have hmiddle := hfollows' (past ++ datas) (by rw [List.append_assoc]; exact hfollows past hpast)
    simpa only [List.append_assoc] using hmiddle

theorem waiting_flush (l : Uplink.Link A) : waiting l.flush = [] := by
  have hqueue : l.flush.queue = [] :=
    Link.foldl_register Link.queue (fun l p => by rw [Link.register]; split <;> rfl) _ _
  rw [waiting, hqueue, List.map_nil]

theorem flushConnection_carries (e : Effects) (c : Connection F A) (now : ℕ)
    (refused : Option ℕ) :
    Carries handed handed e c (flushConnection e c now refused).1
      (flushConnection e c now refused).2 := by
  have hid : (c.takeBatch now).1.connId = c.connId :=
    (congrArg Link.connId (c.takeBatch_link now)).trans (Link.flush_connId c.link)
  have hwaiting : waiting (c.takeBatch now).1.link = [] := by
    rw [c.takeBatch_link, waiting_flush]
  have hbatch : (c.takeBatch now).2.map (·.data) = waiting c.link := rfl
  rw [flushConnection]
  dsimp only
  split
  next hnil =>
    rw [hnil] at hbatch
    refine ⟨[], by simp, hid, fun past hpast => ?_⟩
    rw [hwaiting, hbatch.symm] at *
    exact hpast
  next =>
    refine ⟨waiting c.link, ?_, hid, fun past hpast => ?_⟩
    · rw [hid, ← hbatch, List.map_map]
      rfl
    · rw [hwaiting, List.append_nil]
      exact hpast
  next k _ =>
    refine ⟨(waiting c.link).take k, ?_, hid, fun past hpast => ?_⟩
    · rw [recoverConnection, hid, ← hbatch, ← List.map_take, List.map_map]
      rfl
    · rw [recoverConnection, Connection.markForRecovery_link]
      have hrecover : waiting (c.takeBatch now).1.link.recover = [] := rfl
      rw [hrecover, List.append_nil]
      exact InOrder.of_sublist (List.Sublist.append_left (List.take_sublist k _) past) hpast

theorem flushLink_carries (now : ℕ) (refused : ℕ → Option ℕ) (i : ℕ) (e : Effects)
    (c : Connection F A) :
    Carries handed handed e c (flushLink now refused i e c).1 (flushLink now refused i e c).2 := by
  rw [flushLink]
  split
  · exact flushConnection_carries e c now (refused i)
  · exact .refl

theorem forwardLink_carries (pkt : List UInt8) (seq : Option UInt32) (now sel : ℕ)
    (refused : ℕ → Option ℕ) (e : Effects) (c : Connection F A) :
    Carries handed (handed ++ [pkt]) e c (forwardLink sel pkt seq now refused sel e c).1
      (forwardLink sel pkt seq now refused sel e c).2 := by
  have hqueue : ∀ sequence, Carries handed (handed ++ [pkt]) e c { e with sequence }
      (c.queueDataPacket pkt seq now).1 := fun sequence =>
    ⟨[], by simp, rfl, fun past hpast => by
      have hwaiting : waiting (c.queueDataPacket pkt seq now).1.link = waiting c.link ++ [pkt] :=
        List.map_append
      rw [List.nil_append, hwaiting, ← List.append_assoc]
      exact InOrder.append hpast (.cons (.inl rfl) .nil)⟩
  rw [forwardLink, if_neg (not_not.mpr rfl)]
  dsimp only
  cases seq with
  | none =>
    split
    · exact (hqueue e.sequence).trans (flushConnection_carries _ _ now (refused sel))
    · exact hqueue e.sequence
  | some s =>
    split
    · exact (hqueue _).trans (flushConnection_carries _ _ now (refused sel))
    · exact hqueue _

theorem probeLink_carries {i sel : ℕ} (hi : i ≠ sel) (pkt : List UInt8) (seq : UInt32) (now : ℕ)
    (refused : ℕ → Option ℕ) (e : Effects) (c : Connection F A) :
    Carries handed (handed ++ [pkt]) e c (probeLink sel pkt seq now refused i e c).1
      (probeLink sel pkt seq now refused i e c).2 := by
  have hidle : ∀ c' : Connection F A, c'.link = c.link →
      Carries handed (handed ++ [pkt]) e c e c' := fun c' hc' =>
    ⟨[], by simp, congrArg Link.connId hc', fun past hpast => by
      rw [hc', List.nil_append]
      exact InOrder.append_right hpast [pkt]⟩
  have hprobe : Carries handed (handed ++ [pkt]) e c e
      (c.stallProbeDue.1.queueProbePacket (setSrtDataRetransmit pkt) seq now).1 := by
    have hlink := c.stallProbeDue.1.queueProbePacket_link (setSrtDataRetransmit pkt) seq now
    rw [Connection.stallProbeDue_link] at hlink
    refine ⟨[], by simp, congrArg Link.connId hlink, fun past hpast => ?_⟩
    have hwaiting : waiting (c.link.probe seq (setSrtDataRetransmit pkt) now) =
        waiting c.link ++ [setSrtDataRetransmit pkt] := List.map_append
    rw [hlink, hwaiting, List.nil_append, ← List.append_assoc]
    exact InOrder.append hpast (.cons (.inr rfl) .nil)
  rw [probeLink, if_neg hi]
  split
  · exact hidle c rfl
  · dsimp only
    split
    · exact hidle _ c.stallProbeDue_link
    · split
      · exact hprobe.trans (flushConnection_carries _ _ now (refused i))
      · exact hprobe

end Link

/-! A loop over the links. -/

section Loop
variable [F64 F]

theorem sweep_carries {bound bound' : ℕ → List (List UInt8)}
    {f : ℕ → Effects → Connection F A → Effects × Connection F A}
    (hf : ∀ i e c, Carries (bound i) (bound' i) e c (f i e c).1 (f i e c).2)
    (i : ℕ) (e : Effects) {conns : List (Connection F A)} (hids : (conns.map (·.connId)).Nodup) :
    ∃ outs, (Sweep.run f i e conns).1.out = e.out ++ outs ∧
      (∀ k, k ∉ conns.map (·.connId) → sentOn k outs = []) ∧
      ∀ (j : ℕ) c', (Sweep.run f i e conns).2[j]? = some c' → ∃ c, conns[j]? = some c ∧
        c'.connId = c.connId ∧ ∀ past, Follows (past ++ waiting c.link) (bound (i + j)) →
          Follows (past ++ (sentOn c.connId outs ++ waiting c'.link)) (bound' (i + j)) := by
  -- the output of a loop, seen from each link. No two links have the same id.
  induction conns generalizing i e with
  | nil => exact ⟨[], by simp, fun _ _ => rfl, fun j c' h => absurd h (by simp)⟩
  | cons c conns ih =>
    obtain ⟨hhead, hrest⟩ := List.nodup_cons.mp hids
    have hc : c.connId ∉ conns.map (·.connId) := hhead
    obtain ⟨datas, hout, hid, hfollows⟩ := hf i e c
    obtain ⟨outs, houts, hnone, hlinks⟩ := ih (i + 1) (f i e c).1 hrest
    refine ⟨datas.map (.uplink c.connId) ++ outs, ?_, fun k hk => ?_, fun j c' hj => ?_⟩
    · rw [Sweep.run_cons, houts, hout, List.append_assoc]
    · rw [List.map_cons, List.mem_cons, not_or] at hk
      rw [sentOn_append, sentOn_uplink_of_ne (Ne.symm hk.1), hnone k hk.2, List.append_nil]
    · rw [Sweep.run_cons] at hj
      cases j with
      | zero =>
        obtain rfl := Option.some.inj hj
        refine ⟨c, rfl, hid, fun past hpast => ?_⟩
        rw [sentOn_append, sentOn_uplink, hnone c.connId hc, List.append_nil]
        exact hfollows past hpast
      | succ j =>
        obtain ⟨x, hx, hxid, hxfollows⟩ := hlinks j c' hj
        have hne : c.connId ≠ x.connId := by
          intro heq
          rw [heq] at hc
          exact hc (List.mem_map_of_mem (List.mem_of_getElem? hx))
        refine ⟨x, hx, hxid, fun past hpast => ?_⟩
        rw [Nat.add_right_comm, Nat.add_assoc] at hxfollows
        rw [sentOn_append, sentOn_uplink_of_ne hne, List.nil_append]
        exact hxfollows past hpast

def Queued (bound : ℕ → List (List UInt8)) (sent : UInt64 → List (List UInt8))
    (ls : List (Link A)) : Prop :=
  ∀ i l, ls[i]? = some l → Follows (sent l.connId ++ waiting l) (bound i)

theorem sweep_queued (bound bound' : ℕ → List (List UInt8)) {sent : UInt64 → List (List UInt8)}
    {f : ℕ → Effects → Connection F A → Effects × Connection F A}
    (hf : ∀ i e c, Carries (bound i) (bound' i) e c (f i e c).1 (f i e c).2)
    (e : Effects) {conns : List (Connection F A)} (hids : ((links conns).map (·.connId)).Nodup)
    (hqueued : Queued bound sent (links conns)) :
    ∃ outs, (Sweep.run f 0 e conns).1.out = e.out ++ outs ∧
      (∀ k, k ∉ (links conns).map (·.connId) → sentOn k outs = []) ∧
      Queued bound' (fun k => sent k ++ sentOn k outs) (links (Sweep.run f 0 e conns).2) ∧
      (links (Sweep.run f 0 e conns).2).map (·.connId) = (links conns).map (·.connId) := by
  have hmap : ∀ conns : List (Connection F A),
      (links conns).map (·.connId) = conns.map (·.connId) := fun conns => List.map_map
  rw [hmap] at hids
  obtain ⟨outs, hout, hnone, hlinks⟩ := sweep_carries hf 0 e hids
  refine ⟨outs, hout, fun k hk => hnone k (hmap conns ▸ hk), fun j l hl => ?_, ?_⟩
  · rw [links, List.getElem?_map] at hl
    obtain ⟨c', hc', rfl⟩ := Option.map_eq_some_iff.mp hl
    obtain ⟨c, hc, hid, hfollows⟩ := hlinks j c' hc'
    rw [Nat.zero_add] at hfollows
    have hpast := hqueued j c.link (by rw [links, List.getElem?_map, hc]; rfl)
    have hid' : c'.link.connId = c.connId := hid
    dsimp only
    rw [hid', List.append_assoc]
    exact hfollows _ hpast
  · rw [hmap, hmap]
    exact Sweep.map_run fun i e c _ => (hf i e c).choose_spec.2.1

end Loop

/-! A step. -/

section Step
variable {handed : List (List UInt8)} {sent : UInt64 → List (List UInt8)}

/-- On every uplink, what went out and what still waits follows the caller. -/
structure Orderly (handed : List (List UInt8)) (sent : UInt64 → List (List UInt8))
    (ls : List (Link A)) : Prop where
  past : ∀ k, Follows (sent k) handed
  queued : ∀ l ∈ ls, Follows (sent l.connId ++ waiting l) handed

theorem Orderly.of_queued {ls ls' : List (Link A)} {outs : List Output}
    (pkts : List (List UInt8)) (h : Orderly handed sent ls)
    (hids : ls'.map (·.connId) = ls.map (·.connId))
    (hnone : ∀ k, k ∉ ls.map (·.connId) → sentOn k outs = [])
    (hqueued : Queued (fun _ => handed ++ pkts) (fun k => sent k ++ sentOn k outs) ls') :
    Orderly (handed ++ pkts) (fun k => sent k ++ sentOn k outs) ls' := by
  refine ⟨fun k => ?_, fun l hl => ?_⟩
  · by_cases hk : k ∈ ls.map (·.connId)
    · rw [← hids] at hk
      obtain ⟨l, hl, rfl⟩ := List.mem_map.mp hk
      obtain ⟨i, hi⟩ := List.mem_iff_getElem?.mp hl
      exact InOrder.of_sublist (List.sublist_append_left _ _) (hqueued i l hi)
    · rw [hnone k hk, List.append_nil]
      exact InOrder.append_right (h.past k) pkts
  · obtain ⟨i, hi⟩ := List.mem_iff_getElem?.mp hl
    exact hqueued i l hi

theorem Orderly.quiet {w : Scope} (hw : ¬ w.busy) {b b' : Ledger A} (h : Ledger.Steps w b b')
    (hb : Orderly handed sent b.links) : Orderly handed sent b'.links := by
  have hempty : ∀ l : Link A, waiting l = [] → Follows (sent l.connId ++ waiting l) handed := by
    intro l hl
    rw [hl, List.append_nil]
    exact hb.past l.connId
  have hkeeps : Ledger.Keeps w fun l : Link A => Follows (sent l.connId ++ waiting l) handed :=
    { fresh := fun id ip => hempty (.fresh id ip) rfl
      step := fun l l' hl hstep => by cases hstep <;> exact hl
      reopen := fun l _ => hempty l.reopen rfl
      recover := fun l _ => hempty l.recover rfl
      join := fun l _ => hempty l.join rfl
      admin := fun l _ hl => hl
      paid := fun l d hl => by
        rw [Ledger.paid]
        split <;> exact hl
      offer := fun hbusy => absurd hbusy hw
      probe := fun hbusy => absurd hbusy hw
      flush := fun hbusy => absurd hbusy hw }
  exact ⟨hb.past, h.invariant (I := fun b => ∀ l ∈ b.links,
    Follows (sent l.connId ++ waiting l) handed) hkeeps.forall_step hb.queued⟩

variable [F64Exp F]

theorem forward_queued {conns : List (Connection F A)} (sel : ℕ) (pkt : List UInt8)
    (seq : Option UInt32) (now : ℕ) (refused : ℕ → Option ℕ) (e : Effects)
    (hids : ((links conns).map (·.connId)).Nodup) (hb : Orderly handed sent (links conns)) :
    ∃ outs, (forwardViaConnection e conns sel pkt seq now refused).1.out = e.out ++ outs ∧
      (∀ k, k ∉ (links conns).map (·.connId) → sentOn k outs = []) ∧
      Queued (fun i => if i = sel then handed ++ [pkt] else handed)
        (fun k => sent k ++ sentOn k outs)
        (links (forwardViaConnection e conns sel pkt seq now refused).2) ∧
      (links (forwardViaConnection e conns sel pkt seq now refused).2).map (·.connId) =
        (links conns).map (·.connId) := by
  have hcall : ∀ i (e : Effects) (c : Connection F A),
      Carries handed (if i = sel then handed ++ [pkt] else handed) e c
        (forwardLink sel pkt seq now refused i e c).1 (forwardLink sel pkt seq now refused i e c).2 := by
    intro i e c
    split
    next hi =>
      rw [hi]
      exact forwardLink_carries pkt seq now sel refused e c
    next hi =>
      rw [forwardLink, if_pos hi]
      exact .refl
  exact sweep_queued _ _ hcall e hids fun i l hl => hb.queued l (List.mem_of_getElem? hl)

theorem probes_queued {conns : List (Connection F A)} (sel : ℕ) (pkt : List UInt8)
    (seq : UInt32) (now : ℕ) (refused : ℕ → Option ℕ) (e : Effects)
    (hids : ((links conns).map (·.connId)).Nodup)
    (hqueued : Queued (fun i => if i = sel then handed ++ [pkt] else handed) sent (links conns)) :
    ∃ outs, (sendStallProbes e conns sel pkt seq now refused).1.out = e.out ++ outs ∧
      (∀ k, k ∉ (links conns).map (·.connId) → sentOn k outs = []) ∧
      Queued (fun _ => handed ++ [pkt]) (fun k => sent k ++ sentOn k outs)
        (links (sendStallProbes e conns sel pkt seq now refused).2) ∧
      (links (sendStallProbes e conns sel pkt seq now refused).2).map (·.connId) =
        (links conns).map (·.connId) := by
  have hcall : ∀ i (e : Effects) (c : Connection F A),
      Carries (if i = sel then handed ++ [pkt] else handed) (handed ++ [pkt]) e c
        (probeLink sel pkt seq now refused i e c).1 (probeLink sel pkt seq now refused i e c).2 := by
    intro i e c
    split
    next hi =>
      rw [probeLink, if_pos hi]
      exact .refl
    next hi => exact probeLink_carries hi pkt seq now refused e c
  exact sweep_queued _ _ hcall e hids hqueued

theorem Queued.mono {bound bound' : ℕ → List (List UInt8)} {ls : List (Link A)}
    (h : Queued bound sent ls) (hbound : ∀ i past, Follows past (bound i) → Follows past (bound' i)) :
    Queued bound' sent ls := fun i l hl => hbound i _ (h i l hl)

theorem carried_orderly {sel : ℕ} {conns : List (Connection F A)} (pkt : List UInt8)
    (seq : Option UInt32) (now : ℕ) (refused : ℕ → Option ℕ) (sequence : SequenceTracker)
    (probes : Option UInt32) (hids : ((links conns).map (·.connId)).Nodup)
    (hb : Orderly handed sent (links conns)) :
    let forwarded := forwardViaConnection { sequence } conns sel pkt seq now refused
    let probed := match probes with
      | some s => sendStallProbes forwarded.1 forwarded.2 sel pkt s now refused
      | none => forwarded
    Orderly (handed ++ [pkt]) (fun k => sent k ++ sentOn k probed.1.out) (links probed.2) := by
  intro forwarded probed
  obtain ⟨outs, hout, hnone, hqueued, hlinks⟩ :=
    forward_queued sel pkt seq now refused { sequence } hids hb
  rw [List.nil_append] at hout
  have hafter : ∀ i past, Follows past (if i = sel then handed ++ [pkt] else handed) →
      Follows past (handed ++ [pkt]) := by
    intro i past h
    split at h
    · exact h
    · exact InOrder.append_right h [pkt]
  cases probes with
  | none =>
    have houts : probed.1.out = outs := hout
    rw [houts]
    exact hb.of_queued _ hlinks hnone (hqueued.mono hafter)
  | some s =>
    obtain ⟨outs', hout', hnone', hqueued', hlinks'⟩ := probes_queued sel pkt s now refused
      forwarded.1 (hlinks ▸ hids) hqueued
    have houts : probed.1.out = outs ++ outs' := hout'.trans (congrArg (· ++ outs') hout)
    rw [houts]
    refine hb.of_queued _ (hlinks'.trans hlinks) (fun k hk => ?_) ?_
    · rw [sentOn_append, hnone k hk, hnone' k (hlinks ▸ hk), List.append_nil]
    · intro i l hl
      simp only [sentOn_append, ← List.append_assoc]
      exact hqueued' i l hl

theorem Orderly.drop {ls : List (Link A)} (h : Orderly handed sent ls) (pkt : List UInt8) :
    Orderly (handed ++ [pkt]) (fun k => sent k ++ sentOn k []) ls where
  past k := (List.append_nil (sent k)).symm ▸ InOrder.append_right (h.past k) [pkt]
  queued l hl := (List.append_nil (sent l.connId)).symm ▸ InOrder.append_right (h.queued l hl) [pkt]

theorem datagram_orderly (b : State F A) (pkt : List UInt8) (now : ℕ) (refused : ℕ → Option ℕ)
    (hids : ((links b.connections).map (·.connId)).Nodup)
    (hb : Orderly handed sent (links b.connections)) :
    Orderly (handed ++ [pkt])
      (fun k => sent k ++ sentOn k (b.handleSrtDatagram pkt now refused).2)
      (links (b.handleSrtDatagram pkt now refused).1.connections) := by
  rw [State.handleSrtDatagram]
  split
  · exact hb.drop pkt
  · dsimp only
    split
    · split
      · exact carried_orderly pkt _ now refused b.sequence none hids hb
      · exact hb.drop pkt
    · have hchoose := links_chooseIdx b.connections b.lastSelected pkt now b.config
      rw [← hchoose] at hids hb
      split
      · exact carried_orderly pkt _ now refused b.sequence (getSrtSequenceNumber pkt) hids hb
      · exact hb.drop pkt

theorem flush_orderly (conns : List (Connection F A)) (e : Effects) (now : ℕ)
    (refused : ℕ → Option ℕ) (he : e.out = []) (hids : ((links conns).map (·.connId)).Nodup)
    (hb : Orderly handed sent (links conns)) :
    Orderly handed (fun k => sent k ++ sentOn k (flushAllBatches e conns now refused).1.out)
      (links (flushAllBatches e conns now refused).2) := by
  obtain ⟨outs, hout, hnone, hqueued, hlinks⟩ := sweep_queued (fun _ => handed) (fun _ => handed)
    (flushLink_carries now refused) e hids
    fun i l hl => hb.queued l (List.mem_of_getElem? hl)
  rw [he, List.nil_append] at hout
  rw [flushAllBatches, hout]
  have horderly := hb.of_queued [] hlinks hnone
    (hqueued.mono fun i past h => InOrder.append_right h [])
  rwa [List.append_nil] at horderly

end Step

/-! Runs. -/

section Run
variable [F64Exp F] [DecidableEq A] {handed : List (List UInt8)}
  {sent : UInt64 → List (List UInt8)}

theorem step_orderly (b : State F A) (e : Event A)
    (hids : ((links b.connections).map (·.connId)).Nodup)
    (hb : Orderly handed sent (links b.connections)) :
    Orderly (handed ++ e.datagram?.toList)
      (fun k => sent k ++ sentOn k (e.payload (b.step e).2)) (links (b.step e).1.connections) := by
  have hquiet : ∀ (b' : State F A) {m : ℕ × ℕ},
      Ledger.Steps ⟨False, False, True⟩ (b.ledger 0) (b'.ledger m) →
      Orderly (handed ++ []) (fun k => sent k ++ sentOn k []) (links b'.connections) := by
    intro b' m hsteps
    have hb' := Orderly.quiet not_false hsteps hb
    simp only [List.append_nil, sentOn, List.filterMap_nil]
    exact hb'
  cases e with
  | datagram pkt now refused => exact datagram_orderly b pkt now refused hids hb
  | packet connId data now => exact hquiet _ (handleUplinkPacket_steps b connId data now)
  | control message opened now => exact hquiet _ (handleControl_steps trivial b False.elim now message)
  | tick opened now input => exact hquiet _ (tick_steps b (fun _ => trivial) False.elim now input)
  | flush now refused =>
    have hflush := flush_orderly b.connections { sequence := b.sequence } now refused rfl hids hb
    rw [← List.append_nil handed] at hflush
    exact hflush

def carried (k : UInt64) : State F A → List (Event A) → List (List UInt8)
  | _, [] => []
  | b, e :: es => sentOn k (e.payload (b.step e).2) ++ carried k (b.step e).1 es

theorem exec_orderly {b : State F A} {es : List (Event A)} {n : ℕ × ℕ} (hsolvent : Solvent (b.ledger n))
    (hdraws : Reactive.Along State.step (fun (b : State F A) e => e.Draws b) b es)
    (hb : Orderly handed sent (links b.connections)) (k : UInt64) :
    Follows (sent k ++ carried k b es) (handed ++ es.filterMap Event.datagram?) := by
  induction es generalizing b handed sent n with
  | nil =>
    rw [carried, List.append_nil, List.filterMap_nil, List.append_nil]
    exact hb.past k
  | cons e es ih =>
    obtain ⟨m, -, hsteps⟩ := step_steps (w := ⟨True, True, True⟩) (n := n) trivial trivial b e
      fun _ => hdraws.1
    have hsolvent' := hsteps.invariant (fun _ _ h hb => hb.step h) hsolvent
    have hrest := ih hsolvent' hdraws.2 (step_orderly b e hsolvent.ids hb)
    have hhanded : (e :: es).filterMap Event.datagram? =
        e.datagram?.toList ++ es.filterMap Event.datagram? := by
      cases e <;> rfl
    rw [hhanded, carried, ← List.append_assoc, ← List.append_assoc]
    exact hrest

/-- On each uplink, the packets of the caller go out in the order they were handed in, each at
most once, unchanged or marked as retransmitted. -/
theorem carried_in_order (s : Setup A) (es : List (Event A)) (hdraws : DrawsAnew F s es)
    (k : UInt64) :
    List.SublistForall₂ (fun data pkt => data = pkt ∨ data = setSrtDataRetransmit pkt)
      (carried k (s.start : State F A) es) (es.filterMap Event.datagram?) := by
  have hopened : ∀ busy, Ledger.Steps ⟨True, busy, True⟩ ⟨[], .new, 0⟩
      ((s.start : State F A).ledger 0) :=
    fun _ => start_steps trivial s fun _ => hdraws.1
  have hsolvent : Solvent ((s.start : State F A).ledger 0) :=
    (hopened True).invariant (fun _ _ h hb => hb.step h) Solvent.empty
  have horderly : Orderly [] (fun _ => []) (links (s.start : State F A).connections) :=
    Orderly.quiet not_false (hopened False) ⟨fun _ => .nil, fun _ h => absurd h List.not_mem_nil⟩
  exact exec_orderly hsolvent hdraws.2 horderly k

end Run

theorem carried_in_order_one_link :
    List.SublistForall₂ (fun data pkt => data = pkt ∨ data = setSrtDataRetransmit pkt)
      (carried (F := ℚ) (A := Ipv4) 7 oneLink.start
        [.datagram [0, 0, 0, 5, 1, 2, 3, 4] 10 fun _ => none, .datagram [0, 0, 0, 6, 1] 11 fun _ => none,
          .flush 30 fun _ => some 1])
      [[0, 0, 0, 5, 1, 2, 3, 4], [0, 0, 0, 6, 1]] :=
  carried_in_order (F := ℚ) (A := Ipv4) oneLink [.datagram _ 10 _, .datagram _ 11 _, .flush 30 _]
    ⟨oneLink_draws, trivial, trivial, trivial, trivial⟩ 7

end Srtla.Bond
