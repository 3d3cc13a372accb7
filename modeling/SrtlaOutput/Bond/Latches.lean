import SrtlaOutput.Bond.Choice
import SrtlaOutput.Bond.Credit
import SrtlaOutput.Uplink.Stall

/-! The stall latches in the runs of the loop. Only a look at the links for a datagram moves a
latch; all that else happens to a link leaves its latch alone, or sets it up anew. -/

namespace Srtla.Bond
open Uplink Wire Dwell
variable {F A : Type}

section Calls
variable [F64 F]

omit [F64 F] in
theorem takeBatch_stamp (c : Connection F A) (now : ℕ) : (c.takeBatch now).1.stamp = c.stamp :=
  Connection.takeBatch_induction (motive := fun c' => c'.stamp = c.stamp) rfl fun _ _ _ h _ _ => h

theorem handleSrtAck_stamp (c : Connection F A) (ack : Int32) (now : ℕ) (owns : Bool) :
    (c.handleSrtAck ack now owns).stamp = c.stamp := by
  rw [Connection.handleSrtAck]
  dsimp only
  split <;> rfl

omit [F64 F] in
theorem handleNak_stamp (c : Connection F A) (seq : Int32) (now : ℕ) :
    (c.handleNak seq now).1.stamp = c.stamp := by
  rw [Connection.handleNak]
  split <;> rfl

theorem handleSrtlaAckSpecific_stamp (c : Connection F A) (seq : Int32) (classic : Bool) (now : ℕ) :
    (c.handleSrtlaAckSpecific seq classic now).1.stamp = c.stamp := by
  rw [Connection.handleSrtlaAckSpecific]
  split
  · rfl
  · split <;> rfl

omit [F64 F] in
theorem handleSrtlaAckGlobal_stamp (c : Connection F A) : c.handleSrtlaAckGlobal.stamp = c.stamp := by
  rw [Connection.handleSrtlaAckGlobal]
  split <;> rfl

theorem updatePhase_stamp (c : Connection F A) (now : ℕ) : (c.updatePhase now).stamp = c.stamp := by
  rw [Connection.updatePhase]
  split
  · split <;> rfl
  · split <;> rfl
  · split <;> rfl
  · rfl

theorem armRejoinRamp_stamp (c : Connection F A) (now rampMs : ℕ) (fromStallGate : Bool) :
    (c.armRejoinRamp now rampMs fromStallGate).stamp = c.stamp := by
  rw [Connection.armRejoinRamp]
  split <;> rfl

theorem updateSilencePull_stamp (c : Connection F A) (now : ℕ) (minInFlight : ℤ) (ceiling : ℕ) :
    (c.updateSilencePull now minInFlight ceiling).stamp = c.stamp := by
  rw [Connection.updateSilencePull]
  split
  · rfl
  · split
    · rfl
    · dsimp only
      split <;> rfl

theorem releaseSoleCarrier_stamp (c : Connection F A) (now : ℕ) :
    (releaseSoleCarrier c now).stamp = c.stamp := by
  rw [releaseSoleCarrier]
  dsimp only
  split
  · exact armRejoinRamp_stamp _ _ _ _
  · rfl

theorem takeRole_stamp (c : Connection F A) (now : ℕ) (handover : Bool) :
    (takeRole c now handover).stamp = c.stamp := by
  have hrole : ∀ c : Connection F A, (if c.soleCarrier then c else { c with
      soleCarrier := true
      soleCarrierSinceMs := if handover || decide (c.soleCarrierSinceMs = 0) then now
        else c.soleCarrierSinceMs }).stamp = c.stamp := by
    intro c
    split <;> rfl
  rw [takeRole]
  refine (hrole _).trans ?_
  split
  · exact armRejoinRamp_stamp _ _ _ _
  · rfl

theorem processKeepalive_stamp (c : Connection F A) (data : List UInt8) (now : ℕ) :
    (processKeepalive c data now).stamp = c.stamp := by
  have hprobe : ∀ c : Connection F A, c.recordRttProbe.stamp = c.stamp := by
    intro c
    rw [Connection.recordRttProbe]
    split
    · split <;> rfl
    · rfl
  rw [processKeepalive]
  dsimp only
  split
  · exact hprobe _
  · rfl

theorem processUplinkPacket_stamp (c : Connection F A) (connIdx : ℕ) (reg : SrtlaRegistrationManager)
    (data : List UInt8) (now : ℕ) : (processUplinkPacket c connIdx reg data now).1.stamp = c.stamp := by
  have hregistered : ∀ event, (registered c now event).stamp = c.stamp := fun event => by
    cases event <;> rfl
  rw [processUplinkPacket]
  split
  · rfl
  · dsimp only
    split
    · exact hregistered _
    · dsimp only
      split
      · exact processKeepalive_stamp _ _ _
      · rfl

theorem ackArrival_stamp (c : Connection F A) (seq : UInt32) (delivery : Option DeliveryCredit)
    (classic : Bool) (now : ℕ) : (ackArrival c seq delivery classic now).1.stamp = c.stamp := by
  rw [ackArrival]
  dsimp only
  cases delivery.filter (·.newlyCredited) with
  | none => exact handleSrtlaAckSpecific_stamp _ _ _ _
  | some credit =>
    dsimp only
    split
    · exact handleSrtlaAckSpecific_stamp _ _ _ _
    · exact handleSrtlaAckSpecific_stamp _ _ _ _

end Calls

/-! All links have their looks. -/

section Lists

/-- The latch of a link knows of the looks at it, of which `looks` has those at each link. -/
def Seen (looks : UInt64 → List Look) (c : Connection F A) : Prop :=
  c.latch.Knows (looks c.connId)

variable {looks : UInt64 → List Look}

theorem Seen.same {c c' : Connection F A} (h : Seen looks c) (hsame : c'.stamp = c.stamp) :
    Seen looks c' := by
  obtain ⟨hid, hlatch⟩ := Prod.mk.inj hsame
  rwa [Seen, hid, hlatch]

theorem Seen.anew {c : Connection F A} (h : c.latch = {}) : Seen looks c := by
  rw [Seen, h]
  exact .of_unset _

def AllSeen (looks : UInt64 → List Look) (conns : List (Connection F A)) : Prop :=
  ∀ c ∈ conns, Seen looks c

namespace AllSeen
variable {conns : List (Connection F A)} {σ : Type}

theorem map (h : AllSeen looks conns) {f : Connection F A → Connection F A}
    (hf : ∀ c, (f c).stamp = c.stamp) : AllSeen looks (conns.map f) :=
  List.forall_mem_map.mpr fun c hc => (h c hc).same (hf c)

theorem sweep (h : AllSeen looks conns) {f : ℕ → σ → Connection F A → σ × Connection F A} (i : ℕ) (s : σ)
    (hf : ∀ i s c, Seen looks c → Seen looks (f i s c).2) : AllSeen looks (Sweep.run f i s conns).2 :=
  Sweep.forall_run fun i s c hc => hf i s c (h c hc)

theorem mapIdx (h : AllSeen looks conns) {f : ℕ → Connection F A → Connection F A}
    (hf : ∀ i c, (f i c).stamp = c.stamp) : AllSeen looks (conns.mapIdx f) := by
  intro c' hc'
  obtain ⟨i, hi, rfl⟩ := List.mem_mapIdx.mp hc'
  exact (h _ (List.getElem_mem hi)).same (hf i _)

theorem modify (h : AllSeen looks conns) (i : ℕ) {f : Connection F A → Connection F A}
    (hf : ∀ c, (f c).stamp = c.stamp) : AllSeen looks (conns.modify i f) := by
  intro c' hc'
  obtain ⟨k, hk⟩ := List.mem_iff_getElem?.mp hc'
  rw [List.getElem?_modify] at hk
  obtain ⟨c, hc, rfl⟩ := Option.map_eq_some_iff.mp hk
  have hseen := h c (List.mem_of_getElem? hc)
  split
  · exact hseen.same (hf c)
  · exact hseen

theorem set (h : AllSeen looks conns) {i : ℕ} {c c' : Connection F A} (hc : conns[i]? = some c)
    (hsame : c'.stamp = c.stamp) : AllSeen looks (conns.set i c') := by
  intro d hd
  rcases List.mem_or_eq_of_mem_set hd with hd | rfl
  · exact h d hd
  · exact (h c (List.mem_of_getElem? hc)).same hsame

end AllSeen

/-! A datagram. -/

theorem flushConnection_seen (e : Effects) {c : Connection F A} (h : Seen looks c) (now : ℕ)
    (refused : Option ℕ) : Seen looks (flushConnection e c now refused).2 := by
  have hbatch : Seen looks (c.takeBatch now).1 := h.same (takeBatch_stamp c now)
  rw [flushConnection]
  dsimp only
  split
  · exact hbatch
  · exact hbatch
  · exact .anew rfl

theorem flushAllBatches_seen (e : Effects) {conns : List (Connection F A)} (h : AllSeen looks conns)
    (now : ℕ) (refused : ℕ → Option ℕ) : AllSeen looks (flushAllBatches e conns now refused).2 := by
  refine h.sweep 0 e fun i e c hc => ?_
  rw [flushLink]
  split
  · exact flushConnection_seen e hc now _
  · exact hc

theorem forwardViaConnection_seen (e : Effects) {conns : List (Connection F A)} (h : AllSeen looks conns)
    (sel : ℕ) (pkt : List UInt8) (seq : Option UInt32) (now : ℕ) (refused : ℕ → Option ℕ) :
    AllSeen looks (forwardViaConnection e conns sel pkt seq now refused).2 := by
  refine h.sweep 0 e fun i e c hc => ?_
  have hqueued : Seen looks (c.queueDataPacket pkt seq now).1 := hc.same rfl
  rw [forwardLink]
  split
  · exact hc
  · dsimp only
    split
    · exact flushConnection_seen _ hqueued now _
    · exact hqueued

theorem sendStallProbes_seen (e : Effects) {conns : List (Connection F A)} (h : AllSeen looks conns)
    (sel : ℕ) (pkt : List UInt8) (seq : UInt32) (now : ℕ) (refused : ℕ → Option ℕ) :
    AllSeen looks (sendStallProbes e conns sel pkt seq now refused).2 := by
  refine h.sweep 0 e fun i e c hc => ?_
  have hdue : Seen looks c.stallProbeDue.1 := hc.same (by
    rw [Connection.stallProbeDue]
    split <;> rfl)
  have hqueued : Seen looks (c.stallProbeDue.1.queueProbePacket (setSrtDataRetransmit pkt) seq now).1 :=
    hdue.same rfl
  rw [probeLink]
  split
  · exact hc
  · split
    · exact hc
    · dsimp only
      split
      · exact hdue
      · split
        · exact flushConnection_seen _ hqueued now _
        · exact hqueued

variable [F64 F]

def poised (c : Connection F A) (config : ConfigSnapshot) (now : ℕ) : Connection F A :=
  { c with
    connTimeoutMs := config.connTimeoutMs
    delayBudgetMs := config.negotiatedLatencyMs }.updateSilencePull now config.stallMinInFlight
      config.stallAckStaleMs

def look (c : Connection F A) (config : ConfigSnapshot) (now : ℕ) : Look :=
  ⟨now, (poised c config now).clear now config.stallMinInFlight config.stallAckStaleMs⟩

theorem poised_stamp (c : Connection F A) (config : ConfigSnapshot) (now : ℕ) :
    (poised c config now).stamp = c.stamp :=
  updateSilencePull_stamp _ _ _ _

omit [F64 F] in
theorem stallGate_stamp (c : Connection F A) (anyHealthy : Bool) :
    (stallGate c anyHealthy).stamp = c.stamp := rfl

theorem updateStallLatch_connId (c : Connection F A) (now : ℕ) (minInFlight : ℤ) (ceiling : ℕ) :
    (c.updateStallLatch now minInFlight ceiling).connId = c.connId :=
  congrArg Link.connId (Connection.updateStallLatch_link _ _ _ _)

theorem getElem?_applyStallGate {conns : List (Connection F A)} {now : ℕ} {config : ConfigSnapshot}
    (hgate : config.stallDeselect = true) {i : ℕ} {c c' : Connection F A} (hc : conns[i]? = some c)
    (hc' : (applyStallGate conns now config)[i]? = some c') :
    c'.stallLatched = ((poised c config now).updateStallLatch now config.stallMinInFlight
      config.stallAckStaleMs).stallLatched := by
  rw [applyStallGate, hgate, if_neg (by decide)] at hc'
  simp only [List.getElem?_map, hc, Option.map_some, Option.some_inj] at hc'
  rw [← hc']
  rfl

theorem applyStallGate_seen {conns : List (Connection F A)} (h : AllSeen looks conns) {now : ℕ}
    (hnow : 0 < now) (config : ConfigSnapshot) {looks' : UInt64 → List Look}
    (hlooks : config.stallDeselect = true → ∀ c ∈ conns,
      looks' c.connId = looks c.connId ++ [look c config now]) :
    AllSeen looks' (applyStallGate conns now config) := by
  cases hgate : config.stallDeselect with
  | false =>
    rw [applyStallGate, hgate, if_pos Bool.not_false]
    refine List.forall_mem_map.mpr fun c _ => .anew ?_
    rw [Connection.clearStallLatch]
    dsimp only
    split <;> rfl
  | true =>
    rw [applyStallGate, hgate, if_neg (by decide)]
    refine AllSeen.map ?_ fun c => stallGate_stamp c _
    refine List.forall_mem_map.mpr fun _ htuned => ?_
    obtain ⟨c, hc, rfl⟩ := List.mem_map.mp htuned
    have hpoised : Seen looks (poised c config now) := (h c hc).same (poised_stamp c config now)
    have hid : (poised c config now).connId = c.connId :=
      congrArg Prod.fst (poised_stamp c config now)
    have hlatch := hpoised.look hnow config.stallMinInFlight config.stallAckStaleMs
    rw [hid] at hlatch
    change Seen looks' ((poised c config now).updateStallLatch now _ _)
    rw [Seen, updateStallLatch_connId, hid, hlooks hgate c hc]
    exact hlatch

end Lists

/-! The looks at a link in the course of a run. -/

section Looks

theorem find?_connId {conns : List (Connection F A)} (hids : (conns.map (·.connId)).Nodup)
    {c : Connection F A} (hc : c ∈ conns) : conns.find? (·.connId == c.connId) = some c := by
  induction conns with
  | nil => exact absurd hc List.not_mem_nil
  | cons d conns ih =>
    rw [List.map_cons, List.nodup_cons] at hids
    rcases List.mem_cons.mp hc with rfl | hc
    · exact List.find?_cons_of_pos (beq_self_eq_true _)
    · have hne : d.connId ≠ c.connId := fun heq => hids.1 (heq ▸ List.mem_map_of_mem hc)
      rw [List.find?_cons_of_neg (by simpa using hne)]
      exact ih hids.2 hc

variable [F64 F]

/-- A datagram looks at the links once the bond is registered, unless the gate is off. -/
def State.looks (b : State F A) : Event A → Bool
  | .datagram pkt _ _ => !pkt.isEmpty && b.reg.hasConnected && b.config.stallDeselect
  | _ => false

def State.lookAt (b : State F A) (e : Event A) (k : UInt64) : Option Look :=
  if b.looks e then (b.connections.find? (·.connId == k)).map (look · b.config e.now) else none

theorem looks_of_quiet {b : State F A} {e : Event A} (h : b.looks e = false)
    (looks : UInt64 → List Look) : (fun k => looks k ++ (b.lookAt e k).toList) = looks := by
  funext k
  rw [State.lookAt, h, if_neg Bool.false_ne_true]
  exact List.append_nil _

theorem lookAt_connId {b : State F A} {e : Event A} (h : b.looks e = true)
    (hids : (b.connections.map (·.connId)).Nodup) {c : Connection F A} (hc : c ∈ b.connections) :
    b.lookAt e c.connId = some (look c b.config e.now) := by
  rw [State.lookAt, if_pos h, find?_connId hids hc, Option.map_some]

end Looks

section Selection
variable [F64Exp F]

theorem gateQuality_seen {conns : List (Connection F A)} (h : AllSeen looks conns) (now : ℕ) :
    AllSeen looks (gateQuality conns now) := by
  have helect : ∀ ok, AllSeen looks (electSoleCarrier conns now ok).1 := by
    intro ok
    rw [electSoleCarrier]
    split
    · exact h.map fun c => releaseSoleCarrier_stamp c now
    · refine h.mapIdx fun i c => ?_
      split
      · exact takeRole_stamp _ _ _
      · rfl
  rw [gateQuality]
  dsimp only
  refine (helect _).mapIdx fun i c => ?_
  rw [holdOut]
  split
  · exact armRejoinRamp_stamp _ _ _ _
  · rfl

theorem enhancedScore_stamp (c : Connection F A) (now : ℕ) (anyUnconstrained enable : Bool) :
    (enhancedScore c now anyUnconstrained enable).1.stamp = c.stamp := by
  rw [enhancedScore]
  dsimp only
  split
  · rfl
  · rw [Connection.getCachedQualityMultiplier]
    dsimp only
    split <;> rfl

theorem selectConnectionIdx_seen {conns : List (Connection F A)} (h : AllSeen looks conns)
    (last : Option ℕ) {now : ℕ} (hnow : 0 < now) (config : ConfigSnapshot)
    (looks' : UInt64 → List Look) (hlooks : config.stallDeselect = true → ∀ c ∈ conns,
      looks' c.connId = looks c.connId ++ [look c config now]) :
    AllSeen looks' (selectConnectionIdx conns last now config).1 := by
  have hgated := applyStallGate_seen h hnow config hlooks
  rw [selectConnectionIdx]
  dsimp only
  split
  · exact hgated.map fun _ => rfl
  · rw [selectEnhanced]
    refine (gateQuality_seen hgated now).map fun c => ?_
    split
    · exact enhancedScore_stamp _ _ _ _
    · rfl

theorem handleSrtDatagram_seen {b : State F A} (h : AllSeen looks b.connections)
    (hids : (b.connections.map (·.connId)).Nodup) (pkt : List UInt8) {now : ℕ} (hnow : 0 < now)
    (refused : ℕ → Option ℕ) :
    AllSeen (fun k => looks k ++ (b.lookAt (.datagram pkt now refused) k).toList)
      (b.handleSrtDatagram pkt now refused).1.connections := by
  rw [State.handleSrtDatagram]
  split
  next hempty => rwa [looks_of_quiet (by rw [State.looks, hempty]; rfl)]
  next hempty =>
    dsimp only
    split
    next hunregistered =>
      rw [Bool.not_eq_true'] at hunregistered
      rw [looks_of_quiet (by rw [State.looks, hunregistered, Bool.and_false, Bool.false_and])]
      split
      · exact forwardViaConnection_seen _ h _ _ _ _ _
      · exact h
    next hregistered =>
      have hchosen : AllSeen (fun k => looks k ++ (b.lookAt (.datagram pkt now refused) k).toList)
          (State.chooseIdx b.connections b.lastSelected pkt now b.config).1 := by
        rw [Bool.not_eq_true, Bool.not_eq_false'] at hregistered
        have hselected := selectConnectionIdx_seen h b.lastSelected hnow b.config
          (fun k => looks k ++ (b.lookAt (.datagram pkt now refused) k).toList)
          fun hgate c hc => by
            rw [lookAt_connId (by simp [State.looks, hempty, hregistered, hgate]) hids hc]
            rfl
        rw [State.chooseIdx]
        dsimp only
        split <;> exact hselected
      split
      · dsimp only
        have hforwarded := fun sel => forwardViaConnection_seen { sequence := b.sequence } hchosen sel
          pkt (getSrtSequenceNumber pkt) now refused
        split
        · exact sendStallProbes_seen _ (hforwarded _) _ _ _ _ _
        · exact hforwarded _
      · exact hchosen

end Selection

/-! A packet of the receiver. -/

section Receive
variable [F64 F]

omit [F64 F] in
theorem nakFirst_seen {conns : List (Connection F A)} (h : AllSeen looks conns) (nak : Int32) (now : ℕ) :
    AllSeen looks (nakFirst nak now conns) := by
  induction conns with
  | nil => exact h
  | cons c cs ih =>
    obtain ⟨hc, hcs⟩ := List.forall_mem_cons.mp h
    rw [nakFirst]
    dsimp only
    split
    · exact List.forall_mem_cons.mpr ⟨hc.same (handleNak_stamp c nak now), hcs⟩
    · exact List.forall_mem_cons.mpr ⟨hc, ih hcs⟩

theorem ackOther_seen {conns : List (Connection F A)} (h : AllSeen looks conns) (skip : ℕ) (seq : Int32)
    (classic : Bool) (now i : ℕ) : AllSeen looks (ackOther skip seq classic now i conns) := by
  induction conns generalizing i with
  | nil => exact h
  | cons c cs ih =>
    obtain ⟨hc, hcs⟩ := List.forall_mem_cons.mp h
    rw [ackOther]
    split
    · exact List.forall_mem_cons.mpr ⟨hc, ih hcs _⟩
    · dsimp only
      split
      · exact List.forall_mem_cons.mpr ⟨hc.same (handleSrtlaAckSpecific_stamp c seq classic now), hcs⟩
      · exact List.forall_mem_cons.mpr ⟨hc, ih hcs _⟩

theorem handleSrtlaAck_seen {s : SequenceTracker × List (Connection F A)} (h : AllSeen looks s.2) (idx : ℕ)
    (classic : Bool) (now : ℕ) (seq : UInt32) : AllSeen looks (handleSrtlaAck idx classic now s seq).2 := by
  rw [handleSrtlaAck]
  split
  · exact h
  next c hc =>
    have hset := h.set hc (ackArrival_stamp c seq (s.1.acknowledgeDelivery seq c.connId now).2 classic now)
    refine AllSeen.map ?_ handleSrtlaAckGlobal_stamp
    split
    · exact hset
    · exact ackOther_seen hset _ _ _ _ _

theorem processConnectionEvents_seen {b : State F A} (h : AllSeen looks b.connections) (idx : ℕ)
    (incoming : SrtlaIncoming) (now : ℕ) :
    AllSeen looks (b.processConnectionEvents idx incoming now).connections := by
  have hacks : AllSeen looks (incoming.ackNumbers.foldl (handleAck b.sequence now) b.connections) :=
    List.foldlRecOn incoming.ackNumbers _ h fun conns hconns ack _ =>
      hconns.map fun c => handleSrtAck_stamp c _ _ _
  have hsrtla : AllSeen looks (incoming.srtlaAckNumbers.foldl
      (handleSrtlaAck idx (decide (b.config.mode = .classic)) now)
      (b.sequence, incoming.ackNumbers.foldl (handleAck b.sequence now) b.connections)).2 :=
    List.foldlRecOn (motive := fun s : SequenceTracker × List (Connection F A) => AllSeen looks s.2)
      incoming.srtlaAckNumbers _ hacks fun s hs seq _ => handleSrtlaAck_seen hs idx _ now seq
  rw [State.processConnectionEvents]
  refine List.foldlRecOn incoming.nakNumbers _ hsrtla fun conns hconns nak _ => ?_
  rw [attributeNak]
  split
  · exact hconns.modify _ fun c => handleNak_stamp c _ _
  · exact nakFirst_seen hconns _ _

theorem handleUplinkPacket_seen {b : State F A} (h : AllSeen looks b.connections) (connId : UInt64)
    (data : List UInt8) (now : ℕ) : AllSeen looks (b.handleUplinkPacket connId data now).1.connections := by
  rw [State.handleUplinkPacket]
  split
  · exact h
  · split
    · exact h
    · split
      · exact h
      next c hc =>
        exact processConnectionEvents_seen (h.set hc (processUplinkPacket_stamp c _ _ _ _)) _ _ _

end Receive

/-! Control messages and ticks. -/

section Control
variable [DecidableEq A] [F64 F]

theorem changeConnections_seen {b : State F A} (h : AllSeen looks b.connections) (ips : List A)
    (opened : A → Option UInt64) (now : ℕ) : AllSeen looks (b.changeConnections ips opened now).connections := by
  refine List.forall_mem_append.mpr ⟨fun c hc => h c (List.mem_of_mem_filter hc), fun c hc => ?_⟩
  obtain ⟨ip, -, hip⟩ := List.mem_filterMap.mp hc
  obtain ⟨id, -, rfl⟩ := Option.map_eq_some_iff.mp hip
  exact .anew rfl

omit [DecidableEq A] in
theorem startProbing_seen {b : State F A} (h : AllSeen looks b.connections) (now : ℕ) :
    AllSeen looks (b.startProbing now).1.connections := by
  have hprobed : AllSeen looks (b.reg.startProbing b.connections now).2.1 := by
    rw [SrtlaRegistrationManager.startProbing]
    split
    · exact h
    · exact h.map fun _ => rfl
  exact hprobed

omit [DecidableEq A] in
theorem joinLinks_seen {b : State F A} (h : AllSeen looks b.connections) (oldIps : List A)
    (isNew : Connection F A → Bool) (now : ℕ) : AllSeen looks (b.joinLinks oldIps isNew now).1.connections := by
  rw [State.joinLinks]
  split
  · exact startProbing_seen h now
  · exact h

omit [F64 F] in
theorem setAdminEnabled_stamp (links : List (EmbeddedLink A)) (now : ℕ) (c : Connection F A) :
    (setAdminEnabled links now c).stamp = c.stamp := by
  rw [setAdminEnabled]
  split
  · split
    · rw [Connection.setAdminEnabled]
      split <;> rfl
    · rfl
  · rfl

theorem handleControl_seen {b : State F A} (h : AllSeen looks b.connections) (opened : A → Option UInt64)
    (now : ℕ) (message : Control A) : AllSeen looks (b.handleControl opened now message).1.connections := by
  have hchange : ∀ (links new : List (EmbeddedLink A)) (ips : List A) (isNew : Connection F A → Bool)
      (oldIps : List A), AllSeen looks (({ ({ b with configuredLinks := new }.changeConnections ips opened now)
        with connections := ({ b with configuredLinks := new }.changeConnections ips opened
          now).connections.map (setAdminEnabled links now) } : State F A).joinLinks oldIps isNew
            now).1.connections := fun links new ips isNew oldIps =>
    joinLinks_seen ((changeConnections_seen (b := { b with configuredLinks := new }) h ips opened now).map
      (setAdminEnabled_stamp links now)) _ _ _
  cases message with
  | setLink id enabled =>
    rw [State.handleControl, State.setLink]
    split
    · exact h
    · split
      · exact h
      · exact hchange _ _ _ _ _
  | updateLinks links => exact hchange _ _ _ _ _

end Control

section Tick
variable [F64 F]

theorem rebuildUplinkSocket_seen (e : Effects) (c : Connection F A) (now : ℕ) (reopened : Bool) :
    Seen looks (rebuildUplinkSocket e c now reopened).2 := by
  rw [rebuildUplinkSocket]
  split <;> exact .anew rfl

theorem tickLink_seen (now : ℕ) (classic : Bool) (reopened : ℕ → Bool) (i : ℕ) (e : TickEffects)
    {c : Connection F A} (h : Seen looks c) : Seen looks (tickLink now classic reopened i e c).2 := by
  have hkeepalive : ∀ (e : TickEffects) (c : Connection F A) (due : Bool),
      (sendKeepalive e c now due).2.stamp = c.stamp := by
    intro e c due
    rw [sendKeepalive]
    split <;> rfl
  have hwindow : ∀ c : Connection F A, (if classic then c else c.performWindowRecovery now).stamp =
      c.stamp := by
    intro c
    split <;> rfl
  rw [tickLink]
  split
  · split
    · exact rebuildUplinkSocket_seen _ _ _ _
    · exact h
  · refine h.same ?_
    refine (updatePhase_stamp _ now).trans ?_
    exact (hwindow _).trans ((hkeepalive _ _ _).trans (hkeepalive _ _ _))

theorem rehomeBond_seen {b : State F A} (h : AllSeen looks b.connections) (now : ℕ)
    (ids : SrtlaId × SrtlaId) (rebuilt : ℕ → Bool) :
    AllSeen looks (rehomeBond b now ids rebuilt).1.connections := by
  have hrebuilt := h.sweep 0 ({ sequence := b.sequence } : Effects) fun i e c _ =>
    rebuildUplinkSocket_seen e c now (rebuilt i)
  exact startProbing_seen (b := { b with
    connections := _, sequence := _, reg := b.reg.resetForRehome ids.1 ids.2 }) hrebuilt now

theorem watchFailures_seen {b : State F A} (h : AllSeen looks b.connections) (now : ℕ) (input : TickInput) :
    AllSeen looks (watchFailures b now input).1.connections := by
  rw [watchFailures]
  split
  · exact h
  · dsimp only
    split
    · split
      · exact rehomeBond_seen (b := { b with allFailedAt := _ }) h now _ _
      · exact h
    · exact h

theorem handleHousekeeping_seen {b : State F A} (h : AllSeen looks b.connections) (now : ℕ)
    (input : TickInput) : AllSeen looks (handleHousekeeping b now input).1.connections := by
  have hprobed : AllSeen looks (finishProbing (b.reg.clearPendingIfTimedOut now) b.connections now).2 := by
    rw [finishProbing]
    split
    · dsimp only
      split
      · exact h
      · split
        · exact h.modify _ fun _ => rfl
        · exact h
    · exact h
  rw [handleHousekeeping]
  exact watchFailures_seen (hprobed.sweep 0 _ fun i e c hc => tickLink_seen now _ _ i e hc) now input

theorem tick_seen [DecidableEq A] {b : State F A} (h : AllSeen looks b.connections) (opened : A → Option UInt64)
    (now : ℕ) (input : TickInput) : AllSeen looks (b.tick opened now input).1.connections := by
  unfold State.tick State.work State.judge
  refine AllSeen.map (handleHousekeeping_seen ?_ now input) fun _ => rfl
  split
  · have hchange := changeConnections_seen h (EmbeddedRunner.enabledIps b.configuredLinks) opened now
    dsimp only
    split
    · exact startProbing_seen hchange now
    · exact hchange
  · exact h

end Tick

/-! The run. -/

section Run
variable [F64Exp F] [DecidableEq A]

theorem step_seen {b : State F A} (h : AllSeen looks b.connections)
    (hids : (b.connections.map (·.connId)).Nodup) {e : Event A} (hnow : 0 < e.now) :
    AllSeen (fun k => looks k ++ (b.lookAt e k).toList) (b.step e).1.connections := by
  cases e with
  | datagram pkt now refused => exact handleSrtDatagram_seen h hids pkt hnow refused
  | packet connId data now =>
    rw [looks_of_quiet rfl]
    exact handleUplinkPacket_seen h connId data now
  | control message opened now =>
    rw [looks_of_quiet rfl]
    exact handleControl_seen h opened now message
  | tick opened now input =>
    rw [looks_of_quiet rfl]
    exact tick_seen h opened now input
  | flush now refused =>
    rw [looks_of_quiet rfl]
    exact flushAllBatches_seen _ h now refused

omit [DecidableEq A] in
theorem start_seen (s : Setup A) : AllSeen looks (s.start : State F A).connections := by
  have hconnect : AllSeen looks (F := F) (((EmbeddedRunner.enabledIps s.configured).zipIdx.filterMap fun ip =>
      (s.opened ip.2).map fun id => Connection.newRegistering id ip.1 s.now)) := by
    intro c hc
    obtain ⟨ip, -, hip⟩ := List.mem_filterMap.mp hc
    obtain ⟨id, -, rfl⟩ := Option.map_eq_some_iff.mp hip
    exact .anew rfl
  rw [Setup.start, State.start]
  split
  · exact hconnect
  · exact startProbing_seen hconnect s.now

def looksAt (k : UInt64) : State F A → List (Event A) → List Look
  | _, [] => []
  | b, e :: es => (b.lookAt e k).toList ++ looksAt k (b.step e).1 es

theorem exec_seen {b : State F A} {es : List (Event A)} {n : ℕ × ℕ} (hsolvent : Solvent (b.ledger n))
    (hdraws : Reactive.Along State.step (fun (b : State F A) e => e.Draws b) b es)
    (hclock : ∀ e ∈ es, 0 < e.now) (h : AllSeen looks b.connections) :
    AllSeen (fun k => looks k ++ looksAt k b es) (Reactive.exec State.step b es).connections := by
  induction es generalizing b looks n with
  | nil =>
    simp only [looksAt, List.append_nil]
    exact h
  | cons e es ih =>
    obtain ⟨hnow, hclock⟩ := List.forall_mem_cons.mp hclock
    obtain ⟨m, -, hsteps⟩ := step_steps (w := ⟨True, True, True⟩) (n := n) trivial trivial b e
      fun _ => hdraws.1
    have hsolvent' := hsteps.invariant (fun _ _ h hb => hb.step h) hsolvent
    have hids : (b.connections.map (·.connId)).Nodup := by
      have hids := hsolvent.ids
      rwa [State.ledger, links, List.map_map] at hids
    have hrest := ih hsolvent' hdraws.2 hclock (step_seen h hids hnow)
    simp only [List.append_assoc] at hrest
    exact hrest

/-- In every run, when the next datagram looks at a link that is held out, the link is let in again
exactly if its proofs have been fresh for the dwell, at every look since; and the dwell is at most
sixteen times the shortest. -/
theorem stall_released_iff_fresh (s : Setup A) (es : List (Event A)) (hdraws : DrawsAnew F s es)
    (hclock : ∀ e ∈ es, 0 < e.now) {now : ℕ} (hnow : 0 < now) {i : ℕ} {c c' : Connection F A}
    (hc : (run s es : State F A).connections[i]? = some c) (hlatched : c.stallLatched = true)
    (hc' : (applyStallGate (run s es : State F A).connections now
      (run s es : State F A).config)[i]? = some c') :
    let config := (run s es : State F A).config
    let base := (poised c config now).baseDwellMs config.stallAckStaleMs
    let dwell := (poised c config now).dwellMs config.stallAckStaleMs
    (c'.stallLatched = false ↔
      ∃ t, HeldSince (looksAt c.connId (s.start : State F A) es ++ [look c config now]) t ∧
        dwell ≤ now - t) ∧
    base ≤ dwell ∧ dwell ≤ 16 * base := by
  intro config base dwell
  have hstart : Solvent ((s.start : State F A).ledger 0) :=
    (start_steps (w := ⟨True, True, True⟩) trivial s fun _ => hdraws.1).invariant
      (fun _ _ h hb => hb.step h) Solvent.empty
  have hrun : AllSeen (fun k => [] ++ looksAt k (s.start : State F A) es) (run s es).connections :=
    exec_seen hstart hdraws.2 hclock (start_seen s)
  have hknown := (hrun c (List.mem_of_getElem? hc)).same (poised_stamp c config now)
  have hid : (poised c config now).connId = c.connId :=
    congrArg Prod.fst (poised_stamp c config now)
  rw [Seen, hid, List.nil_append] at hknown
  have hheld : (poised c config now).stallLatched = true := by
    have hsame := congrArg (fun m => m.2.latchedSinceMs) (poised_stamp c config now)
    exact (congrArg (fun t => decide (t ≠ 0)) hsame).trans hlatched
  have hgate : config.stallDeselect = true := by
    obtain ⟨latency, hconfig⟩ := run_config (F := F) s es
    exact congrArg ConfigSnapshot.stallDeselect hconfig
  refine ⟨?_, dwellMs_bounds hknown.backoff _⟩
  rw [getElem?_applyStallGate hgate hc hc']
  exact hknown.released_iff hheld hnow _ _

end Run

def waitingEvents : List (Event Ipv4) :=
  let tick := fun now => .tick (fun _ => none) now ⟨fun _ => true, none, fun _ => true, fun _ => none⟩
  let send := fun n now => .datagram [0, 0, 0, n, 1, 2, 3, 4] now fun _ => none
  [.packet 7 (be16Bytes srtlaTypeRegNgp) 2, tick 1003,
      .packet 7 (createReg2Packet oneLink.id) 2004, tick 3004, .packet 7 (be16Bytes srtlaTypeReg3) 3005,
      send 1 3010, .flush 3011 fun _ => none, .packet 7 (createAckPacket [1]) 3020] ++
    (List.range 32).map (fun n => send (.ofNat (n + 2)) 3030) ++
    [.flush 3031 fun _ => none, send 50 6030]

theorem waitingEvents_draw : DrawsAnew ℚ oneLink waitingEvents := by
  have hdrawn : ∀ conns : List (Connection ℚ Ipv4), Drawn conns fun _ => none := fun conns =>
    ⟨fun _ h => Option.some_ne_none _ h.symm, fun _ _ _ h => Option.some_ne_none _ h.symm,
      fun _ _ _ h => absurd h.symm (Option.some_ne_none _)⟩
  have hquiet : ∀ e ∈ waitingEvents, ∀ b : State ℚ Ipv4, e.Draws b := by
    refine List.forall_mem_append.mpr ⟨List.forall_mem_append.mpr ⟨?_, ?_⟩, ?_⟩
    · simp [Event.Draws, hdrawn]
    · exact List.forall_mem_map.mpr fun _ _ _ => trivial
    · simp [Event.Draws]
  refine ⟨oneLink_draws, ?_⟩
  generalize waitingEvents = es at hquiet ⊢
  generalize (oneLink.start : State ℚ Ipv4) = b
  induction es generalizing b with
  | nil => trivial
  | cons e es ih =>
    obtain ⟨he, hes⟩ := List.forall_mem_cons.mp hquiet
    exact ⟨he b, ih hes _⟩

theorem stall_released_iff_fresh_one_link :
    ∃ c c', (run oneLink waitingEvents : State ℚ Ipv4).connections[0]? = some c ∧
      (applyStallGate (run oneLink waitingEvents : State ℚ Ipv4).connections 6100
        (run oneLink waitingEvents : State ℚ Ipv4).config)[0]? = some c' ∧
      let config := (run oneLink waitingEvents : State ℚ Ipv4).config
      let base := (poised c config 6100).baseDwellMs config.stallAckStaleMs
      let dwell := (poised c config 6100).dwellMs config.stallAckStaleMs
      (c'.stallLatched = false ↔
        ∃ t, HeldSince (looksAt c.connId (oneLink.start : State ℚ Ipv4) waitingEvents ++
          [look c config 6100]) t ∧ dwell ≤ 6100 - t) ∧
      base ≤ dwell ∧ dwell ≤ 16 * base := by
  have hlatched : (run oneLink waitingEvents : State ℚ Ipv4).connections[0]?.any (·.stallLatched) =
      true := by decide +kernel
  have hgated : (applyStallGate (run oneLink waitingEvents : State ℚ Ipv4).connections 6100
      (run oneLink waitingEvents : State ℚ Ipv4).config)[0]?.isSome = true := by decide +kernel
  obtain ⟨c, hc, hheld⟩ := (Option.any_eq_true _ _).mp hlatched
  obtain ⟨c', hc'⟩ := Option.isSome_iff_exists.mp hgated
  exact ⟨c, c', hc, hc', stall_released_iff_fresh oneLink waitingEvents waitingEvents_draw
    (by decide) (by decide) hc hheld hc'⟩

end Srtla.Bond
