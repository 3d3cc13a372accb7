import SrtlaOutput.Bond.Bounds

/-! A registered bond between two ticks. What comes in on its uplinks, from the receiver or from
anybody else, cannot disconnect a link that waits for no answer, nor change the group's id. -/

namespace Srtla.Bond
open Uplink Wire
variable {F A : Type}

def face (c : Connection F A) : UInt64 × Bool := (c.connId, c.connected)

section Connection
variable [F64 F] (c : Connection F A) (nowMs : ℕ)

theorem handleSrtAck_face (ack : Int32) (ownsAckedSeq : Bool) :
    face (c.handleSrtAck ack nowMs ownsAckedSeq) = face c := by
  rw [Connection.handleSrtAck]
  dsimp only
  split <;> rfl

omit [F64 F] in
theorem handleNak_face (seq : Int32) : face (c.handleNak seq nowMs).1 = face c := by
  rw [Connection.handleNak]
  split <;> rfl

theorem handleSrtlaAckSpecific_face (seq : Int32) (classicMode : Bool) :
    face (c.handleSrtlaAckSpecific seq classicMode nowMs).1 = face c := by
  rw [Connection.handleSrtlaAckSpecific]
  split
  · rfl
  · split <;> rfl

omit [F64 F] in
theorem handleSrtlaAckGlobal_face : face c.handleSrtlaAckGlobal = face c := by
  rw [Connection.handleSrtlaAckGlobal]
  split <;> rfl

theorem ackArrival_face (seq : UInt32) (delivery : Option DeliveryCredit) (classic : Bool) :
    face (ackArrival c seq delivery classic nowMs).1 = face c := by
  rw [ackArrival]
  cases delivery.filter (·.newlyCredited) with
  | none => exact handleSrtlaAckSpecific_face c nowMs seq.toInt32 classic
  | some credit =>
    have hspecific := handleSrtlaAckSpecific_face (c.recordDeliveredBytes credit.wireBytes) nowMs
      seq.toInt32 classic
    dsimp only
    split <;> exact hspecific

end Connection

section Events
variable [F64 F]

omit [F64 F] in
theorem map_face {f : Connection F A → Connection F A} (h : ∀ c, face (f c) = face c)
    (conns : List (Connection F A)) : (conns.map f).map face = conns.map face := by
  rw [List.map_map]
  exact List.map_congr_left fun c _ => h c

omit [F64 F] in
theorem nakFirst_face (nak : Int32) (now : ℕ) (conns : List (Connection F A)) :
    (nakFirst nak now conns).map face = conns.map face := by
  induction conns with
  | nil => rfl
  | cons c conns ih =>
    rw [nakFirst]
    dsimp only
    split
    · rw [List.map_cons, handleNak_face, List.map_cons]
    · rw [List.map_cons, ih, List.map_cons]

omit [F64 F] in
theorem attributeNak_face (sequence : SequenceTracker) (now : ℕ) (conns : List (Connection F A))
    (nak : UInt32) : (attributeNak conns sequence nak now).map face = conns.map face := by
  rw [attributeNak]
  split
  next pos _ =>
    apply List.ext_getElem?
    intro j
    rw [List.getElem?_map, List.getElem?_map, List.getElem?_modify, Option.map_eq_map,
      Option.map_map]
    refine Option.map_congr fun c _ => ?_
    rw [Function.comp_apply]
    split
    · exact handleNak_face c now nak.toInt32
    · rfl
  next => exact nakFirst_face _ now conns

theorem ackOther_face (skip : ℕ) (seq : Int32) (classic : Bool) (now i : ℕ)
    (conns : List (Connection F A)) :
    (ackOther skip seq classic now i conns).map face = conns.map face := by
  induction conns generalizing i with
  | nil => rfl
  | cons c conns ih =>
    rw [ackOther]
    split
    · rw [List.map_cons, ih, List.map_cons]
    · dsimp only
      split
      · rw [List.map_cons, handleSrtlaAckSpecific_face, List.map_cons]
      · rw [List.map_cons, ih, List.map_cons]

theorem handleSrtlaAck_face (idx : ℕ) (classic : Bool) (now : ℕ)
    (s : SequenceTracker × List (Connection F A)) (seq : UInt32) :
    (handleSrtlaAck idx classic now s seq).2.map face = s.2.map face := by
  rw [handleSrtlaAck]
  cases hidx : s.2[idx]? with
  | none => rfl
  | some c =>
    have hset : (s.2.set idx
        (ackArrival c seq (s.1.acknowledgeDelivery seq c.connId now).2 classic now).1).map face =
        s.2.map face := by
      rw [List.map_set, ackArrival_face]
      refine List.ext_getElem? fun j => ?_
      rw [List.getElem?_set]
      split
      next h =>
        obtain ⟨hlt, -⟩ := List.getElem?_eq_some_iff.mp hidx
        rw [if_pos (by rwa [List.length_map]), ← h, List.getElem?_map, hidx]
        rfl
      next => rfl
    dsimp only
    rw [map_face handleSrtlaAckGlobal_face]
    split
    · exact hset
    · rw [ackOther_face]
      exact hset

theorem processConnectionEvents_face (b : State F A) (idx : ℕ) (incoming : SrtlaIncoming)
    (now : ℕ) :
    (b.processConnectionEvents idx incoming now).connections.map face = b.connections.map face := by
  have hfold : ∀ {α σ : Type} {f : σ → α → σ} (facesOf : σ → List (UInt64 × Bool))
      (_ : ∀ s a, facesOf (f s a) = facesOf s) (s : σ) (as : List α),
      facesOf (as.foldl f s) = facesOf s := by
    intro α σ f facesOf h s as
    induction as generalizing s with
    | nil => rfl
    | cons a as ih => exact (ih (f s a)).trans (h s a)
  rw [State.processConnectionEvents]
  dsimp only
  refine (hfold (List.map face) ?_ _ incoming.nakNumbers).trans ?_
  · exact fun conns nak => attributeNak_face _ now conns nak
  refine (hfold (fun s : SequenceTracker × List (Connection F A) => s.2.map face)
    (handleSrtlaAck_face idx _ now) _ incoming.srtlaAckNumbers).trans ?_
  refine hfold (List.map face) ?_ _ incoming.ackNumbers
  exact fun conns ack => map_face (fun c => handleSrtAck_face c now _ _) conns

end Events

/-! The uplinks while the sockets take what they are given. -/

section Send
variable [F64 F]

theorem link_face (c : Connection F A) : face c = (c.link.connId, c.link.connected) := rfl

theorem links_face {conns conns' : List (Connection F A)} (h : links conns' = links conns) :
    conns'.map face = conns.map face := by
  have hfaces : ∀ conns : List (Connection F A),
      conns.map face = (links conns).map fun l => (l.connId, l.connected) := by
    intro conns
    rw [links, List.map_map]
    rfl
  rw [hfaces, h, hfaces]

theorem flushConnection_face (e : Effects) (c : Connection F A) (now : ℕ) :
    face (flushConnection e c now none).2 = face c := by
  have hflush : face (c.takeBatch now).1 = face c := by
    have hconnected : c.link.flush.connected = c.link.connected :=
      Link.foldl_register Link.connected (fun l p => by rw [Link.register]; split <;> rfl) _ _
    rw [link_face, Connection.takeBatch_link, Link.flush_connId, hconnected]
    rfl
  rw [flushConnection]
  dsimp only
  split <;> first | exact hflush | contradiction

theorem forwardViaConnection_face (e : Effects) (conns : List (Connection F A)) (sel : ℕ)
    (pkt : List UInt8) (seq : Option UInt32) (now : ℕ) :
    (forwardViaConnection e conns sel pkt seq now fun _ => none).2.map face = conns.map face := by
  refine Sweep.map_run fun i e c _ => ?_
  rw [forwardLink]
  split
  · rfl
  · dsimp only
    split
    · exact flushConnection_face _ _ now
    · rfl

theorem sendStallProbes_face (e : Effects) (conns : List (Connection F A)) (sel : ℕ)
    (pkt : List UInt8) (seq : UInt32) (now : ℕ) :
    (sendStallProbes e conns sel pkt seq now fun _ => none).2.map face = conns.map face := by
  refine Sweep.map_run fun i e c _ => ?_
  have hdue : face c.stallProbeDue.1 = face c := by
    rw [link_face, Connection.stallProbeDue_link]
    rfl
  rw [probeLink]
  split
  · rfl
  · split
    · rfl
    · dsimp only
      split
      · exact hdue
      · split
        · exact (flushConnection_face _ _ now).trans hdue
        · exact hdue

theorem flushAllBatches_face (e : Effects) (conns : List (Connection F A)) (now : ℕ) :
    (flushAllBatches e conns now fun _ => none).2.map face = conns.map face := by
  refine Sweep.map_run fun i e c _ => ?_
  rw [flushLink]
  split
  · exact flushConnection_face e c now
  · rfl

theorem handleSrtDatagram_face {F : Type} [F64Exp F] (b : State F A) (pkt : List UInt8) (now : ℕ) :
    (b.handleSrtDatagram pkt now fun _ => none).1.connections.map face = b.connections.map face := by
  have hchoose := links_face (links_chooseIdx b.connections b.lastSelected pkt now b.config)
  rw [State.handleSrtDatagram]
  split
  · rfl
  · dsimp only
    split
    · split
      · exact forwardViaConnection_face _ _ _ _ _ now
      · rfl
    · split
      · dsimp only
        split
        · rw [sendStallProbes_face, forwardViaConnection_face, hchoose]
        · rw [forwardViaConnection_face, hchoose]
      · exact hchoose

end Send

/-! The registration. -/

/-- No answer to a REG1 is waited for, nor one on this link. -/
structure SrtlaRegistrationManager.Quiet (r : SrtlaRegistrationManager) (i : ℕ) : Prop where
  active : r.activeConnections ≠ 0
  pending : r.pendingReg2Idx = none
  notAwaited : i ∉ r.awaitingReg3

namespace SrtlaRegistrationManager
variable {r : SrtlaRegistrationManager} {i : ℕ}

theorem Quiet.regNgp (h : r.Quiet i) (connIdx now : ℕ) :
    (r.handleRegNgp connIdx now).srtlaId = r.srtlaId ∧ (r.handleRegNgp connIdx now).Quiet i := by
  rw [handleRegNgp]
  split
  · rw [handleProbeResponse]
    split
    · exact ⟨rfl, h⟩
    · exact ⟨rfl, h.active, h.pending, h.notAwaited⟩
  · rw [if_neg fun hidle => h.active hidle.1]
    exact ⟨rfl, h⟩

theorem Quiet.not_pending (h : r.Quiet i) (connIdx : ℕ) : r.pendingReg2Idx ≠ some connIdx :=
  fun hsome => absurd (h.pending.symm.trans hsome) (Option.some_ne_none connIdx).symm

theorem Quiet.reg2 (h : r.Quiet i) (connIdx : ℕ) (data : List UInt8) (now : ℕ) :
    r.handleReg2 connIdx data now = r := by
  rw [handleReg2]
  split
  · exact if_neg (h.not_pending connIdx)
  · rfl

theorem Quiet.revoke (h : r.Quiet i) (connIdx : ℕ) : (r.revokeReg3Grant connIdx).Quiet i :=
  ⟨h.active, h.pending, fun hmem => h.notAwaited (List.mem_of_mem_filter hmem)⟩

theorem Quiet.reg3 (h : r.Quiet i) (connIdx : ℕ) :
    (r.handleReg3 connIdx).1.srtlaId = r.srtlaId ∧ (r.handleReg3 connIdx).1.Quiet i := by
  rw [handleReg3]
  split
  · exact ⟨rfl, h.active, h.pending, (h.revoke connIdx).notAwaited⟩
  · exact ⟨rfl, h⟩

theorem Quiet.regErr (h : r.Quiet i) (connIdx now : ℕ) :
    (r.handleRegErr connIdx now).1.srtlaId = r.srtlaId ∧ (r.handleRegErr connIdx now).1.Quiet i ∧
      ((r.handleRegErr connIdx now).2 = true → connIdx ≠ i) := by
  rw [handleRegErr, if_neg (h.not_pending connIdx)]
  split
  next hawaited => exact ⟨rfl, h.revoke connIdx, fun _ hi => h.notAwaited (hi ▸ hawaited)⟩
  next => exact ⟨rfl, h, fun haccepted => absurd haccepted Bool.false_ne_true⟩

theorem Quiet.process (h : r.Quiet i) (connIdx : ℕ) (data : List UInt8) (now : ℕ) :
    (r.processRegistrationPacket connIdx data now).1.srtlaId = r.srtlaId ∧
      (r.processRegistrationPacket connIdx data now).1.Quiet i ∧
      ((r.processRegistrationPacket connIdx data now).2 = some .regErr → connIdx ≠ i) := by
  have hother : ∀ {event : RegistrationEvent}, event ≠ .regErr →
      some event = some RegistrationEvent.regErr → connIdx ≠ i := fun hne heq =>
    absurd (Option.some_inj.mp heq) hne
  rw [processRegistrationPacket]
  split
  · exact ⟨(h.regNgp connIdx now).1, (h.regNgp connIdx now).2, hother (by decide)⟩
  · split
    · rw [h.reg2]
      exact ⟨rfl, h, hother (by decide)⟩
    · split
      · refine ⟨(h.reg3 connIdx).1, (h.reg3 connIdx).2, ?_⟩
        dsimp only
        split
        · exact hother (by decide)
        · exact fun hnone => absurd hnone (Option.some_ne_none _).symm
      · split
        · obtain ⟨hid, hquiet, haccepted⟩ := h.regErr connIdx now
          refine ⟨hid, hquiet, ?_⟩
          dsimp only
          split
          next haccept => exact fun _ => haccepted haccept
          next => exact fun hnone => absurd hnone (Option.some_ne_none _).symm
        · exact ⟨rfl, h, fun hnone => absurd hnone (Option.some_ne_none _).symm⟩

end SrtlaRegistrationManager

structure Settled (i : ℕ) (connId : UInt64) (id : SrtlaId) (b : State F A) : Prop where
  quiet : b.reg.Quiet i
  group : b.reg.srtlaId = id
  link : (b.connections.map face)[i]? = some (connId, true)

section Step
variable [F64Exp F] [DecidableEq A]

omit [DecidableEq A] in
theorem processUplinkPacket_face (c : Connection F A) (connIdx : ℕ)
    (reg : SrtlaRegistrationManager) (data : List UInt8) (now : ℕ)
    (herr : (reg.processRegistrationPacket connIdx data now).2 ≠ some .regErr)
    (hconnected : c.connected = true) :
    face (processUplinkPacket c connIdx reg data now).1 = face c := by
  have hkeepalive : ∀ c : Connection F A, face (processKeepalive c data now) = face c := by
    intro c
    rw [link_face, processKeepalive_link]
    rfl
  rw [processUplinkPacket]
  split
  · rfl
  · dsimp only
    split
    next event hevent =>
      cases event with
      | regNgp => rfl
      | reg2 => rfl
      | reg3 => exact congrArg (Prod.mk c.connId) hconnected.symm
      | regErr => exact absurd hevent herr
    next =>
      split
      · exact hkeepalive _
      · rfl

omit [DecidableEq A] in
theorem Settled.packet {i : ℕ} {k : UInt64} {id : SrtlaId} {b : State F A} (h : Settled i k id b)
    (connId : UInt64) (data : List UInt8) (now : ℕ) :
    Settled i k id (b.handleUplinkPacket connId data now).1 := by
  rw [State.handleUplinkPacket]
  split
  · exact h
  · split
    · exact h
    next idx _ =>
      split
      · exact h
      next c hc =>
        obtain ⟨hgroup, hquiet, herr⟩ := h.quiet.process idx data now
        have hreg : (processUplinkPacket c idx b.reg data now).2.1 = b.reg ∨
            (processUplinkPacket c idx b.reg data now).2.1 =
              (b.reg.processRegistrationPacket idx data now).1 := by
          rw [processUplinkPacket]
          split
          · exact .inl rfl
          · right
            dsimp only
            split
            · split
              · rw [SrtlaRegistrationManager.reg1IfNgpImmediate,
                  if_neg fun hidle => hquiet.active hidle.1]
              · rfl
            · rfl
        have hreg : (processUplinkPacket c idx b.reg data now).2.1.srtlaId = id ∧
            (processUplinkPacket c idx b.reg data now).2.1.Quiet i := by
          rcases hreg with hsame | hprocessed
          · rw [hsame]
            exact ⟨h.group, h.quiet⟩
          · rw [hprocessed]
            exact ⟨hgroup.trans h.group, hquiet⟩
        refine ⟨hreg.2, hreg.1, ?_⟩
        dsimp only
        rw [processConnectionEvents_face, List.map_set]
        by_cases hi : idx = i
        · subst hi
          have hlink := h.link
          rw [List.getElem?_map, hc, Option.map_some, Option.some_inj] at hlink
          have hface := processUplinkPacket_face c idx b.reg data now (fun hregErr => herr hregErr rfl)
            (congrArg Prod.snd hlink)
          obtain ⟨hlt, -⟩ := List.getElem?_eq_some_iff.mp hc
          rw [hface, List.getElem?_set_self (by rwa [List.length_map]), hlink]
        · rw [List.getElem?_set_ne hi]
          exact h.link

/-- An event between two ticks, with sockets that take what they are given. -/
def Event.Undisturbed : Event A → Prop
  | .datagram _ _ refused => refused = fun _ => none
  | .packet _ _ _ => True
  | .flush _ refused => refused = fun _ => none
  | .control _ _ _ => False
  | .tick _ _ _ => False

theorem Settled.step {i : ℕ} {k : UInt64} {id : SrtlaId} {b : State F A} (h : Settled i k id b)
    (e : Event A) (he : e.Undisturbed) : Settled i k id (b.step e).1 := by
  cases e with
  | datagram pkt now refused =>
    obtain rfl := he
    have hreg : (b.handleSrtDatagram pkt now fun _ => none).1.reg = b.reg := by
      rw [State.handleSrtDatagram]
      split
      · rfl
      · dsimp only
        split <;> split <;> rfl
    have hface := handleSrtDatagram_face b pkt now
    exact ⟨hreg ▸ h.quiet, hreg ▸ h.group, hface ▸ h.link⟩
  | packet connId data now => exact h.packet connId data now
  | control message opened now => exact he.elim
  | tick opened now input => exact he.elim
  | flush now refused =>
    obtain rfl := he
    exact ⟨h.quiet, h.group, (flushAllBatches_face _ b.connections now) ▸ h.link⟩

/-- Between two ticks, no sequence of packets on the uplinks, whatever is in them and on whichever
link, and no packets of the caller, disconnect a link that waits for no answer. -/
theorem settled_stays {i : ℕ} {k : UInt64} {id : SrtlaId} {b : State F A} (h : Settled i k id b)
    (es : List (Event A)) (hes : ∀ e ∈ es, e.Undisturbed) :
    Settled i k id (Reactive.exec State.step b es) :=
  Reactive.exec_invariant_of (P := Event.Undisturbed) (fun _ e he hs => hs.step e he) h hes

end Step

def registeredBond : State ℚ Ipv4 where
  configuredLinks := oneLink.configured
  connections := [registered (.newRegistering 7 wan 1) 5 .reg3]
  reg := { SrtlaRegistrationManager.new oneLink.id oneLink.probeId with
    hasConnected := true, activeConnections := 1, connectedSnapshot := [true] }
  sequence := .new
  lastSelected := none
  config := {}
  allFailedAt := none

/-- Two errors that nobody waits for. -/
theorem settled_stays_error :
    Settled 0 7 oneLink.id (Reactive.exec State.step registeredBond
      [.packet 7 (be16Bytes srtlaTypeRegErr) 9, .packet 7 (be16Bytes srtlaTypeRegErr) 10]) :=
  settled_stays (b := registeredBond) ⟨⟨Nat.one_ne_zero, rfl, List.not_mem_nil⟩, rfl, rfl⟩
    [.packet 7 (be16Bytes srtlaTypeRegErr) 9, .packet 7 (be16Bytes srtlaTypeRegErr) 10]
    (by simp [Event.Undisturbed])

end Srtla.Bond
