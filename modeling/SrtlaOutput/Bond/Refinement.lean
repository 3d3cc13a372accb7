import SrtlaOutput.Bond.Ledger
import SrtlaOutput.Lib.Reactive

/-! Every event of the loop is a chain of entries in the ledger. The choice of a link and the
registration leave the ledger alone. -/

namespace Srtla.Bond
open Uplink Relation Wire
variable {F A : Type}

def links [F64 F] (conns : List (Connection F A)) : List (Link A) := conns.map Connection.link

def State.ledger [F64 F] (b : State F A) (counts : ℕ × ℕ) : Ledger A :=
  ⟨links b.connections, b.sequence, counts⟩

def numbered (pkt : List UInt8) : ℕ := if (getSrtSequenceNumber pkt).isSome then 1 else 0

/-! The choice of a link. -/

section Choice

theorem links_map [F64 F] {f : Connection F A → Connection F A} (h : ∀ c, (f c).link = c.link)
    (conns : List (Connection F A)) : links (conns.map f) = links conns := by
  rw [links, links, List.map_map]
  exact List.map_congr_left fun c _ => h c

theorem links_mapIdx [F64 F] {f : ℕ → Connection F A → Connection F A}
    (h : ∀ i c, (f i c).link = c.link) (conns : List (Connection F A)) :
    links (conns.mapIdx f) = links conns := by
  apply List.ext_getElem?
  intro i
  rw [links, links, List.getElem?_map, List.getElem?_map, List.getElem?_mapIdx, Option.map_map]
  exact Option.map_congr fun c _ => h i c

theorem links_applyStallGate [F64 F] (conns : List (Connection F A)) (nowMs : ℕ)
    (config : ConfigSnapshot) : links (applyStallGate conns nowMs config) = links conns := by
  have htuned : ∀ t d, links (conns.map fun c => { c with connTimeoutMs := t, delayBudgetMs := d }) =
      links conns := fun t d =>
    links_map (f := fun c => { c with connTimeoutMs := t, delayBudgetMs := d }) (fun _ => rfl) conns
  rw [applyStallGate]
  split
  · rw [links_map, htuned]
    exact fun c => by rw [Connection.clearStallLatch_link]; rfl
  · dsimp only
    rw [links_map, links_map, htuned]
    · exact fun c => by rw [Connection.updateStallLatch_link, Connection.updateSilencePull_link]
    · exact fun c => rfl

theorem links_electSoleCarrier [F64 F] (conns : List (Connection F A)) (nowMs : ℕ)
    (anyQualityOk : Bool) :
    links (electSoleCarrier conns nowMs anyQualityOk).1 = links conns := by
  have hrelease : ∀ c : Connection F A, (releaseSoleCarrier c nowMs).link = c.link := by
    intro c
    rw [releaseSoleCarrier]
    split
    · exact Connection.armRejoinRamp_link ..
    · rfl
  have htake : ∀ handover (c : Connection F A), (takeRole c nowMs handover).link = c.link := by
    intro handover c
    rw [takeRole]
    split <;> split
    · exact Connection.armRejoinRamp_link ..
    · exact Connection.armRejoinRamp_link ..
    · rfl
    · rfl
  rw [electSoleCarrier]
  split
  · exact links_map hrelease conns
  · refine links_mapIdx (fun i c => ?_) conns
    split
    · exact htake _ c
    · rfl

variable [F64Exp F]

theorem links_gateQuality (conns : List (Connection F A)) (nowMs : ℕ) :
    links (gateQuality conns nowMs) = links conns := by
  have hhold : ∀ any lost (c : Connection F A), (holdOut c nowMs any lost).link = c.link := by
    intro any lost c
    rw [holdOut]
    split
    · exact Connection.armRejoinRamp_link ..
    · rfl
  rw [gateQuality]
  exact (links_mapIdx (fun _ c => hhold _ _ c) _).trans (links_electSoleCarrier _ _ _)

theorem links_selectConnectionIdx (conns : List (Connection F A)) (lastIdx : Option ℕ)
    (nowMs : ℕ) (config : ConfigSnapshot) :
    links (selectConnectionIdx conns lastIdx nowMs config).1 = links conns := by
  have hscore : ∀ any quality (c : Connection F A),
      (enhancedScore c nowMs any quality).1.link = c.link := by
    intro any quality c
    rw [enhancedScore]
    dsimp only
    split
    · rfl
    · exact Connection.getCachedQualityMultiplier_link c nowMs
  rw [selectConnectionIdx]
  split
  · rw [links_map Connection.clearQualityGateState_link, links_applyStallGate]
  · rw [selectEnhanced]
    dsimp only
    rw [links_map, links_gateQuality, links_applyStallGate]
    intro c
    split
    · exact hscore _ _ c
    · rfl

theorem links_chooseIdx (conns : List (Connection F A)) (lastSelected : Option ℕ)
    (pkt : List UInt8) (now : ℕ) (config : ConfigSnapshot) :
    links (State.chooseIdx conns lastSelected pkt now config).1 = links conns := by
  rw [State.chooseIdx]
  dsimp only
  split <;> exact links_selectConnectionIdx ..

end Choice

/-! Packets that go out. -/

section Send
open Ledger (Moves Steps)
variable [F64 F] {w : Scope} {n : ℕ × ℕ}

theorem recoverConnection_moves (e : Effects) (c : Connection F A) :
    Moves w e.sequence n c.link (recoverConnection e c).1.sequence n (recoverConnection e c).2.link :=
  fun _ _ => .single .recover

theorem flushConnection_moves (hbusy : w.busy) (e : Effects) (c : Connection F A) (now : ℕ) (refused : Option ℕ) :
    Moves w e.sequence n c.link (flushConnection e c now refused).1.sequence n
      (flushConnection e c now refused).2.link := by
  have hflush : Moves w e.sequence n c.link e.sequence n (c.takeBatch now).1.link := by
    rw [Connection.takeBatch_link]
    exact fun _ _ => .single (.flush hbusy)
  rw [flushConnection]
  dsimp only
  split
  · exact hflush
  · exact hflush
  · exact hflush.trans fun _ _ => .single .recover

theorem flushLink_moves (hbusy : w.busy) (now : ℕ) (refused : ℕ → Option ℕ) (i : ℕ) (e : Effects)
    (c : Connection F A) :
    Moves w e.sequence n c.link (flushLink now refused i e c).1.sequence n
      (flushLink now refused i e c).2.link := by
  rw [flushLink]
  split
  · exact flushConnection_moves hbusy e c now (refused i)
  · exact .refl

theorem probeLink_moves (hbusy : w.busy) (sel : ℕ) (pkt : List UInt8) (seq : UInt32) (now : ℕ)
    (refused : ℕ → Option ℕ) (i : ℕ) (e : Effects) (c : Connection F A) :
    Moves w e.sequence n c.link (probeLink sel pkt seq now refused i e c).1.sequence n
      (probeLink sel pkt seq now refused i e c).2.link := by
  have hdue : Moves w e.sequence n c.link e.sequence n c.stallProbeDue.1.link :=
    .of_eq (Connection.stallProbeDue_link c)
  have hprobe : Moves w e.sequence n c.stallProbeDue.1.link e.sequence n
      (c.stallProbeDue.1.queueProbePacket (setSrtDataRetransmit pkt) seq now).1.link :=
    fun _ _ => .single (.probe hbusy seq _ now)
  rw [probeLink]
  split
  · exact .refl
  · split
    · exact .refl
    · dsimp only
      split
      · exact hdue
      · split
        · exact hdue.trans (hprobe.trans (flushConnection_moves hbusy e _ now (refused i)))
        · exact hdue.trans hprobe

theorem forwardLink_moves (hbusy : w.busy) (sel : ℕ) (pkt : List UInt8) (seq : Option UInt32) (now : ℕ)
    (refused : ℕ → Option ℕ) (e : Effects) (c : Connection F A) :
    Moves w e.sequence n c.link (forwardLink sel pkt seq now refused sel e c).1.sequence
      (n + (if seq.isSome then 1 else 0, 0)) (forwardLink sel pkt seq now refused sel e c).2.link := by
  rw [forwardLink, if_neg (not_not.mpr rfl)]
  cases seq with
  | none =>
    have hqueue : Moves w e.sequence n c.link e.sequence n (c.queueDataPacket pkt none now).1.link :=
      fun _ _ => .single (.pass hbusy pkt now)
    dsimp only
    split
    · exact hqueue.trans (flushConnection_moves hbusy e _ now (refused sel))
    · exact hqueue
  | some s =>
    have hqueue : Moves w e.sequence n c.link (e.sequence.insertWithSize s c.connId now pkt.length)
        (n + (1, 0)) (c.queueDataPacket pkt (some s) now).1.link :=
      fun _ _ => .single (.forward hbusy pkt s now)
    dsimp only
    split
    · exact hqueue.trans (flushConnection_moves hbusy
        { e with sequence := e.sequence.insertWithSize s c.connId now pkt.length } _ now (refused sel))
    · exact hqueue

omit [F64 F] in
theorem forwardViaConnection_eq (e : Effects) (conns : List (Connection F A)) (sel : ℕ)
    (pkt : List UInt8) (seq : Option UInt32) (now : ℕ) (refused : ℕ → Option ℕ) :
    forwardViaConnection e conns sel pkt seq now refused =
      conns[sel]?.elim (e, conns) fun c =>
        ((forwardLink sel pkt seq now refused sel e c).1,
          conns.set sel (forwardLink sel pkt seq now refused sel e c).2) := by
  have hother : ∀ i (e : Effects) (c : Connection F A), i ≠ sel →
      forwardLink sel pkt seq now refused i e c = (e, c) := fun i e c hi => if_pos hi
  rw [forwardViaConnection, Sweep.run_at hother, if_pos (Nat.zero_le sel)]
  rfl

theorem links_set (conns : List (Connection F A)) (i : ℕ) (c : Connection F A) :
    links (conns.set i c) = (links conns).set i c.link := List.map_set

theorem forward_steps (hbusy : w.busy) (e : Effects) (conns : List (Connection F A)) (sel : ℕ) (pkt : List UInt8)
    (seq : Option UInt32) (now : ℕ) (refused : ℕ → Option ℕ) :
    ∃ m ≤ if seq.isSome then 1 else 0,
      Steps w ⟨links conns, e.sequence, n⟩
        ⟨links (forwardViaConnection e conns sel pkt seq now refused).2,
          (forwardViaConnection e conns sel pkt seq now refused).1.sequence, n + (m, 0)⟩ := by
  rw [forwardViaConnection_eq]
  cases hsel : conns[sel]? with
  | none => exact ⟨0, Nat.zero_le _, .refl⟩
  | some c =>
    refine ⟨_, le_rfl, ?_⟩
    rw [Option.elim_some, links_set]
    exact (forwardLink_moves hbusy sel pkt seq now refused e c).at (by rw [links, List.getElem?_map, hsel]; rfl)

theorem sweep_links {σ : Type} {f : ℕ → σ → Connection F A → σ × Connection F A}
    (ringOf : σ → SequenceTracker)
    (h : ∀ i s c, Moves w (ringOf s) n c.link (ringOf (f i s c).1) n (f i s c).2.link)
    (s : σ) (conns : List (Connection F A)) :
    Steps w ⟨links conns, ringOf s, n⟩
      ⟨links (Sweep.run f 0 s conns).2, ringOf (Sweep.run f 0 s conns).1, n⟩ :=
  Ledger.sweep_steps ringOf h [] 0 s conns

theorem handleSrtDatagram_steps (hbusy : w.busy) {F : Type} [F64Exp F] (b : State F A) (pkt : List UInt8)
    (now : ℕ) (refused : ℕ → Option ℕ) :
    ∃ m ≤ numbered pkt,
      Steps w (b.ledger n) ((b.handleSrtDatagram pkt now refused).1.ledger (n + (m, 0))) := by
  rw [State.handleSrtDatagram]
  split
  · exact ⟨0, Nat.zero_le _, .refl⟩
  · dsimp only
    split
    · split
      · exact forward_steps hbusy { sequence := b.sequence } b.connections _ pkt _ now refused
      · exact ⟨0, Nat.zero_le _, .refl⟩
    · have hchoose := links_chooseIdx b.connections b.lastSelected pkt now b.config
      split
      next sel _ =>
        obtain ⟨m, hm, hforward⟩ := forward_steps (w := w) (n := n) hbusy { sequence := b.sequence }
          (State.chooseIdx b.connections b.lastSelected pkt now b.config).1 sel pkt
          (getSrtSequenceNumber pkt) now refused
        rw [hchoose] at hforward
        refine ⟨m, hm, hforward.trans ?_⟩
        split
        · exact sweep_links Effects.sequence (probeLink_moves hbusy sel pkt _ now refused) _ _
        · exact .refl
      next =>
        refine ⟨0, Nat.zero_le _, ?_⟩
        rw [State.ledger, State.ledger, hchoose]
        exact .refl

end Send

/-! Packets that come in. -/

section Receive
open Ledger (Moves Steps paid)
variable [F64 F] {w : Scope} {n : ℕ × ℕ}

/-- One for a REG3 that the uplink at this position waits for. -/
def accepted (reg : SrtlaRegistrationManager) (connIdx : ℕ) (data : List UInt8) : ℕ :=
  if getPacketType data = some srtlaTypeReg3 ∧ connIdx ∈ reg.awaitingReg3 then 1 else 0

omit [F64 F] in
theorem processRegistrationPacket_reg3 (reg : SrtlaRegistrationManager) (connIdx : ℕ)
    (data : List UInt8) (now : ℕ) :
    (if (reg.processRegistrationPacket connIdx data now).2 = some .reg3 then 1 else 0) =
      accepted reg connIdx data := by
  have hngp : srtlaTypeReg3 ≠ srtlaTypeRegNgp := by decide
  have hreg2 : srtlaTypeReg3 ≠ srtlaTypeReg2 := by decide
  rw [SrtlaRegistrationManager.processRegistrationPacket, accepted]
  by_cases htype : getPacketType data = some srtlaTypeReg3
  · simp only [htype, Option.some.injEq, hngp, hreg2, if_false, if_true, true_and,
      SrtlaRegistrationManager.handleReg3]
    split <;> simp
  · simp only [htype, false_and, if_false]
    split
    · rfl
    · split
      · rfl
      · split
        · dsimp only
          split <;> rfl
        · rfl

theorem registered_moves (c : Connection F A) (now : ℕ) (event : RegistrationEvent)
    (sequence : SequenceTracker) :
    Moves w sequence n c.link sequence (n + (0, if event = .reg3 then 1 else 0))
      (registered c now event).link := by
  cases event with
  | regNgp => exact .refl
  | reg2 => exact .refl
  | reg3 => exact fun _ _ => .single .join
  | regErr => exact .of_steps (.single (.refuse c.link))

theorem processKeepalive_link (c : Connection F A) (data : List UInt8) (now : ℕ) :
    (processKeepalive c data now).link = c.link := by
  rw [processKeepalive]
  dsimp only
  split
  · exact Connection.recordRttProbe_link { c with rtt := (c.rtt.handleKeepaliveResponse data now).1 }
  · rfl

theorem processUplinkPacket_moves (c : Connection F A) (connIdx : ℕ)
    (reg : SrtlaRegistrationManager) (data : List UInt8) (now : ℕ) (sequence : SequenceTracker) :
    Moves w sequence n c.link sequence (n + (0, accepted reg connIdx data))
      (processUplinkPacket c connIdx reg data now).1.link := by
  have hevent := processRegistrationPacket_reg3 reg connIdx data now
  rw [processUplinkPacket]
  split
  next htype =>
    rw [accepted, htype]
    exact .refl
  next type htype =>
    dsimp only
    split
    next event hsome =>
      rw [hsome] at hevent
      simp only [Option.some.injEq] at hevent
      rw [← hevent]
      exact registered_moves c now event sequence
    next hnone =>
      rw [hnone, if_neg (Option.some_ne_none _).symm] at hevent
      rw [← hevent]
      have hheard : Moves w sequence n c.link sequence n { c with lastReceived := some now }.link :=
        .of_steps (.single (.hear c.link))
      split
      · rw [processKeepalive_link]
        exact hheard
      · exact hheard

theorem forall₂_map {f : Connection F A → Connection F A}
    (h : ∀ c, Link.Steps c.link (f c).link) (conns : List (Connection F A)) :
    List.Forall₂ Link.Steps (links conns) (links (conns.map f)) := by
  induction conns with
  | nil => exact .nil
  | cons c conns ih => exact .cons (h c) ih

theorem links_refl (conns : List (Connection F A)) :
    List.Forall₂ Link.Steps (links conns) (links conns) :=
  List.forall₂_same.mpr fun _ _ => .refl

theorem nakFirst_steps (nak : Int32) (now : ℕ) (conns : List (Connection F A)) :
    List.Forall₂ Link.Steps (links conns) (links (nakFirst nak now conns)) := by
  induction conns with
  | nil => exact .nil
  | cons c conns ih =>
    rw [nakFirst]
    dsimp only
    split
    · exact .cons (c.handleNak_steps nak now) (links_refl conns)
    · exact .cons .refl ih

theorem attributeNak_steps (sequence : SequenceTracker) (now : ℕ) (conns : List (Connection F A))
    (nak : UInt32) :
    Steps w ⟨links conns, sequence, n⟩ ⟨links (attributeNak conns sequence nak now), sequence, n⟩ := by
  rw [attributeNak]
  split
  next pos _ =>
    rw [List.modify_eq_set_getElem?]
    cases hpos : conns[pos]? with
    | none => exact .refl
    | some c =>
      rw [Option.map_eq_map, Option.map_some, Option.getD_some, links_set]
      exact (Moves.of_steps (c.handleNak_steps nak.toInt32 now)).at
        (by rw [links, List.getElem?_map, hpos]; rfl)
  next => exact Ledger.forall_steps (nakFirst_steps _ now conns) []

theorem ackOther_steps (skip : ℕ) (seq : Int32) (classic : Bool) (now i : ℕ)
    (conns : List (Connection F A)) :
    List.Forall₂ Link.Steps (links conns) (links (ackOther skip seq classic now i conns)) := by
  induction conns generalizing i with
  | nil => exact .nil
  | cons c conns ih =>
    rw [ackOther]
    split
    · exact .cons .refl (ih (i + 1))
    · dsimp only
      split
      · exact .cons (c.handleSrtlaAckSpecific_steps seq classic now) (links_refl conns)
      · exact .cons .refl (ih (i + 1))

theorem ackArrival_steps (c : Connection F A) (seq : UInt32) (delivery : Option DeliveryCredit)
    (classic : Bool) (now : ℕ) :
    Link.Steps (paid c.link delivery) (ackArrival c seq delivery classic now).1.link := by
  rw [ackArrival, paid]
  dsimp only
  cases delivery.filter (·.newlyCredited) with
  | none => exact c.handleSrtlaAckSpecific_steps seq.toInt32 classic now
  | some credit =>
    have hspecific := (c.recordDeliveredBytes credit.wireBytes).handleSrtlaAckSpecific_steps
      seq.toInt32 classic now
    dsimp only
    split <;> exact hspecific

theorem handleSrtlaAck_steps (idx : ℕ) (classic : Bool) (now : ℕ)
    (s : SequenceTracker × List (Connection F A)) (seq : UInt32) :
    Steps w ⟨links s.2, s.1, n⟩ ⟨links (handleSrtlaAck idx classic now s seq).2,
      (handleSrtlaAck idx classic now s seq).1, n⟩ := by
  rw [handleSrtlaAck]
  cases hidx : s.2[idx]? with
  | none => exact .refl
  | some c =>
    dsimp only
    have harrival : Steps w ⟨links s.2, s.1, n⟩
        ⟨links (s.2.set idx
          (ackArrival c seq (s.1.acknowledgeDelivery seq c.connId now).2 classic now).1),
          (s.1.acknowledgeDelivery seq c.connId now).1, n⟩ := by
      have hpaid : Moves w s.1 n c.link (s.1.acknowledgeDelivery seq c.connId now).1 n
          (paid c.link (s.1.acknowledgeDelivery seq c.connId now).2) :=
        fun _ _ => .single (.acknowledge seq now)
      rw [links_set]
      exact (hpaid.trans (.of_steps (ackArrival_steps c seq _ classic now))).at
        (by rw [links, List.getElem?_map, hidx]; rfl)
    have hglobal : ∀ conns : List (Connection F A), List.Forall₂ Link.Steps (links conns)
        (links (conns.map (·.handleSrtlaAckGlobal))) :=
      forall₂_map Connection.handleSrtlaAckGlobal_steps
    split
    · exact harrival.trans (Ledger.forall_steps (hglobal _) [])
    · exact harrival.trans ((Ledger.forall_steps (ackOther_steps idx _ classic now 0 _) []).trans
        (Ledger.forall_steps (hglobal _) []))

theorem handleAck_steps (sequence : SequenceTracker) (now : ℕ) (conns : List (Connection F A))
    (ack : UInt32) :
    Steps w ⟨links conns, sequence, n⟩ ⟨links (handleAck sequence now conns ack), sequence, n⟩ :=
  Ledger.forall_steps (forall₂_map (fun c => c.handleSrtAck_steps _ now _) conns) []

theorem foldl_steps {α σ : Type} {f : σ → α → σ} (book : σ → Ledger A)
    (h : ∀ s a, Steps w (book s) (book (f s a))) (s : σ) (as : List α) :
    Steps w (book s) (book (as.foldl f s)) := by
  induction as generalizing s with
  | nil => exact .refl
  | cons a as ih => exact (h s a).trans (ih (f s a))

theorem processConnectionEvents_steps (b : State F A) (idx : ℕ) (incoming : SrtlaIncoming)
    (now : ℕ) :
    Steps w (b.ledger n) ((b.processConnectionEvents idx incoming now).ledger n) := by
  rw [State.processConnectionEvents]
  dsimp only
  refine (foldl_steps (fun conns => ⟨links conns, b.sequence, n⟩)
    (handleAck_steps b.sequence now) b.connections incoming.ackNumbers).trans ?_
  refine (foldl_steps (fun s : SequenceTracker × List (Connection F A) => ⟨links s.2, s.1, n⟩)
    (handleSrtlaAck_steps idx (decide (b.config.mode = .classic)) now) (b.sequence, _)
    incoming.srtlaAckNumbers).trans ?_
  exact foldl_steps (fun conns => ⟨links conns, _, n⟩)
    (fun conns nak => attributeNak_steps _ now conns nak) _ incoming.nakNumbers

def State.accepts (b : State F A) : Event A → ℕ
  | .packet connId data _ =>
    ((b.connections.findIdx? (·.connId == connId)).map (accepted b.reg · data)).getD 0
  | _ => 0

theorem handleUplinkPacket_steps (b : State F A) (connId : UInt64) (data : List UInt8) (now : ℕ) :
    Steps w (b.ledger n) ((b.handleUplinkPacket connId data now).1.ledger
      (n + (0, b.accepts (.packet connId data now)))) := by
  rw [State.handleUplinkPacket, State.accepts]
  split
  next hempty =>
    have hzero : ∀ idx, accepted b.reg idx data = 0 := by
      intro idx
      rw [List.isEmpty_iff.mp hempty]
      exact if_neg fun h => absurd h.1 (by decide)
    cases b.connections.findIdx? (·.connId == connId) with
    | none => exact .refl
    | some idx =>
      rw [Option.map_some, Option.getD_some, hzero]
      exact .refl
  next =>
    split
    next hnone =>
      rw [hnone]
      exact .refl
    next idx hidx =>
      rw [hidx]
      split
      next hget =>
        have hlt := (List.findIdx?_eq_some_iff_getElem.mp hidx).1
        exact absurd hget (by rw [List.getElem?_eq_getElem hlt]; exact Option.some_ne_none _)
      next c hget =>
        have hpacket : Steps w (b.ledger n)
            ⟨links (b.connections.set idx (processUplinkPacket c idx b.reg data now).1),
              b.sequence, n + (0, accepted b.reg idx data)⟩ := by
          rw [links_set]
          exact (processUplinkPacket_moves c idx b.reg data now b.sequence).at
            (by rw [links, List.getElem?_map, hget]; rfl)
        exact hpacket.trans (processConnectionEvents_steps
          { b with
            connections := b.connections.set idx (processUplinkPacket c idx b.reg data now).1
            reg := (processUplinkPacket c idx b.reg data now).2.1
            config := _ } idx _ now)

end Receive

/-! Links that come and go. -/

section Connect
open Ledger (Moves Steps)
variable [F64 F] {w : Scope} {n : ℕ × ℕ}

/-- The ids that a connect draws are new, and no two of them are the same. -/
structure Drawn (conns : List (Connection F A)) (opened : A → Option UInt64) : Prop where
  ne_zero : ∀ ip, opened ip ≠ some 0
  unused : ∀ ip, ∀ c ∈ conns, opened ip ≠ some c.connId
  injective : ∀ ip ip' id, opened ip = some id → opened ip' = some id → ip = ip'

theorem close_steps (hchanging : w.changing) (keep : Connection F A → Bool) (pre : List (Link A))
    (sequence : SequenceTracker) (conns : List (Connection F A)) :
    Steps w ⟨pre ++ links conns, sequence, n⟩
      ⟨pre ++ links (conns.filter keep),
        (conns.filter fun c => !keep c).foldl (fun t c => t.removeConnection c.connId) sequence,
        n⟩ := by
  induction conns generalizing pre sequence with
  | nil => exact .refl
  | cons c conns ih =>
    cases hkeep : keep c with
    | true =>
      rw [List.filter_cons_of_pos hkeep, List.filter_cons_of_neg (by simp [hkeep])]
      have hrest := ih (pre ++ [c.link]) sequence
      rw [List.append_assoc, List.append_assoc, List.singleton_append, List.singleton_append] at hrest
      exact hrest
    | false =>
      rw [List.filter_cons_of_neg (by simp [hkeep]), List.filter_cons_of_pos (by simp [hkeep])]
      exact .head (.close hchanging) (ih pre _)

theorem connect_steps {ι : Type} (hchanging : w.changing) (ipOf : ι → A) (opened : ι → Option UInt64) (now : ℕ)
    (sequence : SequenceTracker) (items : List ι) (ls : List (Link A))
    (hzero : w.fresh → ∀ i ∈ items, opened i ≠ some 0)
    (hdistinct : w.fresh → items.Pairwise fun i j => ∀ id, opened i = some id → opened j ≠ some id)
    (hunused : w.fresh → ∀ i ∈ items, ∀ l ∈ ls, opened i ≠ some l.connId) :
    Steps w ⟨ls, sequence, n⟩
      ⟨ls ++ links (items.filterMap fun i => (opened i).map fun id =>
        (.newRegistering id (ipOf i) now : Connection F A)), sequence, n⟩ := by
  induction items generalizing ls with
  | nil => rw [List.filterMap_nil, links, List.map_nil, List.append_nil]
  | cons i items ih =>
    have hzero' : w.fresh → ∀ j ∈ items, opened j ≠ some 0 := fun hfresh j hj =>
      hzero hfresh j (List.mem_cons_of_mem i hj)
    have hdistinct' := fun hfresh => (List.pairwise_cons.mp (hdistinct hfresh)).2
    cases hid : opened i with
    | none =>
      rw [List.filterMap_cons_none (by rw [hid]; rfl)]
      exact ih ls hzero' hdistinct' fun hfresh j hj =>
        hunused hfresh j (List.mem_cons_of_mem i hj)
    | some id =>
      have hnew : w.fresh → ∀ j ∈ items, ∀ l ∈ ls ++ [.fresh id (ipOf i)], opened j ≠ some l.connId := by
        intro hfresh j hj l hl
        rcases List.mem_append.mp hl with hl | hl
        · exact hunused hfresh j (List.mem_cons_of_mem i hj) l hl
        · obtain rfl := List.mem_singleton.mp hl
          exact (List.pairwise_cons.mp (hdistinct hfresh)).1 j hj id hid
      have hsteps := ih (ls ++ [.fresh id (ipOf i)]) hzero' hdistinct' hnew
      rw [List.append_assoc] at hsteps
      rw [List.filterMap_cons_some (by rw [hid]; rfl)]
      refine .head (.connect hchanging (ipOf i) fun hfresh => ⟨?_, fun l hl hl' => ?_⟩) hsteps
      · rintro rfl
        exact hzero hfresh i List.mem_cons_self hid
      · exact hunused hfresh i List.mem_cons_self l hl (by rw [hid, hl'])

variable [DecidableEq A]

omit [F64 F] in
theorem nodup_eraseDups : ∀ ips : List A, ips.eraseDups.Nodup
  | [] => List.nodup_nil
  | ip :: ips => by
    rw [List.eraseDups_cons]
    refine List.nodup_cons.mpr ⟨fun h => ?_, nodup_eraseDups _⟩
    simp [List.mem_eraseDups] at h
termination_by ips => ips.length
decreasing_by exact Nat.lt_succ_of_le (List.length_filter_le _ _)

theorem changeConnections_steps (hchanging : w.changing) (b : State F A) (newIps : List A) {opened : A → Option UInt64}
    (hdrawn : w.fresh → Drawn b.connections opened) (now : ℕ) :
    Steps w (b.ledger n) ((b.changeConnections newIps opened now).ledger n) := by
  refine (close_steps hchanging (fun c => newIps.contains c.localIp) [] b.sequence b.connections).trans ?_
  rw [List.nil_append, State.ledger, State.changeConnections, applyConnectionChanges]
  dsimp only
  rw [links, links, List.map_append]
  refine connect_steps hchanging id opened now _ _ _ (fun hfresh ip _ => (hdrawn hfresh).ne_zero ip)
    (fun hfresh => ?_) fun hfresh ip _ l hl => ?_
  · refine ((nodup_eraseDups newIps).filter _).imp fun hne id hid hid' => ?_
    exact hne ((hdrawn hfresh).injective _ _ id hid hid')
  · obtain ⟨c, hc, rfl⟩ := List.mem_map.mp hl
    exact (hdrawn hfresh).unused ip c (List.mem_of_mem_filter hc)

omit [DecidableEq A] in
theorem links_startProbing (reg : SrtlaRegistrationManager) (conns : List (Connection F A))
    (now : ℕ) : links (reg.startProbing conns now).2.1 = links conns := by
  rw [SrtlaRegistrationManager.startProbing]
  split
  · rfl
  · exact links_map (fun c => c.probeReg2Packet_link now _) conns

omit [DecidableEq A] in
theorem startProbing_ledger (b : State F A) (now : ℕ) :
    (b.startProbing now).1.ledger n = b.ledger n := by
  rw [State.startProbing, State.ledger]
  dsimp only
  rw [links_startProbing]
  rfl

omit [DecidableEq A] in
theorem joinLinks_ledger (b : State F A) (oldIps : List A) (isNew : Connection F A → Bool)
    (now : ℕ) : (b.joinLinks oldIps isNew now).1.ledger n = b.ledger n := by
  rw [State.joinLinks]
  split
  · exact startProbing_ledger b now
  · rfl

theorem setAdminEnabled_moves (hchanging : w.changing) (configured : List (EmbeddedLink A))
    (now : ℕ) (c : Connection F A) (sequence : SequenceTracker) :
    Moves w sequence n c.link sequence n (setAdminEnabled configured now c).link := by
  rw [setAdminEnabled]
  split
  · split
    · rw [Connection.setAdminEnabled_link]
      exact fun _ _ => .single (.admin hchanging _)
    · exact .refl
  · exact .refl

theorem changeLinks_steps (hchanging : w.changing) (b : State F A)
    (configured : List (EmbeddedLink A)) (ips : List A) (oldIps : List A)
    (isNew : Connection F A → Bool) {opened : A → Option UInt64}
    (hdrawn : w.fresh → Drawn b.connections opened) (now : ℕ) :
    let b' := { b with configuredLinks := configured }.changeConnections ips opened now
    Steps w (b.ledger n)
      (({ b' with connections := b'.connections.map (setAdminEnabled configured now) }.joinLinks
        oldIps isNew now).1.ledger n) := by
  intro b'
  rw [joinLinks_ledger]
  have hchange : Steps w (b.ledger n) (b'.ledger n) :=
    changeConnections_steps hchanging { b with configuredLinks := configured } ips hdrawn now
  exact hchange.trans (Ledger.map_steps (fun c => setAdminEnabled_moves hchanging configured now c _)
    [] b'.connections)

theorem handleControl_steps (hchanging : w.changing) (b : State F A) {opened : A → Option UInt64}
    (hdrawn : w.fresh → Drawn b.connections opened) (now : ℕ) (message : Control A) :
    Steps w (b.ledger n) ((b.handleControl opened now message).1.ledger n) := by
  cases message with
  | setLink id enabled =>
    rw [State.handleControl, State.setLink]
    split
    · exact .refl
    · split
      · exact .refl
      · exact changeLinks_steps hchanging b _ _ _ _ hdrawn now
  | updateLinks new => exact changeLinks_steps hchanging b new _ _ _ hdrawn now

end Connect

/-! The tick. -/

section Tick
open Ledger (Moves Steps)
variable [F64 F] {w : Scope} {n : ℕ × ℕ}

theorem rebuildUplinkSocket_moves (e : Effects) (c : Connection F A) (now : ℕ) (reopened : Bool) :
    Moves w e.sequence n c.link (rebuildUplinkSocket e c now reopened).1.sequence n
      (rebuildUplinkSocket e c now reopened).2.link := by
  cases reopened with
  | true => exact fun _ _ => .single .reopen
  | false => exact recoverConnection_moves e c

theorem resendRegistration_sequence (e : TickEffects) (i : ℕ) (connId : UInt64) (now : ℕ) :
    (resendRegistration e i connId now).sequence = e.sequence := by
  rw [resendRegistration]
  split
  · split <;> rfl
  · rfl

theorem sendKeepalive_moves (e : TickEffects) (c : Connection F A) (now : ℕ) (due : Bool) :
    Moves w e.sequence n c.link (sendKeepalive e c now due).1.sequence n
      (sendKeepalive e c now due).2.link := by
  cases due with
  | true => exact .of_eq (c.keepalivePacket_link now)
  | false => exact .refl

theorem tickLink_moves (now : ℕ) (classic : Bool) (reopened : ℕ → Bool) (i : ℕ) (e : TickEffects)
    (c : Connection F A) :
    Moves w e.sequence n c.link (tickLink now classic reopened i e c).1.sequence n
      (tickLink now classic reopened i e c).2.link := by
  rw [tickLink]
  split
  · split
    · dsimp only
      rw [resendRegistration_sequence]
      exact rebuildUplinkSocket_moves e.toEffects
        { c with reconnection := c.reconnection.recordAttempt now } now (reopened i)
    · exact .refl
  · dsimp only
    rw [Connection.recomputeBatchRegime_link, Connection.updatePhase_link,
      Connection.calculateBitrate_link]
    have hfirst := sendKeepalive_moves (w := w) (n := n) e c now (c.needsKeepalive now)
    refine hfirst.trans ((sendKeepalive_moves _ _ now
      ((sendKeepalive e c now (c.needsKeepalive now)).2.needsRttMeasurement now)).trans ?_)
    split
    · exact .refl
    · exact .of_steps (Connection.performWindowRecovery_steps _ now)

theorem links_modify {f : Connection F A → Connection F A} (h : ∀ c, (f c).link = c.link)
    (conns : List (Connection F A)) (i : ℕ) : links (conns.modify i f) = links conns := by
  apply List.ext_getElem?
  intro j
  rw [links, links, List.getElem?_map, List.getElem?_map, List.getElem?_modify,
    Option.map_eq_map, Option.map_map]
  refine Option.map_congr fun c _ => ?_
  rw [Function.comp_apply]
  split
  · exact h c
  · rfl

theorem links_finishProbing (reg : SrtlaRegistrationManager) (conns : List (Connection F A))
    (now : ℕ) : links (finishProbing reg conns now).2 = links conns := by
  rw [finishProbing]
  split
  · dsimp only
    split
    · rfl
    · split
      · exact links_modify (f := fun c =>
          { c with reconnection := c.reconnection.resetStartupGrace now }) (fun c => rfl) conns _
      · rfl
  · rfl

theorem rehomeBond_steps (b : State F A) (now : ℕ) (ids : SrtlaId × SrtlaId) (rebuilt : ℕ → Bool) :
    Steps w (b.ledger n) ((rehomeBond b now ids rebuilt).1.ledger n) := by
  rw [rehomeBond, startProbing_ledger]
  exact sweep_links Effects.sequence
    (fun i e c => rebuildUplinkSocket_moves e c now (rebuilt i)) { sequence := b.sequence } _

theorem watchFailures_steps (b : State F A) (now : ℕ) (input : TickInput) :
    Steps w (b.ledger n) ((watchFailures b now input).1.ledger n) := by
  rw [watchFailures]
  split
  · exact .refl
  · dsimp only
    split
    · split
      · exact rehomeBond_steps { b with allFailedAt := some (b.allFailedAt.getD now) } now _ _
      · exact .refl
    · exact .refl

theorem handleHousekeeping_steps (b : State F A) (now : ℕ) (input : TickInput) :
    Steps w (b.ledger n) ((handleHousekeeping b now input).1.ledger n) := by
  rw [handleHousekeeping]
  dsimp only
  have hsweep := sweep_links (w := w) (n := n) (fun e : TickEffects => e.sequence)
    (tickLink_moves (F := F) (A := A) now (decide (b.config.mode = .classic)) input.reopened)
    { sequence := b.sequence, reg := (finishProbing (b.reg.clearPendingIfTimedOut now)
        b.connections now).1 }
    (finishProbing (b.reg.clearPendingIfTimedOut now) b.connections now).2
  rw [links_finishProbing] at hsweep
  exact hsweep.trans (watchFailures_steps { b with connections := _, sequence := _, reg := _ } now input)

variable [DecidableEq A]

theorem tick_steps (b : State F A) (hchanging : b.connections.isEmpty → w.changing) {opened : A → Option UInt64}
    (hdrawn : w.fresh → Drawn b.connections opened) (now : ℕ) (input : TickInput) :
    Steps w (b.ledger n) ((b.tick opened now input).1.ledger n) := by
  have hverdict : ∀ b : State F A, ({ b with
      connections := b.connections.map (applyVerdict input.verdict) } : State F A).ledger n =
      b.ledger n := by
    intro b
    rw [State.ledger, State.ledger, links_map]
    exact fun c => rfl
  unfold State.tick State.work State.judge
  dsimp only
  rw [hverdict]
  refine .trans ?_ (handleHousekeeping_steps _ now input)
  split
  next hempty =>
    have hchange := changeConnections_steps (n := n) (hchanging hempty) b
      (EmbeddedRunner.enabledIps b.configuredLinks) hdrawn now
    split
    · rw [startProbing_ledger]
      exact hchange
    · exact hchange
  next => exact .refl

end Tick

/-! Every event. -/

section Run
open Ledger (Steps)
variable [F64Exp F] [DecidableEq A] {w : Scope} {n : ℕ × ℕ}

/-- The ids of the links that an event opens are drawn anew. -/
def Event.Draws (b : State F A) : Event A → Prop
  | .control _ opened _ => Drawn b.connections opened
  | .tick opened _ _ => Drawn b.connections opened
  | _ => True

def Event.numbered : Event A → ℕ
  | .datagram pkt _ _ => Bond.numbered pkt
  | _ => 0

theorem step_steps (hbusy : w.busy) (hchanging : w.changing) (b : State F A) (e : Event A)
    (hdraws : w.fresh → e.Draws b) :
    ∃ m ≤ e.numbered, Steps w (b.ledger n) ((b.step e).1.ledger (n + (m, b.accepts e))) := by
  cases e with
  | datagram pkt now refused => exact handleSrtDatagram_steps hbusy b pkt now refused
  | packet connId data now => exact ⟨0, le_rfl, handleUplinkPacket_steps b connId data now⟩
  | control message opened now =>
    exact ⟨0, le_rfl, handleControl_steps hchanging b hdraws now message⟩
  | tick opened now input => exact ⟨0, le_rfl, tick_steps b (fun _ => hchanging) hdraws now input⟩
  | flush now refused =>
    exact ⟨0, le_rfl, sweep_links Effects.sequence (flushLink_moves hbusy now refused)
      { sequence := b.sequence } b.connections⟩

def registrations : State F A → List (Event A) → ℕ
  | _, [] => 0
  | b, e :: es => b.accepts e + registrations (b.step e).1 es

structure Setup (A : Type) where
  configured : List (EmbeddedLink A)
  opened : ℕ → Option UInt64
  now : ℕ
  mode : SchedulingMode
  id : SrtlaId
  probeId : SrtlaId

def Setup.start (s : Setup A) : State F A :=
  (State.start s.configured s.opened s.now s.mode s.id s.probeId).1

structure Setup.Draws (s : Setup A) : Prop where
  ne_zero : ∀ i, s.opened i ≠ some 0
  injective : ∀ i j id, s.opened i = some id → s.opened j = some id → i = j

def run (s : Setup A) (es : List (Event A)) : State F A := Reactive.exec State.step s.start es

def DrawsAnew (F : Type) [F64Exp F] (s : Setup A) (es : List (Event A)) : Prop :=
  s.Draws ∧ Reactive.Along State.step (fun (b : State F A) e => e.Draws b) s.start es

omit [DecidableEq A] in
theorem start_steps (hchanging : w.changing) (s : Setup A) (hdraws : w.fresh → s.Draws) :
    Steps w ⟨[], .new, n⟩ ((s.start : State F A).ledger n) := by
  have hconnect : Steps w ⟨[], .new, n⟩ ⟨links
      ((EmbeddedRunner.enabledIps s.configured).zipIdx.filterMap fun ip =>
        (s.opened ip.2).map fun id => (.newRegistering id ip.1 s.now : Connection F A)),
      .new, n⟩ := by
    refine connect_steps (ι := A × ℕ) hchanging Prod.fst (s.opened ·.2) s.now .new _ []
      (fun hfresh ip _ => (hdraws hfresh).ne_zero ip.2) (fun hfresh => ?_)
      fun _ _ _ _ hl => absurd hl List.not_mem_nil
    have hindices : ((EmbeddedRunner.enabledIps s.configured).zipIdx.map Prod.snd).Nodup := by
      rw [List.zipIdx_map_snd]
      exact List.nodup_range'
    refine (List.pairwise_map.mp hindices).imp fun hne id hid hid' => ?_
    exact hne ((hdraws hfresh).injective _ _ id hid hid')
  rw [Setup.start, State.start]
  split
  · exact hconnect
  · rw [startProbing_ledger]
    exact hconnect

theorem exec_steps (hbusy : w.busy) (hchanging : w.changing) (b : State F A) (es : List (Event A))
    (hdraws : w.fresh → Reactive.Along State.step (fun (b : State F A) e => e.Draws b) b es) :
    ∃ m ≤ (es.map Event.numbered).sum, Steps w (b.ledger n)
      ((Reactive.exec State.step b es).ledger (n + (m, registrations b es))) := by
  induction es generalizing b n with
  | nil => exact ⟨0, le_rfl, .refl⟩
  | cons e es ih =>
    obtain ⟨m, hm, hfirst⟩ := step_steps (n := n) hbusy hchanging b e fun hfresh => (hdraws hfresh).1
    obtain ⟨m', hm', hrest⟩ := ih (n := n + (m, b.accepts e)) (b.step e).1 fun hfresh =>
      (hdraws hfresh).2
    refine ⟨m + m', ?_, ?_⟩
    · rw [List.map_cons, List.sum_cons]
      exact Nat.add_le_add hm hm'
    · rw [add_assoc] at hrest
      exact hfirst.trans hrest

theorem run_steps (hbusy : w.busy) (hchanging : w.changing) (s : Setup A) (es : List (Event A))
    (hdraws : w.fresh → DrawsAnew F s es) :
    ∃ m ≤ (es.map Event.numbered).sum, Steps w ⟨[], .new, 0⟩
      ((run s es : State F A).ledger (m, registrations (s.start : State F A) es)) := by
  obtain ⟨m, hm, hrun⟩ := exec_steps (n := 0) hbusy hchanging (s.start : State F A) es fun hfresh =>
    (hdraws hfresh).2
  rw [zero_add] at hrun
  exact ⟨m, hm, (start_steps hchanging s fun hfresh => (hdraws hfresh).1).trans hrun⟩

theorem run_invariant (fresh : Prop) {I : Ledger A → Prop} (hempty : I ⟨[], .new, 0⟩)
    (hstep : ∀ l l', Ledger.Step ⟨fresh, True, True⟩ l l' → I l → I l') (s : Setup A)
    (es : List (Event A)) (hdraws : fresh → DrawsAnew F s es) :
    ∃ m ≤ (es.map Event.numbered).sum,
      I ((run s es : State F A).ledger (m, registrations (s.start : State F A) es)) := by
  obtain ⟨m, hm, hsteps⟩ := run_steps (w := ⟨fresh, True, True⟩) trivial trivial s es hdraws
  exact ⟨m, hm, hsteps.invariant hstep hempty⟩

end Run

end Srtla.Bond
