import SrtlaOutput.Bond.Refinement

/-! What is handed to the queue towards the SRT caller: every packet of the receiver that is not one
of the bond's own, as it came in, in the order in which it came in, and nothing else. -/

namespace Srtla.Bond
open Uplink Wire
variable {F A : Type}

def Output.toClient : Output → Option (List UInt8)
  | .uplink _ _ => none
  | .client data => some data

/-- A packet that the registration takes. A REG3 or REG_ERR only where it is waited for. -/
def registers (reg : SrtlaRegistrationManager) (connIdx : ℕ) (type : UInt16) : Prop :=
  type = srtlaTypeRegNgp ∨ type = srtlaTypeReg2 ∨
    (type = srtlaTypeReg3 ∧ connIdx ∈ reg.awaitingReg3) ∨
    (type = srtlaTypeRegErr ∧ (reg.pendingReg2Idx = some connIdx ∨ connIdx ∈ reg.awaitingReg3))

instance (reg : SrtlaRegistrationManager) (connIdx : ℕ) (type : UInt16) :
    Decidable (registers reg connIdx type) := inferInstanceAs (Decidable (_ ∨ _))

def own (reg : SrtlaRegistrationManager) (connIdx : ℕ) (type : UInt16) : Prop :=
  registers reg connIdx type ∨ type = srtlaTypeAck ∨ type = srtlaTypeKeepalive

instance (reg : SrtlaRegistrationManager) (connIdx : ℕ) (type : UInt16) :
    Decidable (own reg connIdx type) := inferInstanceAs (Decidable (_ ∨ _))

/-- What an event has for the caller. -/
def State.relays (b : State F A) : Event A → Option (List UInt8)
  | .packet connId data _ =>
    (b.connections.findIdx? (·.connId == connId)).bind fun idx =>
      (getPacketType data).bind fun type => if own b.reg idx type then none else some data
  | _ => none

/-! Everything but a packet of the receiver leaves the caller alone. -/

def Silent (outs : List Output) : Prop := outs.filterMap Output.toClient = []

theorem Silent.nil : Silent [] := rfl

theorem Silent.append {outs outs' : List Output} (h : Silent outs) (h' : Silent outs') :
    Silent (outs ++ outs') := by
  rw [Silent, List.filterMap_append, h, h']
  rfl

theorem silent_map {α : Type} (connId : α → UInt64) (data : α → List UInt8) (as : List α) :
    Silent (as.map fun a => .uplink (connId a) (data a)) := by
  rw [Silent, List.filterMap_map]
  exact List.filterMap_eq_nil_iff.mpr fun _ _ => rfl

theorem Silent.send {outs : List Output} (h : Silent outs) (connId : UInt64) (data : List UInt8) :
    Silent (outs ++ [.uplink connId data]) :=
  h.append rfl

section Send
variable [F64 F]

omit [F64 F] in
theorem flushConnection_silent (e : Effects) (c : Connection F A) (now : ℕ) (refused : Option ℕ)
    (h : Silent e.out) : Silent (flushConnection e c now refused).1.out := by
  rw [flushConnection]
  dsimp only
  split
  · exact h
  · exact h.append (silent_map _ _ _)
  · exact h.append (silent_map _ _ _)

omit [F64 F] in
theorem forwardViaConnection_silent (e : Effects) (conns : List (Connection F A)) (sel : ℕ)
    (pkt : List UInt8) (seq : Option UInt32) (now : ℕ) (refused : ℕ → Option ℕ)
    (h : Silent e.out) :
    Silent (forwardViaConnection e conns sel pkt seq now refused).1.out := by
  refine Sweep.run_state (J := fun e : Effects => Silent e.out) (fun i e c _ h => ?_) h
  rw [forwardLink]
  split
  · exact h
  · dsimp only
    split
    · refine flushConnection_silent _ _ now _ ?_
      cases seq <;> exact h
    · cases seq <;> exact h

omit [F64 F] in
theorem sendStallProbes_silent (e : Effects) (conns : List (Connection F A)) (sel : ℕ)
    (pkt : List UInt8) (seq : UInt32) (now : ℕ) (refused : ℕ → Option ℕ) (h : Silent e.out) :
    Silent (sendStallProbes e conns sel pkt seq now refused).1.out := by
  refine Sweep.run_state (J := fun e : Effects => Silent e.out) (fun i e c _ h => ?_) h
  rw [probeLink]
  split
  · exact h
  · split
    · exact h
    · dsimp only
      split
      · exact h
      · split
        · exact flushConnection_silent e _ now _ h
        · exact h

theorem handleSrtDatagram_silent {F : Type} [F64Exp F] (b : State F A) (pkt : List UInt8) (now : ℕ)
    (refused : ℕ → Option ℕ) : Silent (b.handleSrtDatagram pkt now refused).2 := by
  rw [State.handleSrtDatagram]
  split
  · exact .nil
  · dsimp only
    split
    · split
      · exact forwardViaConnection_silent _ _ _ pkt _ now refused .nil
      · exact .nil
    · split
      next sel _ =>
        have hforward := forwardViaConnection_silent { sequence := b.sequence }
          (State.chooseIdx b.connections b.lastSelected pkt now b.config).1 sel pkt
          (getSrtSequenceNumber pkt) now refused .nil
        cases hseq : getSrtSequenceNumber pkt with
        | none => rwa [hseq] at hforward
        | some s =>
          rw [hseq] at hforward
          exact sendStallProbes_silent _ _ sel pkt s now refused hforward
      next => exact .nil

end Send

section Tick
variable [F64 F]

theorem startProbing_silent (b : State F A) (now : ℕ) : Silent (b.startProbing now).2 := by
  rw [State.startProbing, Silent]
  refine List.filterMap_eq_nil_iff.mpr fun o ho => ?_
  obtain ⟨p, -, hp⟩ := List.mem_filterMap.mp ho
  obtain ⟨c, -, rfl⟩ := Option.map_eq_some_iff.mp hp
  rfl

omit [F64 F] in
theorem joinNew_silent (isNew : Connection F A → Bool) (i : ℕ) (reg : SrtlaRegistrationManager)
    (conns : List (Connection F A)) : Silent (State.joinNew isNew i reg conns).2 := by
  induction conns generalizing i reg with
  | nil => exact .nil
  | cons c conns ih =>
    rw [State.joinNew]
    split
    · exact ih (i + 1) (reg.buildReg2 i).1
    · exact ih (i + 1) reg

theorem handleControl_silent [DecidableEq A] (b : State F A) (opened : A → Option UInt64) (now : ℕ)
    (message : Control A) : Silent (b.handleControl opened now message).2 := by
  have hjoin : ∀ (b : State F A) (oldIps : List A) (isNew : Connection F A → Bool),
      Silent (b.joinLinks oldIps isNew now).2 := by
    intro b oldIps isNew
    rw [State.joinLinks]
    split
    · exact startProbing_silent b now
    · exact joinNew_silent isNew 0 b.reg b.connections
  cases message with
  | setLink id enabled =>
    rw [State.handleControl, State.setLink]
    split
    · exact .nil
    · split
      · exact .nil
      · exact hjoin _ _ _
  | updateLinks new => exact hjoin _ _ _

theorem tickLink_silent (now : ℕ) (classic : Bool) (reopened : ℕ → Bool) (i : ℕ) (e : TickEffects)
    (c : Connection F A) (h : Silent e.out) :
    Silent (tickLink now classic reopened i e c).1.out := by
  have hresend : ∀ (e : TickEffects) (connId : UInt64), Silent e.out →
      Silent (resendRegistration e i connId now).out := by
    intro e connId h
    rw [resendRegistration]
    split
    · split
      · exact h.send _ _
      · exact h
    · exact h.send _ _
  have hkeepalive : ∀ (e : TickEffects) (c : Connection F A) (due : Bool), Silent e.out →
      Silent (sendKeepalive e c now due).1.out := by
    intro e c due h
    cases due with
    | true => exact h.send _ _
    | false => exact h
  rw [tickLink]
  split
  · split
    · refine hresend _ _ ?_
      rw [rebuildUplinkSocket]
      split <;> exact h
    · exact h
  · exact hkeepalive _ _ _ (hkeepalive _ _ _ h)

omit [F64 F] in
theorem driverOutput_silent (conns : List (Connection F A)) (sends : RegDriverSends) :
    Silent (driverOutput conns sends) := by
  rw [driverOutput]
  refine Silent.append ?_ ?_
  · cases sends.reg1 with
    | none => exact .nil
    | some p =>
      rw [Option.bind_some]
      cases conns[p.1]? <;> exact .nil
  · split
    · exact silent_map _ _ _
    · exact .nil

theorem watchFailures_silent (b : State F A) (now : ℕ) (input : TickInput) :
    Silent (watchFailures b now input).2 := by
  rw [watchFailures]
  split
  · exact .nil
  · dsimp only
    split
    · split
      · exact startProbing_silent _ now
      · exact .nil
    · exact .nil

theorem tick_silent [DecidableEq A] (b : State F A) (opened : A → Option UInt64) (now : ℕ)
    (input : TickInput) : Silent (b.tick opened now input).2 := by
  unfold State.tick State.work
  dsimp only
  refine Silent.append ?_ ?_
  · split
    · split
      · exact startProbing_silent _ now
      · exact .nil
    · exact .nil
  · rw [handleHousekeeping]
    refine (Silent.append ?_ (driverOutput_silent _ _)).append (watchFailures_silent _ now input)
    exact Sweep.run_state (J := fun e : TickEffects => Silent e.out)
      (fun i e c _ h => tickLink_silent now _ input.reopened i e c h) .nil

end Tick

/-! A packet of the receiver. -/

section Receive
variable [F64 F]

omit [F64 F] in
theorem processRegistrationPacket_isSome (reg : SrtlaRegistrationManager) (connIdx : ℕ)
    (data : List UInt8) (now : ℕ) {type : UInt16} (htype : getPacketType data = some type) :
    (reg.processRegistrationPacket connIdx data now).2.isSome ↔ registers reg connIdx type := by
  have hlate : srtlaTypeReg3 ≠ srtlaTypeRegErr := by decide
  rw [SrtlaRegistrationManager.processRegistrationPacket, htype]
  simp only [Option.some.injEq]
  by_cases hngp : type = srtlaTypeRegNgp
  · rw [if_pos hngp]
    exact iff_of_true rfl (.inl hngp)
  by_cases hreg2 : type = srtlaTypeReg2
  · rw [if_neg hngp, if_pos hreg2]
    exact iff_of_true rfl (.inr (.inl hreg2))
  have hregisters : registers reg connIdx type ↔
      (type = srtlaTypeReg3 ∧ connIdx ∈ reg.awaitingReg3) ∨ (type = srtlaTypeRegErr ∧
        (reg.pendingReg2Idx = some connIdx ∨ connIdx ∈ reg.awaitingReg3)) :=
    (or_iff_right hngp).trans (or_iff_right hreg2)
  rw [if_neg hngp, if_neg hreg2, hregisters]
  by_cases hreg3 : type = srtlaTypeReg3
  · rw [if_pos hreg3, SrtlaRegistrationManager.handleReg3]
    by_cases hawaited : connIdx ∈ reg.awaitingReg3
    · rw [if_pos hawaited]
      exact iff_of_true rfl (.inl ⟨hreg3, hawaited⟩)
    · rw [if_neg hawaited]
      refine iff_of_false Bool.false_ne_true ?_
      rintro (h | h)
      · exact hawaited h.2
      · exact hlate (hreg3.symm.trans h.1)
  rw [if_neg hreg3, or_iff_right fun h => hreg3 h.1]
  by_cases hregErr : type = srtlaTypeRegErr
  · rw [if_pos hregErr, SrtlaRegistrationManager.handleRegErr, and_iff_right hregErr]
    by_cases hpending : reg.pendingReg2Idx = some connIdx
    · rw [if_pos hpending]
      exact iff_of_true rfl (.inl hpending)
    rw [if_neg hpending, or_iff_right hpending]
    by_cases hawaited : connIdx ∈ reg.awaitingReg3
    · rw [if_pos hawaited]
      exact iff_of_true rfl hawaited
    · rw [if_neg hawaited]
      exact iff_of_false Bool.false_ne_true hawaited
  · rw [if_neg hregErr]
    exact iff_of_false Bool.false_ne_true fun h => hregErr h.1

omit [F64 F] in
theorem readPacket_forwards (type : UInt16) (data : List UInt8) :
    (readPacket type data).forwardToClient =
      if type = srtlaTypeAck ∨ type = srtlaTypeKeepalive then [] else [data] := by
  have hack : ¬ (srtTypeAck = srtlaTypeAck ∨ srtTypeAck = srtlaTypeKeepalive) := by decide
  have hnak : ¬ (srtTypeNak = srtlaTypeAck ∨ srtTypeNak = srtlaTypeKeepalive) := by decide
  have hhandshake : ¬ (srtTypeHandshake = srtlaTypeAck ∨ srtTypeHandshake = srtlaTypeKeepalive) := by
    decide
  rw [readPacket]
  split
  next h => rw [h, if_neg hack]
  next =>
    split
    next h => rw [h, if_neg hnak]
    next =>
      split
      next h => rw [if_pos (.inl h)]
      next hack' =>
        split
        next h => rw [h, if_neg hhandshake]
        next =>
          split
          next h => rw [if_pos (.inr h)]
          next hkeepalive => rw [if_neg (not_or.mpr ⟨hack', hkeepalive⟩)]

theorem processUplinkPacket_forwards (c : Connection F A) (connIdx : ℕ)
    (reg : SrtlaRegistrationManager) (data : List UInt8) (now : ℕ) :
    (processUplinkPacket c connIdx reg data now).2.2.forwardToClient =
      ((getPacketType data).bind fun type =>
        if own reg connIdx type then none else some data).toList := by
  rw [processUplinkPacket]
  cases htype : getPacketType data with
  | none => rfl
  | some type =>
    have hsome := processRegistrationPacket_isSome reg connIdx data now htype
    dsimp only
    rw [Option.bind_some]
    cases hevent : (reg.processRegistrationPacket connIdx data now).2 with
    | some event =>
      rw [hevent] at hsome
      have hown : own reg connIdx type := .inl (hsome.mp rfl)
      rw [if_pos hown]
      rfl
    | none =>
      rw [hevent] at hsome
      have hregisters : ¬ registers reg connIdx type := fun h => Bool.false_ne_true (hsome.mpr h)
      dsimp only
      rw [readPacket_forwards]
      by_cases hread : type = srtlaTypeAck ∨ type = srtlaTypeKeepalive
      · have hown : own reg connIdx type := .inr hread
        rw [if_pos hread, if_pos hown]
        rfl
      · have hown : ¬ own reg connIdx type := not_or.mpr ⟨hregisters, hread⟩
        rw [if_neg hread, if_neg hown]
        rfl

theorem handleUplinkPacket_toClient (b : State F A) (connId : UInt64) (data : List UInt8)
    (now : ℕ) :
    (b.handleUplinkPacket connId data now).2.filterMap Output.toClient =
      (b.relays (.packet connId data now)).toList := by
  rw [State.handleUplinkPacket, State.relays]
  split
  next hempty =>
    rw [List.isEmpty_iff.mp hempty]
    cases b.connections.findIdx? (·.connId == connId) <;> rfl
  next =>
    split
    next hnone =>
      rw [hnone]
      rfl
    next idx hidx =>
      rw [hidx, Option.bind_some]
      split
      next hget =>
        have hlt := (List.findIdx?_eq_some_iff_getElem.mp hidx).1
        exact absurd hget (by rw [List.getElem?_eq_getElem hlt]; exact Option.some_ne_none _)
      next c _ =>
        have hclient : ∀ datas : List (List UInt8),
            (datas.map Output.client).filterMap Output.toClient = datas := by
          intro datas
          rw [List.filterMap_map]
          exact List.filterMap_some
        dsimp only
        rw [List.filterMap_append, hclient, processUplinkPacket_forwards]
        exact congrArg (· ++ _) (silent_map (fun _ => connId) id
          (processUplinkPacket c idx b.reg data now).2.2.reg1Send.toList)

end Receive

/-! The run. -/

section Run
variable [F64Exp F] [DecidableEq A]

theorem step_toClient (b : State F A) (e : Event A) :
    (b.step e).2.filterMap Output.toClient = (b.relays e).toList := by
  cases e with
  | datagram pkt now refused => exact handleSrtDatagram_silent b pkt now refused
  | packet connId data now => exact handleUplinkPacket_toClient b connId data now
  | control message opened now => exact handleControl_silent b opened now message
  | tick opened now input => exact tick_silent b opened now input
  | flush now refused =>
    refine Sweep.run_state (J := fun e : Effects => Silent e.out) (fun i e c _ h => ?_)
      (s := { sequence := b.sequence }) .nil
    rw [flushLink]
    split
    · exact flushConnection_silent e c now _ h
    · exact h

/-- What the events of a run have for the caller, each in the state that it meets. -/
def relayed : State F A → List (Event A) → List (List UInt8)
  | _, [] => []
  | b, e :: es => (b.relays e).toList ++ relayed (b.step e).1 es

/-- In every run the queue towards the caller is handed the packets of the receiver that are not the
bond's own, each of them once, as it came in, in the order in which they came in, and nothing
else. -/
theorem client_gets_relayed (s : Setup A) (es : List (Event A)) :
    (Reactive.replies State.step (s.start : State F A) es).flatten.filterMap Output.toClient =
      relayed (s.start : State F A) es := by
  have hrun : ∀ b : State F A,
      (Reactive.replies State.step b es).flatten.filterMap Output.toClient = relayed b es := by
    induction es with
    | nil => exact fun _ => rfl
    | cons e es ih =>
      intro b
      rw [Reactive.replies, List.flatten_cons, List.filterMap_append, step_toClient, ih, relayed]
  exact hrun s.start

end Run

end Srtla.Bond
