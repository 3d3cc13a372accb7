import SrtlaOutput.Bond.Choice

/-! A link that the operator has disabled stays in the bond as a standby. It registers, answers
keepalives and is opened again when it fails, but no packet of the caller is put on it. -/

namespace Srtla.Bond
open Uplink Wire
variable {F A : Type}

/-- A link that has taken nothing: a reset forgets what it sent before. -/
structure Idle (l l' : Link A) : Prop where
  connId : l'.connId = l.connId
  adminEnabled : l'.adminEnabled = l.adminEnabled
  sent : l'.sent = l.sent ∨ l'.sent = 0
  queue : l'.queue.Sublist l.queue

theorem Idle.refl (l : Link A) : Idle l l := ⟨rfl, rfl, .inl rfl, List.Sublist.refl _⟩

theorem Idle.trans {l l' l'' : Link A} (h : Idle l l') (h' : Idle l' l'') : Idle l l'' where
  connId := h'.connId.trans h.connId
  adminEnabled := h'.adminEnabled.trans h.adminEnabled
  sent := h'.sent.elim (fun hsame => h.sent.imp hsame.trans hsame.trans) .inr
  queue := h'.queue.trans h.queue

theorem Idle.step {l l' : Link A} (h : l.Step l') : Idle l l' := by
  cases h <;> exact ⟨rfl, rfl, .inl rfl, List.Sublist.refl _⟩

theorem Idle.flush (l : Link A) : Idle l l.flush where
  connId := l.flush_connId
  adminEnabled :=
    Link.foldl_register Link.adminEnabled (fun l p => by rw [Link.register]; split <;> rfl) _ _
  sent := .inl l.flush_sent
  queue := by
    have hqueue : l.flush.queue = [] :=
      Link.foldl_register Link.queue (fun l p => by rw [Link.register]; split <;> rfl) _ _
    rw [hqueue]
    exact List.nil_sublist _

theorem Idle.recover (l : Link A) : Idle l l.recover := ⟨rfl, rfl, .inl rfl, List.nil_sublist _⟩

/-! Between packets of the caller and control messages every link is idle. -/

theorem idle_ledger {w : Scope} (hbusy : ¬ w.busy) (hchanging : ¬ w.changing) {b b' : Ledger A}
    (h : Ledger.Step w b b') : List.Forall₂ Idle b.links b'.links := by
  have hsame : ∀ ls : List (Link A), List.Forall₂ Idle ls ls := fun ls =>
    List.forall₂_same.mpr fun l _ => .refl l
  have hone : ∀ {pre post : List (Link A)} {l l' : Link A}, Idle l l' →
      List.Forall₂ Idle (pre ++ l :: post) (pre ++ l' :: post) := fun hl =>
    List.rel_append (hsame _) (.cons hl (hsame _))
  cases h with
  | link h => exact hone (.step h)
  | forward h => exact absurd h hbusy
  | pass h => exact absurd h hbusy
  | probe h => exact absurd h hbusy
  | flush h => exact absurd h hbusy
  | join => exact hone ⟨rfl, rfl, .inl rfl, List.nil_sublist _⟩
  | admin h => exact absurd h hchanging
  | acknowledge seq now =>
    refine hone ?_
    rw [Ledger.paid]
    split <;> exact ⟨rfl, rfl, .inl rfl, List.Sublist.refl _⟩
  | recover => exact hone (.recover _)
  | reopen => exact hone ⟨rfl, rfl, .inr rfl, List.nil_sublist _⟩
  | close h => exact absurd h hchanging
  | connect h => exact absurd h hchanging

theorem idle_at {ls ls' : List (Link A)} (h : List.Forall₂ Idle ls ls') {i : ℕ} {l : Link A}
    (hl : ls[i]? = some l) : ∃ l', ls'[i]? = some l' ∧ Idle l l' := by
  induction h generalizing i with
  | nil => exact absurd hl (Option.some_ne_none l).symm
  | cons hidle _ ih =>
    cases i with
    | zero =>
      obtain rfl := Option.some_inj.mp hl
      exact ⟨_, rfl, hidle⟩
    | succ i => exact ih hl

def IdleAt [F64 F] (l : Link A) (i : ℕ) (conns : List (Connection F A)) : Prop :=
  ∃ l', (links conns)[i]? = some l' ∧ Idle l l'

section Event
variable [F64 F] {l : Link A} {i : ℕ}

theorem IdleAt.of_steps {b b' : State F A} {n n' : ℕ × ℕ}
    (h : Ledger.Steps ⟨False, False, False⟩ (b.ledger n) (b'.ledger n'))
    (hl : IdleAt l i b.connections) : IdleAt l i b'.connections := by
  refine h.invariant (I := fun ledger => ∃ l', ledger.links[i]? = some l' ∧ Idle l l') ?_ hl
  rintro ledger ledger' hstep ⟨l', hl', hidle⟩
  obtain ⟨l'', hl'', hidle'⟩ := idle_at (idle_ledger not_false not_false hstep) hl'
  exact ⟨l'', hl'', hidle.trans hidle'⟩

theorem flushConnection_idle (e : Effects) (c : Connection F A) (now : ℕ) (refused : Option ℕ) :
    Idle c.link (flushConnection e c now refused).2.link := by
  have hflush : Idle c.link (c.takeBatch now).1.link := by
    rw [Connection.takeBatch_link]
    exact .flush _
  rw [flushConnection]
  dsimp only
  split
  · exact hflush
  · exact hflush
  · exact hflush.trans (.recover _)

theorem IdleAt.flushAllBatches (e : Effects) {conns : List (Connection F A)} (now : ℕ)
    (refused : ℕ → Option ℕ) (hl : IdleAt l i conns) :
    IdleAt l i (flushAllBatches e conns now refused).2 := by
  have hcall : ∀ (i : ℕ) (e : Effects) (c : Connection F A),
      Idle c.link (flushLink now refused i e c).2.link := by
    intro i e c
    rw [flushLink]
    split
    · exact flushConnection_idle e c now _
    · exact .refl _
  obtain ⟨l', hl', hidle⟩ := hl
  rw [links, List.getElem?_map] at hl'
  obtain ⟨c, hc, rfl⟩ := Option.map_eq_some_iff.mp hl'
  obtain ⟨t, ht⟩ := Sweep.getElem?_run (f := flushLink now refused) (i := 0) (s := e) hc
  refine ⟨_, by rw [links, List.getElem?_map, Bond.flushAllBatches, ht]; rfl, hidle.trans (hcall _ t c)⟩

end Event

/-! A datagram passes a disabled link by. -/

section Datagram
variable [F64Exp F]

omit [F64Exp F] in
theorem forwardViaConnection_other {conns : List (Connection F A)} {i sel : ℕ} {c : Connection F A}
    (hi : i ≠ sel) (hc : conns[i]? = some c) (e : Effects) (pkt : List UInt8) (seq : Option UInt32)
    (now : ℕ) (refused : ℕ → Option ℕ) :
    (forwardViaConnection e conns sel pkt seq now refused).2[i]? = some c := by
  rw [forwardViaConnection_eq]
  cases conns[sel]? with
  | none => exact hc
  | some d => exact (List.getElem?_set_ne hi.symm).trans hc

omit [F64Exp F] in
theorem sendStallProbes_disabled {conns : List (Connection F A)} {i : ℕ} {c : Connection F A}
    (hc : conns[i]? = some c) (hdisabled : c.adminEnabled = false) (e : Effects) (sel : ℕ)
    (pkt : List UInt8) (seq : UInt32) (now : ℕ) (refused : ℕ → Option ℕ) :
    (sendStallProbes e conns sel pkt seq now refused).2[i]? = some c := by
  obtain ⟨t, ht⟩ := Sweep.getElem?_run (f := probeLink sel pkt seq now refused) (i := 0) (s := e) hc
  have hsame : (probeLink sel pkt seq now refused (0 + i) t c).2 = c := by
    rw [probeLink]
    split
    · rfl
    · rw [hdisabled]
      rfl
  rw [sendStallProbes, ht, hsame]

def ordinary (pkt : List UInt8) : Bool :=
  !((getSrtSequenceNumber pkt).isSome && isSrtDataRetransmit pkt)

theorem IdleAt.datagram {l : Link A} {i : ℕ} (b : State F A) {pkt : List UInt8} (now : ℕ)
    (refused : ℕ → Option ℕ) (hregistered : b.reg.hasConnected = true)
    (hordinary : ordinary pkt = true) (hdisabled : l.adminEnabled = false)
    (hl : IdleAt l i b.connections) :
    IdleAt l i (b.handleSrtDatagram pkt now refused).1.connections := by
  rw [ordinary, Bool.not_eq_true'] at hordinary
  have hchoose : State.chooseIdx b.connections b.lastSelected pkt now b.config =
      selectConnectionIdx b.connections b.lastSelected now b.config := by
    rw [State.chooseIdx, hordinary]
    rfl
  have hlinks := links_selectConnectionIdx b.connections b.lastSelected now b.config
  set chosen := selectConnectionIdx b.connections b.lastSelected now b.config with hchosen
  rw [IdleAt, ← hlinks] at hl
  obtain ⟨l', hl', hidle⟩ := hl
  rw [links, List.getElem?_map] at hl'
  obtain ⟨c, hc, rfl⟩ := Option.map_eq_some_iff.mp hl'
  have hcdisabled : c.adminEnabled = false := hidle.adminEnabled.trans hdisabled
  have hkept : ∀ {conns : List (Connection F A)}, conns[i]? = some c → IdleAt l i conns := fun h =>
    ⟨c.link, by rw [links, List.getElem?_map, h]; rfl, hidle⟩
  rw [State.handleSrtDatagram, hregistered, hchoose]
  split
  · obtain ⟨c', hc', hlink⟩ : ∃ c', b.connections[i]? = some c' ∧ c'.link = c.link := by
      have hsame := congrArg (·[i]?) hlinks
      rw [links, links, List.getElem?_map, List.getElem?_map, hc] at hsame
      exact Option.map_eq_some_iff.mp hsame.symm
    exact ⟨c'.link, by rw [links, List.getElem?_map, hc']; rfl, hlink ▸ hidle⟩
  · dsimp only
    split
    next hnot => exact absurd hnot Bool.false_ne_true
    next =>
      split
      next sel hsel =>
        have hother : i ≠ sel := by
          rintro rfl
          obtain ⟨c', hc', hcandidate⟩ := selectConnectionIdx_candidate hsel
          obtain rfl := Option.some_inj.mp (hc.symm.trans hc')
          rw [candidate, usable, hcdisabled] at hcandidate
          exact Bool.false_ne_true hcandidate
        have hforwarded := forwardViaConnection_other hother hc { sequence := b.sequence } pkt
          (getSrtSequenceNumber pkt) now refused
        refine hkept ?_
        dsimp only
        split
        · exact sendStallProbes_disabled hforwarded hcdisabled _ sel pkt _ now refused
        · exact hforwarded
      next => exact hkept hc

end Datagram

section Run
variable [F64Exp F] [DecidableEq A]

/-- An event that is no control message, and no datagram before the registration or again. -/
def Event.Ordinary (b : State F A) : Event A → Prop
  | .datagram pkt _ _ => b.reg.hasConnected = true ∧ ordinary pkt = true
  | .control _ _ _ => False
  | _ => True

theorem IdleAt.step {l : Link A} {i : ℕ} (b : State F A) (e : Event A) (he : e.Ordinary b)
    (hdisabled : l.adminEnabled = false) (hl : IdleAt l i b.connections) :
    IdleAt l i (b.step e).1.connections := by
  cases e with
  | datagram pkt now refused => exact hl.datagram b now refused he.1 he.2 hdisabled
  | packet connId data now => exact hl.of_steps (handleUplinkPacket_steps (n := 0) b connId data now)
  | control message opened now => exact he.elim
  | tick opened now input =>
    refine hl.of_steps (tick_steps (n := 0) b (fun hempty => ?_) False.elim now input)
    obtain ⟨l', hl', -⟩ := hl
    rw [links, List.isEmpty_iff.mp hempty] at hl'
    exact absurd hl' (Option.some_ne_none l').symm
  | flush now refused => exact hl.flushAllBatches _ now refused

/-- From any state on, a link that the operator has disabled takes no packet until the next control
message: it forgets what it sent, or has sent no more, and its queue only shrinks. -/
theorem disabled_takes_nothing (b : State F A) (es : List (Event A))
    (hes : Reactive.Along State.step (fun (b : State F A) e => e.Ordinary b) b es) {i : ℕ}
    {c : Connection F A} (hc : b.connections[i]? = some c) (hdisabled : c.adminEnabled = false) :
    ∃ c', (Reactive.exec State.step b es).connections[i]? = some c' ∧ c'.connId = c.connId ∧
      c'.adminEnabled = false ∧
      (c'.bitrate.bytesSentTotal = c.bitrate.bytesSentTotal ∨ c'.bitrate.bytesSentTotal = 0) ∧
      c'.batchSender.queue.Sublist c.batchSender.queue := by
  have hrun : ∀ b : State F A,
      Reactive.Along State.step (fun (b : State F A) e => e.Ordinary b) b es →
      IdleAt c.link i b.connections →
      IdleAt c.link i (Reactive.exec State.step b es).connections := by
    clear hes hc
    induction es with
    | nil => exact fun _ _ h => h
    | cons e es ih => exact fun b hes h => ih (b.step e).1 hes.2 (h.step b e hes.1 hdisabled)
  have hstart : IdleAt c.link i b.connections :=
    ⟨c.link, by rw [links, List.getElem?_map, hc]; rfl, .refl _⟩
  obtain ⟨l', hl', hidle⟩ := hrun b hes hstart
  rw [links, List.getElem?_map] at hl'
  obtain ⟨c', hc', rfl⟩ := Option.map_eq_some_iff.mp hl'
  exact ⟨c', hc', hidle.connId, hidle.adminEnabled.trans hdisabled, hidle.sent, hidle.queue⟩

end Run

def standby : Connection ℚ Ipv4 :=
  { registered (.newRegistering 8 wifi 1) 5 .reg3 with adminEnabled := false }

def withStandby : State ℚ Ipv4 where
  configuredLinks := [⟨1, "cellular", wan, true⟩, ⟨2, "wifi", wifi, false⟩]
  connections := [registered (.newRegistering 7 wan 1) 5 .reg3, standby]
  reg := { SrtlaRegistrationManager.new oneLink.id oneLink.probeId with hasConnected := true }
  sequence := .new
  lastSelected := none
  config := { mode := .classic }
  allFailedAt := none

theorem disabled_takes_nothing_standby :
    ∃ c', (Reactive.exec State.step withStandby
        [.datagram [0, 0, 0, 5, 1, 2, 3, 4] 10 fun _ => none]).connections[1]? = some c' ∧
      c'.connId = standby.connId ∧ c'.adminEnabled = false ∧
      (c'.bitrate.bytesSentTotal = standby.bitrate.bytesSentTotal ∨ c'.bitrate.bytesSentTotal = 0) ∧
      c'.batchSender.queue.Sublist standby.batchSender.queue :=
  disabled_takes_nothing withStandby [.datagram [0, 0, 0, 5, 1, 2, 3, 4] 10 fun _ => none]
    ⟨⟨rfl, by decide⟩, trivial⟩ rfl rfl

end Srtla.Bond
