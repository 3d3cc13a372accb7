import SrtlaOutput.Bond.Refinement

/-! The loop of the sender refines the runner that the engine is composed with: its control
messages and its retry act on the links as the runner's do, and nothing else touches them. -/

namespace Srtla.Bond
open Uplink Wire
variable {F A : Type}

def held (l : Link A) : SrtlaConnection A where
  localIp := l.localIp
  adminEnabled := l.adminEnabled

def State.runner [F64 F] (b : State F A) : EmbeddedRunner A where
  configuredLinks := b.configuredLinks
  connections := (links b.connections).map held
  started := true

def Event.drive [DecidableEq A] (r : EmbeddedRunner A) : Event A → EmbeddedRunner A
  | .control message opened _ => r.handle (fun ip => (opened ip).isSome) message
  | .tick opened _ _ => r.reconnect fun ip => (opened ip).isSome
  | _ => r

/-! Steps that the runner does not see. -/

theorem held_step {l l' : Link A} (h : l.Step l') : held l' = held l := by
  cases h <;> rfl

theorem held_flush (l : Link A) : held l.flush = held l :=
  Link.foldl_register held (fun l p => by rw [Link.register]; split <;> rfl) _ _

theorem held_ledger {w : Scope} (hquiet : ¬ w.changing) {b b' : Ledger A} (h : Ledger.Step w b b') :
    b'.links.map held = b.links.map held := by
  -- while no link comes, goes or changes hands, the runner sees the same links
  have hone : ∀ {pre post : List (Link A)} {l l' : Link A}, held l' = held l →
      (pre ++ l' :: post).map held = (pre ++ l :: post).map held := by
    intro pre post l l' hl
    rw [List.map_append, List.map_append, List.map_cons, List.map_cons, hl]
  cases h with
  | link h => exact hone (held_step h)
  | forward => exact hone rfl
  | pass => exact hone rfl
  | probe => exact hone rfl
  | flush => exact hone (held_flush _)
  | join => exact hone rfl
  | admin hchanging => exact absurd hchanging hquiet
  | acknowledge seq now =>
    refine hone ?_
    rw [Ledger.paid]
    split <;> rfl
  | recover => exact hone rfl
  | reopen => exact hone rfl
  | close hchanging => exact absurd hchanging hquiet
  | connect hchanging => exact absurd hchanging hquiet

section Quiet
variable [F64 F]

theorem runner_quiet {b b' : State F A} {n n' : ℕ × ℕ} (hlinks : b'.configuredLinks = b.configuredLinks)
    (h : Ledger.Steps ⟨False, True, False⟩ (b.ledger n) (b'.ledger n')) : b'.runner = b.runner := by
  have hheld : (b'.ledger n').links.map held = (b.ledger n).links.map held :=
    h.invariant (I := fun l => l.links.map held = (b.ledger n).links.map held)
      (fun _ _ hstep hl => (held_ledger not_false hstep).trans hl) rfl
  rw [State.runner, State.runner, hlinks]
  exact congrArg (fun held => (⟨b.configuredLinks, held, true⟩ : EmbeddedRunner A)) hheld

theorem runner_datagram {F : Type} [F64Exp F] (b : State F A) (pkt : List UInt8) (now : ℕ)
    (refused : ℕ → Option ℕ) : (b.handleSrtDatagram pkt now refused).1.runner = b.runner := by
  obtain ⟨m, -, hsteps⟩ := handleSrtDatagram_steps (w := ⟨False, True, False⟩) (n := 0) trivial b
    pkt now refused
  refine runner_quiet ?_ hsteps
  rw [State.handleSrtDatagram]
  split
  · rfl
  · dsimp only
    split <;> split <;> rfl

theorem runner_packet (b : State F A) (connId : UInt64) (data : List UInt8) (now : ℕ) :
    (b.handleUplinkPacket connId data now).1.runner = b.runner := by
  refine runner_quiet ?_ (handleUplinkPacket_steps (n := 0) b connId data now)
  rw [State.handleUplinkPacket]
  split
  · rfl
  · split
    · rfl
    · split <;> rfl

theorem runner_startProbing (b : State F A) (now : ℕ) : (b.startProbing now).1.runner = b.runner := by
  have hledger := congrArg Ledger.links (startProbing_ledger (n := 0) b now)
  exact congrArg (fun ls => (⟨b.configuredLinks, ls.map held, true⟩ : EmbeddedRunner A)) hledger

theorem runner_housekeeping (b : State F A) (now : ℕ) (input : TickInput) :
    (handleHousekeeping b now input).1.runner = b.runner := by
  refine runner_quiet ?_ (handleHousekeeping_steps (n := 0) b now input)
  have hwatch : ∀ b : State F A, (watchFailures b now input).1.configuredLinks = b.configuredLinks := by
    intro b
    rw [watchFailures]
    split
    · rfl
    · dsimp only
      split
      · split <;> rfl
      · rfl
  exact hwatch _

end Quiet

/-! Control messages and the retry. -/

section Control
variable [DecidableEq A] [F64 F]

omit [DecidableEq A] in
theorem held_links (conns : List (Connection F A)) :
    (links conns).map held = conns.map fun c => ⟨c.localIp, c.adminEnabled⟩ := by
  rw [links, List.map_map]
  rfl

omit [DecidableEq A] [F64 F] in
theorem filterMap_opened {ι β : Type} (opened : ι → Option UInt64) (g : ι → β) (items : List ι) :
    (items.filterMap fun i => (opened i).map fun _ => g i) =
      (items.filter fun i => (opened i).isSome).map g := by
  induction items with
  | nil => rfl
  | cons i items ih =>
    cases hi : opened i with
    | none =>
      rw [List.filterMap_cons_none (by rw [hi]; rfl), ih, List.filter_cons_of_neg (by simp [hi])]
    | some id =>
      rw [List.filterMap_cons_some (by rw [hi]; rfl), ih, List.filter_cons_of_pos (by simp [hi])]
      rfl

theorem held_applyConnectionChanges (conns : List (Connection F A)) (newIps : List A)
    (opened : A → Option UInt64) (now : ℕ) :
    (links (applyConnectionChanges conns newIps opened now)).map held =
      Srtla.applyConnectionChanges ((links conns).map held) newIps fun ip => (opened ip).isSome := by
  rw [held_links, held_links, applyConnectionChanges, Srtla.applyConnectionChanges, List.map_append,
    List.map_filterMap, List.map_map, List.filter_map]
  refine congrArg₂ _ rfl ?_
  simp only [Option.map_map]
  exact filterMap_opened opened (fun ip => ({ localIp := ip } : SrtlaConnection A)) _

theorem held_setAdminEnabled (configured : List (EmbeddedLink A)) (now : ℕ)
    (conns : List (Connection F A)) :
    (links (conns.map (setAdminEnabled configured now))).map held =
      Srtla.setAdminEnabled configured ((links conns).map held) := by
  rw [held_links, held_links, Srtla.setAdminEnabled, List.map_map, List.map_map]
  refine List.map_congr_left fun c _ => ?_
  rw [Function.comp_apply, Function.comp_apply, setAdminEnabled]
  cases configured.find? (·.address == c.localIp) with
  | none => rfl
  | some link =>
    have hset : (c.setAdminEnabled link.enabled now).localIp = c.localIp ∧
        (c.setAdminEnabled link.enabled now).adminEnabled = link.enabled := by
      rw [Connection.setAdminEnabled]
      cases link.enabled <;> exact ⟨rfl, rfl⟩
    dsimp only
    split
    · rw [hset.1, hset.2]
    next hsame => rw [not_not.mp hsame]

omit [DecidableEq A] in
theorem runner_localIps (b : State F A) :
    b.runner.connections.map (·.localIp) = b.connections.map (·.localIp) := by
  rw [State.runner, held_links, List.map_map]
  rfl

omit [DecidableEq A] in
theorem runner_joinLinks (b : State F A) (oldIps : List A) (isNew : Connection F A → Bool)
    (now : ℕ) : (b.joinLinks oldIps isNew now).1.runner = b.runner := by
  rw [State.joinLinks]
  split
  · exact runner_startProbing b now
  · rfl

theorem runner_changeLinks (b : State F A) (configured : List (EmbeddedLink A)) (ips : List A)
    (oldIps : List A) (isNew : Connection F A → Bool) (opened : A → Option UInt64) (now : ℕ) :
    let b' := { b with configuredLinks := configured }.changeConnections ips opened now
    ({ b' with connections := b'.connections.map (setAdminEnabled configured now) }.joinLinks
        oldIps isNew now).1.runner =
      { b.runner with
        configuredLinks := configured
        connections := Srtla.setAdminEnabled configured
          (Srtla.applyConnectionChanges b.runner.connections ips fun ip => (opened ip).isSome) } := by
  intro b'
  have hheld : (links b'.connections).map held =
      Srtla.applyConnectionChanges b.runner.connections ips fun ip => (opened ip).isSome :=
    held_applyConnectionChanges b.connections ips opened now
  rw [runner_joinLinks, State.runner, ← hheld, ← held_setAdminEnabled configured now]
  rfl

theorem runner_control (b : State F A) (opened : A → Option UInt64) (now : ℕ)
    (message : Control A) :
    (b.handleControl opened now message).1.runner =
      b.runner.handle (fun ip => (opened ip).isSome) message := by
  have hips := runner_localIps b
  cases message with
  | setLink id enabled =>
    rw [State.handleControl, EmbeddedRunner.handle, State.setLink, EmbeddedRunner.setLink, hips]
    have hconfigured : b.runner.configuredLinks = b.configuredLinks := rfl
    rw [hconfigured]
    cases b.configuredLinks.find? (·.id == id) with
    | none => rfl
    | some link =>
      dsimp only
      split
      · rfl
      · exact runner_changeLinks b _ _ _ _ opened now
  | updateLinks new =>
    rw [State.handleControl, EmbeddedRunner.handle, State.updateLinks, EmbeddedRunner.updateLinks,
      hips]
    exact runner_changeLinks b new _ _ _ opened now

theorem runner_tick (b : State F A) (opened : A → Option UInt64) (now : ℕ) (input : TickInput) :
    (b.tick opened now input).1.runner = b.runner.reconnect fun ip => (opened ip).isSome := by
  have hverdict : ∀ b : State F A, ({ b with
      connections := b.connections.map (applyVerdict input.verdict) } : State F A).runner =
      b.runner := by
    intro b
    rw [State.runner, State.runner, links_map]
    exact fun c => rfl
  have hempty : b.runner.connections.isEmpty = b.connections.isEmpty := by
    rw [State.runner, links, List.isEmpty_map, List.isEmpty_map]
  unfold State.tick State.work State.judge
  dsimp only
  rw [hverdict, runner_housekeeping, EmbeddedRunner.reconnect, hempty]
  split
  next hnone =>
    have hchange : (b.changeConnections (EmbeddedRunner.enabledIps b.configuredLinks) opened
        now).runner = { b.runner with
          connections := Srtla.applyConnectionChanges []
            (EmbeddedRunner.enabledIps b.configuredLinks) fun ip => (opened ip).isSome } := by
      have hheld := held_applyConnectionChanges b.connections
        (EmbeddedRunner.enabledIps b.configuredLinks) opened now
      rw [List.isEmpty_iff.mp hnone] at hheld
      rw [State.runner, State.changeConnections, List.isEmpty_iff.mp hnone]
      exact congrArg (fun held => (⟨b.configuredLinks, held, true⟩ : EmbeddedRunner A)) hheld
    split
    · rw [runner_startProbing]
      exact hchange
    · exact hchange
  next => rfl

end Control

/-! The run. -/

section Run
variable [F64Exp F] [DecidableEq A]

theorem runner_step (b : State F A) (e : Event A) : (b.step e).1.runner = e.drive b.runner := by
  cases e with
  | datagram pkt now refused => exact runner_datagram b pkt now refused
  | packet connId data now => exact runner_packet b connId data now
  | control message opened now => exact runner_control b opened now message
  | tick opened now input => exact runner_tick b opened now input
  | flush now refused =>
    exact runner_quiet rfl (sweep_links (w := ⟨False, True, False⟩) (n := 0) Effects.sequence
      (flushLink_moves trivial now refused) { sequence := b.sequence } b.connections)

omit [DecidableEq A] in
theorem runner_start (s : Setup A) :
    (s.start : State F A).runner =
      EmbeddedRunner.connect { configuredLinks := s.configured } fun i => (s.opened i).isSome := by
  have hconnect : (links ((EmbeddedRunner.enabledIps s.configured).zipIdx.filterMap fun ip =>
      (s.opened ip.2).map fun id => (.newRegistering id ip.1 s.now : Connection F A))).map held =
      ((EmbeddedRunner.enabledIps s.configured).zipIdx.filter fun ip => (s.opened ip.2).isSome).map
        fun ip => { localIp := ip.1 } := by
    rw [held_links, List.map_filterMap]
    simp only [Option.map_map]
    exact filterMap_opened (fun ip : A × ℕ => s.opened ip.2)
      (fun ip => ({ localIp := ip.1 } : SrtlaConnection A)) _
  have hrunner : (s.start : State F A).runner.connections =
      ((EmbeddedRunner.enabledIps s.configured).zipIdx.filter fun ip => (s.opened ip.2).isSome).map
        fun ip => { localIp := ip.1 } := by
    rw [Setup.start, State.start]
    split
    · exact hconnect
    · rw [runner_startProbing]
      exact hconnect
  have hconfigured : (s.start : State F A).configuredLinks = s.configured := by
    rw [Setup.start, State.start]
    split <;> rfl
  rw [State.runner] at hrunner ⊢
  rw [hconfigured]
  exact congrArg (fun conns => (⟨s.configured, conns, true⟩ : EmbeddedRunner A)) hrunner

/-- In every run of the loop, the links and their flags are those of the runner that opens the same
links and takes the same control messages and retries. -/
theorem run_refines (s : Setup A) (es : List (Event A)) :
    (run s es : State F A).runner =
      es.foldl Event.drive (EmbeddedRunner.connect { configuredLinks := s.configured }
        fun i => (s.opened i).isSome) := by
  have hexec : ∀ b : State F A,
      (Reactive.exec State.step b es).runner = es.foldl Event.drive b.runner := by
    induction es with
    | nil => exact fun _ => rfl
    | cons e es ih =>
      intro b
      rw [Reactive.exec, ih, runner_step, List.foldl_cons]
  rw [run, hexec, runner_start s]

end Run

end Srtla.Bond
