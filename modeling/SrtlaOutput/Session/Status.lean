import SrtlaOutput.Engine.Ipv4
import SrtlaOutput.Lib.Chain
import SrtlaOutput.Media.Output
import SrtlaOutput.Session.Sockets

/-! The order in which a session reports its statuses, from `start` to the return of `stop`. -/

namespace Srtla
open Schedule Chain

def SrtSessionStatus.precedes : SrtSessionStatus → SrtSessionStatus → Bool
  | .idle, .connecting => true
  | .connecting, .connecting | .connecting, .connected | .connecting, .fatal => true
  | .connected, .reconnecting => true
  | .reconnecting, .reconnecting | .reconnecting, .connected | .reconnecting, .fatal => true
  | .connecting, .stopped | .connected, .stopped | .reconnecting, .stopped => true
  | .fatal, .stopped => true
  | _, _ => false

abbrev SrtSessionStatus.Precedes (a b : SrtSessionStatus) : Prop := a.precedes b = true

structure StatusProtocol (log : List SrtSessionStatus) : Prop where
  first : log.head? = some .connecting
  connecting : ∀ before after, log = before ++ .connected :: after → .connecting ∉ after
  between : ∀ before mid after, log = before ++ .connected :: (mid ++ .connected :: after) →
    .reconnecting ∈ mid
  reconnecting : ∀ before after, log = before ++ .reconnecting :: after → .connected ∈ before
  fatal : ∀ before after, log = before ++ .fatal :: after → ∀ status ∈ after, status = .stopped
  last : log.getLast? = some .stopped
  stopped : ∀ before after, log = before ++ .stopped :: after → after = []

namespace SrtSessionStatus

theorem chain_tail {before after : List SrtSessionStatus} {a b : SrtSessionStatus}
    (h : (a :: (before ++ b :: after)).IsChain Precedes) : (b :: after).IsChain Precedes := by
  rw [← List.cons_append] at h
  exact (List.isChain_append.mp h).2.1

def late : SrtSessionStatus → Bool
  | .idle | .connecting => false
  | _ => true

theorem late_of_precedes (a b : SrtSessionStatus) : a.Precedes b → a.late = true → b.late = true := by
  cases a <;> cases b <;> decide

theorem not_connecting {log : List SrtSessionStatus}
    (h : (connected :: log).IsChain Precedes) : connecting ∉ log := by
  -- nothing leads back to Connecting
  intro hmem
  have hlate := h.cons_induction (·.late = true) log (fun a b => late_of_precedes a b) rfl
  cases hlate connecting hmem

theorem after_stopped {log : List SrtSessionStatus} (h : (stopped :: log).IsChain Precedes) :
    log = [] := by
  cases log with
  | nil => rfl
  | cons status log =>
    obtain ⟨hnext, -⟩ := List.isChain_cons_cons.mp h
    cases status <;> cases hnext

theorem after_fatal {log : List SrtSessionStatus} (h : (fatal :: log).IsChain Precedes) :
    ∀ status ∈ log, status = stopped := by
  cases log with
  | nil => simp
  | cons status log =>
    obtain ⟨hnext, hrest⟩ := List.isChain_cons_cons.mp h
    cases status <;> try cases hnext
    rw [after_stopped hrest]
    simp

theorem reconnecting_between {mid after : List SrtSessionStatus}
    (h : (connected :: (mid ++ connected :: after)).IsChain Precedes) : reconnecting ∈ mid := by
  cases mid with
  | nil =>
    obtain ⟨hnext, -⟩ := List.isChain_cons_cons.mp h
    cases hnext
  | cons status mid =>
    obtain ⟨hnext, hrest⟩ := List.isChain_cons_cons.mp h
    cases status <;> try cases hnext
    · exact List.mem_cons_self ..
    · -- nothing follows Stopped
      have hnil := after_stopped hrest
      simp at hnil

theorem reconnecting_only {mid after : List SrtSessionStatus} {a : SrtSessionStatus}
    (ha : a = connected ∨ a = reconnecting) (hnot : connected ∉ mid)
    (h : (a :: (mid ++ connected :: after)).IsChain Precedes) :
    ∀ status ∈ mid, status = reconnecting := by
  induction mid generalizing a with
  | nil => simp
  | cons b mid ih =>
    obtain ⟨hnext, hrest⟩ := List.isChain_cons_cons.mp h
    have hb : b = reconnecting := by
      cases b with
      | reconnecting => rfl
      | connected => exact (hnot (List.mem_cons_self ..)).elim
      | stopped =>
        have hnil := after_stopped hrest
        simp at hnil
      | fatal => cases after_fatal hrest connected (by simp)
      | idle | connecting => rcases ha with rfl | rfl <;> cases hnext
    have hmid := ih (.inr hb) (fun hmem => hnot (List.mem_cons_of_mem _ hmem)) hrest
    simpa [hb] using hmid

theorem connected_before {before after : List SrtSessionStatus} {a : SrtSessionStatus}
    (hconnected : a ≠ connected) (hreconnecting : a ≠ reconnecting)
    (h : (a :: (before ++ reconnecting :: after)).IsChain Precedes) : connected ∈ before := by
  induction before generalizing a with
  | nil =>
    obtain ⟨hnext, -⟩ := List.isChain_cons_cons.mp h
    cases a <;> cases hnext
    · exact (hconnected rfl).elim
    · exact (hreconnecting rfl).elim
  | cons b before ih =>
    obtain ⟨hnext, hrest⟩ := List.isChain_cons_cons.mp h
    by_cases hb : b = connected
    · exact hb ▸ List.mem_cons_self ..
    · apply List.mem_cons_of_mem
      apply ih hb _ hrest
      rintro rfl
      cases a <;> cases hnext
      · exact hconnected rfl
      · exact hreconnecting rfl

theorem protocol_of_chain {log : List SrtSessionStatus} (h : (idle :: log).IsChain Precedes)
    (hlast : log.getLast? = some stopped) : StatusProtocol log where
  first := by
    cases log with
    | nil => cases hlast
    | cons status log =>
      obtain ⟨hnext, -⟩ := List.isChain_cons_cons.mp h
      cases status <;> first | rfl | cases hnext
  connecting := by
    rintro before after rfl
    exact not_connecting (chain_tail h)
  between := by
    rintro before mid after rfl
    exact reconnecting_between (chain_tail h)
  reconnecting := by
    rintro before after rfl
    exact connected_before (by decide) (by decide) h
  fatal := by
    rintro before after rfl
    exact after_fatal (chain_tail h)
  last := hlast
  stopped := by
    rintro before after rfl
    exact after_stopped (chain_tail h)

end SrtSessionStatus

def OwnerPc.away : OwnerPc → Bool
  | .starting | .launching | .joined => false
  | .idle | .stopping | .joining => true

def ConnectorPc.attached : ConnectorPc → Bool
  | .watch | .unmark | .disconnected | .reportDisconnect => true
  | _ => false

/-- The way out of a connected session once `stop` is set. -/
def ConnectorPc.leaving : ConnectorPc → Bool
  | .release .dropped | .released | .test | .returned => true
  | _ => false

def ConnectorPc.failing : ConnectorPc → Bool
  | .release .leave | .returned => true
  | _ => false

/-- A connector whose session last reported `status`. -/
def Connector.Reported (c : Connector) (stop : Bool) : SrtSessionStatus → Prop
  | .connecting => c.everConnected = false ∧ c.pc.attached = false
  | .connected =>
    c.everConnected = true ∧ (c.pc.attached = true ∨ stop = true ∧ c.pc.leaving = true)
  | .reconnecting => c.everConnected = true ∧ c.pc.attached = false
  | .fatal => c.pc.failing = true
  | _ => False

def ConnectorPc.working (pc : ConnectorPc) : Bool := !pc.attached && !pc.leaving && !pc.failing

/-- A step that reports nothing leads from one to the other, with this value of `stop`. -/
def ConnectorPc.leads (stop : Bool) (pc pc' : ConnectorPc) : Bool :=
  (!pc.attached || pc'.attached || stop && pc'.leaving) && (pc.attached || !pc'.attached) &&
    (!stop || !pc.leaving || pc'.leaving) && (!pc.failing || pc'.failing)

namespace Connector
open SrtSessionStatus

variable {c c' : Connector} {stop : Bool} {status : SrtSessionStatus}

theorem Reported.of_working (h : c.Reported stop status) (hpc : c.pc.working = true) :
    status = c.retryStatus := by
  simp only [ConnectorPc.working, Bool.and_eq_true, Bool.not_eq_true'] at hpc
  obtain ⟨⟨hattached, hleaving⟩, hfailing⟩ := hpc
  cases status with
  | connecting => simp [retryStatus, h.1]
  | connected =>
    rcases h.2 with h | ⟨-, h⟩
    · rw [hattached] at h
      cases h
    · rw [hleaving] at h
      cases h
  | reconnecting => simp [retryStatus, h.1]
  | fatal =>
    have h : c.pc.failing = true := h
    rw [hfailing] at h
    cases h
  | idle | stopped => exact h.elim

theorem Reported.of_attached (h : c.Reported stop status) (hpc : c.pc.attached = true) :
    status = .connected ∧ c.everConnected = true := by
  cases status with
  | connected => exact ⟨rfl, h.1⟩
  | connecting | reconnecting =>
    have h := h.2
    rw [hpc] at h
    cases h
  | fatal =>
    have h : c.pc.failing = true := h
    cases hc : c.pc <;> simp [hc, ConnectorPc.attached, ConnectorPc.failing] at hpc h
  | idle | stopped => exact h.elim

theorem Reported.move (h : c.Reported stop status) (hever : c'.everConnected = c.everConnected)
    (hpc : c.pc.leads stop c'.pc = true) : c'.Reported stop status := by
  simp only [ConnectorPc.leads, Bool.and_eq_true, Bool.or_eq_true, Bool.not_eq_true'] at hpc
  obtain ⟨⟨⟨hattached, hdetached⟩, hleaving⟩, hfailing⟩ := hpc
  cases status with
  | connecting | reconnecting =>
    refine ⟨hever.trans h.1, hdetached.resolve_left ?_⟩
    rw [h.2]
    decide
  | connected =>
    refine ⟨hever.trans h.1, ?_⟩
    rcases h.2 with h | ⟨hstop, h⟩
    · simpa [h] using hattached
    · exact .inr ⟨hstop, by simpa [hstop, h] using hleaving⟩
  | fatal =>
    have h : c.pc.failing = true := h
    exact hfailing.resolve_left (by simp [h])
  | idle | stopped => exact h.elim

theorem Reported.requestStop (h : c.Reported stop status) : c.Reported true status := by
  cases status with
  | connected =>
    refine ⟨h.1, h.2.imp_right ?_⟩
    exact fun h => ⟨rfl, h.2⟩
  | _ => exact h

theorem Reported.precedes_stopped (h : c.Reported stop status) : status.Precedes .stopped := by
  cases status with
  | idle | stopped => exact h.elim
  | connecting | connected | reconnecting | fatal => rfl

theorem retryStatus_precedes (c : Connector) :
    c.retryStatus.Precedes c.retryStatus ∧ c.retryStatus.Precedes .connected ∧
      c.retryStatus.Precedes .fatal := by
  unfold retryStatus
  cases c.everConnected <;> decide

theorem reported_retryStatus (hpc : c.pc.attached = false) : c.Reported stop c.retryStatus := by
  unfold retryStatus
  cases hever : c.everConnected <;> exact ⟨hever, hpc⟩

end Connector

namespace SrtSession
open SrtSessionStatus

variable {s t : SrtSession} {status : SrtSessionStatus}

def Adds (s t : SrtSession) (status status' : SrtSessionStatus) : Prop :=
  (t.reports = s.reports ∧ status' = status) ∨
    ((∃ error, t.reports = s.reports ++ [(status', error)]) ∧ status.Precedes status')

def Speaks (s t : SrtSession) (status : SrtSessionStatus) : Prop :=
  ∃ c status', t.connector = some c ∧ c.Reported s.stop status' ∧ Adds s t status status'

theorem Speaks.silent {c c' : Connector} (h : c.Reported s.stop status)
    (hconnector : t.connector = some c') (hreports : t.reports = s.reports)
    (hever : c'.everConnected = c.everConnected) (hpc : c.pc.leads s.stop c'.pc = true) :
    Speaks s t status :=
  ⟨c', status, hconnector, h.move hever hpc, .inl ⟨hreports, rfl⟩⟩

theorem Speaks.report {c' : Connector} {status' : SrtSessionStatus} {error : String}
    (hconnector : t.connector = some c') (hreports : t.reports = s.reports ++ [(status', error)])
    (h : c'.Reported s.stop status') (hprecedes : status.Precedes status') : Speaks s t status :=
  ⟨c', status', hconnector, h, .inr ⟨⟨error, hreports⟩, hprecedes⟩⟩

theorem Speaks.retry {c : Connector} (h : c.Reported s.stop status) (hpc : c.pc.working = true)
    (pc : ConnectorPc) (hpc' : pc.attached = false) (error : String) :
    Speaks s ((s.setStatus c.retryStatus error).withConnector { c with pc }) status := by
  obtain rfl := h.of_working hpc
  exact .report rfl rfl (Connector.reported_retryStatus (c := { c with pc }) hpc')
    c.retryStatus_precedes.1

theorem Speaks.fatal {c : Connector} (h : c.Reported s.stop status) (hpc : c.pc.working = true)
    {pc : ConnectorPc} (hpc' : pc.failing = true) (error : String) :
    Speaks s ((s.setStatus .fatal error).withConnector { c with pc }) status := by
  obtain rfl := h.of_working hpc
  exact .report rfl rfl hpc' c.retryStatus_precedes.2.2

theorem Speaks.quiet {c c' : Connector} (h : c.Reported s.stop status)
    (hconnector : t.connector = some c') (hreports : t.reports = s.reports)
    (hever : c'.everConnected = c.everConnected)
    (hpc : (c.pc.leads true c'.pc && c.pc.leads false c'.pc) = true) : Speaks s t status := by
  obtain ⟨htrue, hfalse⟩ := Bool.and_eq_true_iff.mp hpc
  apply Speaks.silent h hconnector hreports hever
  cases s.stop with
  | true => exact htrue
  | false => exact hfalse

section Step
variable {c : Connector} {a : ConnectorAnswer} (h : c.Reported s.stop status)
include h

theorem connectorStep_speaks_resolve (hpc : c.pc = .resolve) :
    Speaks s (s.connectorStep c a) status := by
  simp only [connectorStep, hpc]
  cases a.remote with
  | some family => exact .quiet h rfl rfl rfl (by rw [hpc]; rfl)
  | none =>
    by_cases hever : c.everConnected = true
    · have hspeaks := Speaks.retry h (hpc ▸ rfl) (.pause 0) rfl "Resolving SRT receiver"
      rw [Connector.retryStatus, if_pos hever] at hspeaks
      simpa only [if_pos hever] using hspeaks
    · simp only [if_neg hever]
      exact .quiet h rfl rfl rfl (by rw [hpc]; rfl)

theorem connectorStep_speaks_setOptions {rest : List SockOption} (hpc : c.pc = .setOptions rest) :
    Speaks s (s.connectorStep c a) status := by
  cases rest with
  | nil =>
    simp only [connectorStep, hpc]
    exact .quiet h rfl rfl rfl (by rw [hpc]; rfl)
  | cons option rest =>
    simp only [connectorStep, hpc]
    split
    · exact .quiet h rfl rfl rfl (by rw [hpc]; rfl)
    · exact .fatal h (hpc ▸ rfl) rfl _

theorem connectorStep_speaks_handshake {waits : Nat} (hpc : c.pc = .handshake waits) :
    Speaks s (s.connectorStep c a) status := by
  have hretry := fun error => Speaks.retry h (hpc ▸ rfl) (.release .again) rfl error
  simp only [connectorStep, hpc]
  split
  · split
    · exact .quiet h rfl rfl rfl (by rw [hpc]; rfl)
    iterate 4 exact hretry _
    · exact .quiet h rfl rfl rfl (by rw [hpc]; rfl)
  · exact hretry _

end Step

theorem connectorStep_speaks (s : SrtSession) {c : Connector} (a : ConnectorAnswer)
    (h : c.Reported s.stop status) (hconnector : s.connector = some c) :
    Speaks s (s.connectorStep c a) status := by
  cases hpc : c.pc with
  | resolve => exact connectorStep_speaks_resolve h hpc
  | setOptions rest => exact connectorStep_speaks_setOptions h hpc
  | handshake waits => exact connectorStep_speaks_handshake h hpc
  | test | published | disconnected | released =>
    -- the only tests of `stop` that matter
    simp only [connectorStep, hpc]
    cases hstop : s.stop <;> refine .silent h rfl rfl rfl ?_ <;> rw [hpc, hstop] <;> rfl
  | createSocket =>
    simp only [connectorStep, hpc]
    cases a.socket with
    | some socket => exact .quiet h rfl rfl rfl (by rw [hpc]; rfl)
    | none => exact .fatal h (hpc ▸ rfl) rfl _
  | setExternalTransport =>
    simp only [connectorStep, hpc]
    split
    · exact .quiet h rfl rfl rfl (by rw [hpc]; rfl)
    · exact .fatal h (hpc ▸ rfl) rfl _
  | bind | connect =>
    simp only [connectorStep, hpc]
    split
    · exact .quiet h rfl rfl rfl (by rw [hpc]; rfl)
    · exact .retry h (hpc ▸ rfl) _ rfl _
  | announce =>
    simp only [connectorStep, hpc]
    obtain rfl := h.of_working (hpc ▸ rfl)
    exact .report rfl rfl ⟨rfl, .inl rfl⟩ c.retryStatus_precedes.2.1
  | reportDisconnect =>
    simp only [connectorStep, hpc]
    obtain ⟨rfl, hever⟩ := h.of_attached (hpc ▸ rfl)
    exact .report rfl rfl ⟨hever, rfl⟩ rfl
  | watch =>
    simp only [connectorStep, hpc]
    repeat' split
    all_goals exact .quiet h rfl rfl rfl (by rw [hpc]; rfl)
  | release after =>
    obtain ⟨_, _, heq⟩ := closeSocket_frame s c.socket
    simp only [connectorStep, hpc, heq]
    cases after <;> exact .quiet h rfl rfl rfl (by rw [hpc]; rfl)
  | pause waits =>
    simp only [connectorStep, hpc]
    split <;> exact .quiet h rfl rfl rfl (by rw [hpc]; rfl)
  | returned =>
    simp only [connectorStep, hpc]
    exact .quiet h hconnector rfl rfl (by rw [hpc]; rfl)
  | publish | negotiate | markConnected | unmark =>
    simp only [connectorStep, hpc]
    exact .quiet h rfl rfl rfl (by rw [hpc]; rfl)

def Stage (s : SrtSession) (status : SrtSessionStatus) : Prop :=
  match s.owner with
  | .starting => s.connector = none ∧ status = .idle
  | .launching => s.connector = none ∧ status = .connecting
  | .joined => s.connector = none ∧ status.Precedes .stopped
  | .idle | .stopping | .joining =>
    (s.connector = none ∧ status = .fatal) ∨
      ∃ c, s.connector = some c ∧ c.Reported s.stop status

structure InCycle (base : List (SrtSessionStatus × String)) (s : SrtSession)
    (log : List (SrtSessionStatus × String)) (status : SrtSessionStatus) : Prop where
  reports : s.reports = base ++ log
  chain : (idle :: log.map (·.1)).IsChain Precedes
  last : (idle :: log.map (·.1)).getLast? = some status
  stage : s.Stage status

def Cycles (base : List (SrtSessionStatus × String)) (s : SrtSession) : Prop :=
  ∃ log status, InCycle base s log status

variable {base log : List (SrtSessionStatus × String)}

theorem InCycle.silent (h : InCycle base s log status) (hreports : t.reports = s.reports)
    (hstage : t.Stage status) : Cycles base t :=
  ⟨log, status, hreports.trans h.reports, h.chain, h.last, hstage⟩

theorem InCycle.report (h : InCycle base s log status) {status' : SrtSessionStatus}
    {error : String} (hreports : t.reports = s.reports ++ [(status', error)])
    (hprecedes : status.Precedes status') (hstage : t.Stage status') :
    InCycle base t (log ++ [(status', error)]) status' := by
  have hmap : idle :: (log ++ [(status', error)]).map (·.1) =
      (idle :: log.map (·.1)) ++ [status'] := by simp
  refine ⟨?_, ?_, ?_, hstage⟩
  · rw [hreports, h.reports, List.append_assoc]
  · rw [hmap]
    apply isChain_concat h.chain
    intro last hlast
    rw [h.last] at hlast
    cases hlast
    exact hprecedes
  · rw [hmap, List.getLast?_concat]

theorem Stage.congr (h : s.Stage status) (howner : t.owner = s.owner)
    (hconnector : t.connector = s.connector) (hstop : t.stop = s.stop) : t.Stage status := by
  rw [Stage, howner, hconnector, hstop]
  exact h

theorem Stage.reported (h : s.Stage status) {c : Connector} (hconnector : s.connector = some c) :
    s.owner.away = true ∧ c.Reported s.stop status := by
  cases howner : s.owner with
  | starting | launching | joined =>
    simp only [Stage, howner] at h
    rw [hconnector] at h
    cases h.1
  | idle | stopping | joining =>
    simp only [Stage, howner] at h
    rcases h with ⟨hnone, -⟩ | ⟨c', hc', hreported⟩
    · rw [hconnector] at hnone
      cases hnone
    · obtain rfl := Option.some.inj (hconnector.symm.trans hc')
      exact ⟨rfl, hreported⟩

theorem stage_of_reported {c : Connector} (howner : s.owner.away = true)
    (hconnector : s.connector = some c) (hreported : c.Reported s.stop status) :
    s.Stage status := by
  cases hpc : s.owner <;> rw [hpc] at howner <;> try cases howner
  all_goals
    rw [Stage, hpc]
    exact .inr ⟨c, hconnector, hreported⟩

theorem Cycles.connector (h : Cycles base s) {c : Connector} (hconnector : s.connector = some c)
    (a : ConnectorAnswer) : Cycles base (s.connectorStep c a) := by
  obtain ⟨log, status, h⟩ := h
  obtain ⟨howner, hreported⟩ := h.stage.reported hconnector
  obtain ⟨c', status', hc', hreported', hadds⟩ := connectorStep_speaks s a hreported hconnector
  have hstage : (s.connectorStep c a).Stage status' := by
    obtain ⟨howner', hstop⟩ := connectorStep_frame s c a
    apply stage_of_reported (howner' ▸ howner) hc'
    rw [hstop]
    exact hreported'
  rcases hadds with ⟨hreports, rfl⟩ | ⟨⟨error, hreports⟩, hprecedes⟩
  · exact h.silent hreports hstage
  · exact ⟨_, _, h.report hreports hprecedes hstage⟩

def WithinCycle (_ : SrtSession) (l : SessionStep) : Prop := l ≠ .start ∧ l ≠ .reportStopped

theorem Cycles.next (h : Cycles base s) {l : SessionStep} (hok : s.WithinCycle l)
    (hnext : s.next l = some t) : Cycles base t := by
  obtain ⟨log, status, h⟩ := h
  have hstage := h.stage
  cases l with
  | start => exact (hok.1 rfl).elim
  | reportStopped => exact (hok.2 rfl).elim
  | connector a =>
    obtain ⟨c, hc, rfl⟩ := Option.map_eq_some_iff.mp hnext
    exact Cycles.connector ⟨log, status, h⟩ hc a
  | reportConnecting =>
    simp only [SrtSession.next] at hnext
    split_ifs at hnext with howner
    cases hnext
    simp only [Stage, howner] at hstage
    obtain ⟨hnone, rfl⟩ := hstage
    exact ⟨_, _, h.report rfl rfl ⟨hnone, rfl⟩⟩
  | launch created =>
    simp only [SrtSession.next] at hnext
    split_ifs at hnext with howner hcreated <;> cases hnext
    all_goals
      simp only [Stage, not_not.mp howner] at hstage
      obtain ⟨hnone, rfl⟩ := hstage
    · exact h.silent rfl (.inr ⟨{}, rfl, rfl, rfl⟩)
    · exact ⟨_, _, h.report rfl rfl (.inl ⟨hnone, rfl⟩)⟩
  | stop =>
    simp only [SrtSession.next] at hnext
    split_ifs at hnext with howner
    cases hnext
    simp only [Stage, howner] at hstage
    refine h.silent rfl ?_
    rcases hstage with hidle | ⟨c, hc, hreported⟩
    · exact .inl hidle
    · exact .inr ⟨c, hc, hreported.requestStop⟩
  | closeCurrent =>
    simp only [SrtSession.next] at hnext
    split_ifs at hnext with howner
    cases hnext
    simp only [Stage, howner] at hstage
    obtain ⟨_, _, heq⟩ := closeCurrentSocket_frame s
    rw [heq]
    exact h.silent rfl hstage
  | join =>
    simp only [SrtSession.next] at hnext
    split_ifs at hnext with howner
    cases hnext
    obtain ⟨hjoining, -⟩ := Bool.and_eq_true_iff.mp howner
    simp only [Stage, of_decide_eq_true hjoining] at hstage
    refine h.silent rfl ⟨rfl, ?_⟩
    rcases hstage with ⟨-, rfl⟩ | ⟨c, -, hreported⟩
    · rfl
    · exact hreported.precedes_stopped
  | beginSend | send | beginSample | sample =>
    obtain ⟨_, _, _, rfl⟩ := transmits_frame rfl hnext
    exact h.silent rfl (hstage.congr rfl rfl rfl)

theorem started_cycles {u : SrtSession} (hconnector : s.connector = none)
    (hvalid : s.settings.validEncryption = true) (hstart : s.next .start = some u) :
    Cycles s.reports u := by
  simp only [SrtSession.next, hconnector, hvalid] at hstart
  split_ifs at hstart with howner hsome hinvalid
  · cases hsome
  · cases hinvalid
  · cases hstart
    exact ⟨[], .idle, (List.append_nil _).symm, .singleton _, rfl, rfl, rfl⟩

theorem Cycles.reportStopped (h : Cycles base s) (hstop : s.next .reportStopped = some t) :
    ∃ log, t.reports = base ++ log ∧ (idle :: log.map (·.1)).IsChain Precedes ∧
      (log.map (·.1)).getLast? = some .stopped := by
  obtain ⟨log, status, h⟩ := h
  have hstage := h.stage
  simp only [SrtSession.next] at hstop
  split_ifs at hstop with howner
  cases hstop
  simp only [Stage, howner] at hstage
  obtain ⟨-, hprecedes⟩ := hstage
  have hmap : (log ++ [(SrtSessionStatus.stopped, "")]).map (·.1) = log.map (·.1) ++ [stopped] := by
    simp
  refine ⟨log ++ [(.stopped, "")], ?_, ?_, ?_⟩
  · show s.reports ++ [(.stopped, "")] = _
    rw [h.reports, List.append_assoc]
  · rw [hmap, ← List.cons_append]
    apply isChain_concat h.chain
    intro last hlast
    rw [h.last] at hlast
    cases hlast
    exact hprecedes
  · rw [hmap, List.getLast?_concat]

end SrtSession

/-- The media path's part of `on_session_status`. -/
def SrtlaOutput.onSessionStatus {τ : Type} (o : SrtlaOutput τ) (status : SrtSessionStatus) :
    SrtlaOutput τ :=
  if status = .reconnecting then { o.purge with needsMuxerReset := true } else o

/-- What `set_status` tells: the status callback, and then the engine. -/
structure SessionListener (τ F A : Type) where
  output : SrtlaOutput τ
  engine : Engine F A

namespace SessionListener
open SrtSessionStatus

variable {τ F A : Type} [F64 F]

def report (l : SessionListener τ F A) (r : SrtSessionStatus × String) : SessionListener τ F A where
  output := l.output.onSessionStatus r.1
  engine := (l.engine.setSessionState r.1.state (if r.2 = "" then none else some r.2)).1

/-- The queue is purged, and the controller has been reset since it was last connected. -/
structure Fresh (l l' : SessionListener τ F A) : Prop where
  queue : l'.output.queue = []
  queueBytes : l'.output.queueBytes = 0
  dropUntilKeyframe : l'.output.dropUntilKeyframe = true
  needsMuxerReset : l'.output.needsMuxerReset = true
  abr : l'.engine.abr = l.engine.abr.resetForBitrate l.engine.currentVideoBps
  sessionState : l'.engine.sessionState = sessionReconnecting

theorem fresh_report {l : SessionListener τ F A} (h : l.engine.sessionState = sessionConnected)
    (error : String) : Fresh l (l.report (.reconnecting, error)) := by
  have hne : l.engine.sessionState ≠ sessionReconnecting := by
    rw [h]
    decide
  refine ⟨rfl, rfl, rfl, rfl, ?_, rfl⟩
  show (if l.engine.sessionState ≠ sessionReconnecting then _ else _) = _
  rw [if_pos hne]

theorem Fresh.report {l l' : SessionListener τ F A} (h : Fresh l l') (error : String) :
    Fresh l (l'.report (.reconnecting, error)) := by
  refine ⟨rfl, rfl, rfl, rfl, ?_, rfl⟩
  show (if l'.engine.sessionState ≠ sessionReconnecting then _ else l'.engine.abr) = _
  rw [if_neg (not_not.mpr h.sessionState)]
  exact h.abr

theorem Fresh.reports {l l' : SessionListener τ F A} (h : Fresh l l')
    {reports : List (SrtSessionStatus × String)} (hall : ∀ r ∈ reports, r.1 = .reconnecting) :
    Fresh l (reports.foldl SessionListener.report l') := by
  induction reports generalizing l' with
  | nil => exact h
  | cons r reports ih =>
    obtain ⟨status, error⟩ := r
    obtain rfl : status = .reconnecting := hall _ (List.mem_cons_self ..)
    exact ih (h.report error) fun r hr => hall r (List.mem_cons_of_mem _ hr)

theorem fresh_reports {l : SessionListener τ F A} (h : l.engine.sessionState = sessionConnected)
    {reports : List (SrtSessionStatus × String)} (hne : reports ≠ [])
    (hall : ∀ r ∈ reports, r.1 = .reconnecting) :
    Fresh l (reports.foldl SessionListener.report l) := by
  obtain ⟨⟨status, error⟩, rest, rfl⟩ := List.exists_cons_of_ne_nil hne
  obtain rfl : status = .reconnecting := hall _ (List.mem_cons_self ..)
  exact (fresh_report h error).reports fun r hr => hall r (List.mem_cons_of_mem _ hr)

end SessionListener

namespace SrtSession
open SrtSessionStatus

/-- The statuses from `start` to the return of `stop`. Between two Connected, the queue was
purged and the controller reset. -/
theorem status_protocol {τ F A : Type} [F64 F] {s u v t : SrtSession} {ls : List SessionStep}
    (hconnector : s.connector = none) (hvalid : s.settings.validEncryption = true)
    (hstart : s.next .start = some u) (h : Run next WithinCycle u ls v)
    (hstop : v.next .reportStopped = some t) :
    ∃ log, t.reports = s.reports ++ log ∧ StatusProtocol (log.map (·.1)) ∧
      ∀ before a mid b after, log = before ++ (.connected, a) :: (mid ++ (.connected, b) :: after) →
        (∀ r ∈ mid, r.1 ≠ .connected) →
        ∀ l : SessionListener τ F A, l.engine.sessionState = sessionConnected →
          l.Fresh (mid.foldl SessionListener.report l) := by
  have hrun : Cycles s.reports v :=
    h.invariant (I := Cycles s.reports) (fun _ _ _ hc hok hnext => hc.next hok hnext)
      (started_cycles hconnector hvalid hstart)
  obtain ⟨log, hreports, hchain, hlast⟩ := hrun.reportStopped hstop
  refine ⟨log, hreports, protocol_of_chain hchain hlast, ?_⟩
  intro before a mid b after hsplit hmid l hl
  have hwhole : (idle :: (before.map (·.1) ++ .connected ::
      (mid.map (·.1) ++ .connected :: after.map (·.1)))).IsChain Precedes := by
    simpa [hsplit] using hchain
  have htail := chain_tail hwhole
  have hnot : .connected ∉ mid.map (·.1) := by
    intro hmem
    obtain ⟨r, hr, heq⟩ := List.mem_map.mp hmem
    exact hmid r hr heq
  apply SessionListener.fresh_reports hl
  · rintro rfl
    cases reconnecting_between htail
  · intro r hr
    exact reconnecting_only (.inl rfl) hnot htail r.1 (List.mem_map_of_mem hr)

instance (s : SrtSession) (l : SessionStep) : Decidable (s.WithinCycle l) :=
  inferInstanceAs (Decidable (_ ∧ _))

def startedSession : SrtSession := ((create plainSettings).next .start).get (by decide +kernel)

def cycledSession : SrtSession :=
  (exec (guard next WithinCycle) startedSession cycleSteps).get (by decide +kernel)

def returnedSession : SrtSession := (cycledSession.next .reportStopped).get (by decide +kernel)

theorem status_protocol_reestablished :
    returnedSession.reports =
        [(.connecting, ""), (.connected, ""), (.reconnecting, "SRT session disconnected"),
          (.connected, ""), (.stopped, "")] ∧
      ∃ log, returnedSession.reports = [] ++ log ∧ StatusProtocol (log.map (·.1)) ∧
        ∀ before a mid b after,
          log = before ++ (.connected, a) :: (mid ++ (.connected, b) :: after) →
            (∀ r ∈ mid, r.1 ≠ .connected) →
            ∀ l : SessionListener Unit ℚ Ipv4, l.engine.sessionState = sessionConnected →
              l.Fresh (mid.foldl SessionListener.report l) :=
  ⟨by decide +kernel,
    status_protocol rfl (by decide +kernel) (Option.some_get (by decide +kernel)).symm
      (Run.of_exec (Option.some_get (by decide +kernel)).symm :
        Run next WithinCycle startedSession cycleSteps cycledSession)
      (Option.some_get (by decide +kernel)).symm⟩

end SrtSession
end Srtla
