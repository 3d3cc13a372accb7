import SrtlaOutput.Session.Defs

/-! Who owns a socket of the session: from its creation to its close it is either the local
variable of the connector or the published handle, and only the latter is closed or used. -/

namespace Srtla
open Resource Schedule

/-- The connector may still have to close the socket it has published. -/
def ConnectorPc.owns : ConnectorPc → Bool
  | .test | .resolve | .createSocket | .publish | .released | .pause _ | .returned => false
  | _ => true

def ConnectorPc.quiet : ConnectorPc → Bool
  | .createSocket | .publish | .release _ => false
  | _ => true

def Connector.unpublished (c : Connector) : Option SrtSocket :=
  if c.pc = .publish then c.socket else none

namespace SrtSession

@[simp] theorem setStatus_calls (s : SrtSession) (status : SrtSessionStatus) (error : String) :
    (s.setStatus status error).calls = s.calls := rfl

@[simp] theorem setStatus_socket (s : SrtSession) (status : SrtSessionStatus) (error : String) :
    (s.setStatus status error).socket = s.socket := rfl

@[simp] theorem setStatus_connector (s : SrtSession) (status : SrtSessionStatus) (error : String) :
    (s.setStatus status error).connector = s.connector := rfl

@[simp] theorem withConnector_calls (s : SrtSession) (c : Connector) :
    (s.withConnector c).calls = s.calls := rfl

@[simp] theorem withConnector_socket (s : SrtSession) (c : Connector) :
    (s.withConnector c).socket = s.socket := rfl

@[simp] theorem withConnector_connector (s : SrtSession) (c : Connector) :
    (s.withConnector c).connector = some c := rfl

structure Keeps (s t : SrtSession) (c c' : Connector) : Prop where
  connector : t.connector = some c'
  calls : t.calls = s.calls
  socket : t.socket = s.socket
  owns : c.pc.owns = true → c'.pc.owns = true
  unpublished : c'.unpublished = none
  local_ : c'.socket = c.socket

theorem connectorStep_quiet (s : SrtSession) (c : Connector) (a : ConnectorAnswer)
    (hconnector : s.connector = some c) (h : c.pc.quiet = true) :
    ∃ c', Keeps s (s.connectorStep c a) c c' := by
  cases hpc : c.pc with
  | createSocket | publish | release =>
    rw [hpc] at h
    cases h
  | returned =>
    refine ⟨c, ?_, ?_, ?_, id, ?_, rfl⟩ <;> simp only [connectorStep, Connector.unpublished, hpc]
    · exact hconnector
    · rfl
  | test | released | resolve | pause =>
    -- nothing is owned
    have hfree : c.pc.owns = true → False := by simp [hpc, ConnectorPc.owns]
    simp only [connectorStep, hpc]
    repeat' split
    all_goals exact ⟨_, rfl, rfl, rfl, fun howns => (hfree howns).elim, rfl, rfl⟩
  | setOptions rest =>
    cases rest <;> simp only [connectorStep, hpc]
    · exact ⟨_, rfl, rfl, rfl, fun _ => rfl, rfl, rfl⟩
    · split <;> exact ⟨_, rfl, rfl, rfl, fun _ => rfl, rfl, rfl⟩
  | handshake waits =>
    simp only [connectorStep, hpc]
    repeat' split
    all_goals exact ⟨_, rfl, rfl, rfl, fun _ => rfl, rfl, rfl⟩
  | published | disconnected =>
    simp only [connectorStep, hpc]
    cases s.stop <;> exact ⟨_, rfl, rfl, rfl, fun _ => rfl, rfl, rfl⟩
  | watch =>
    simp only [connectorStep, hpc]
    repeat' split
    all_goals exact ⟨_, rfl, rfl, rfl, fun _ => rfl, rfl, rfl⟩
  | setExternalTransport | bind | connect =>
    simp only [connectorStep, hpc]
    split <;> exact ⟨_, rfl, rfl, rfl, fun _ => rfl, rfl, rfl⟩
  | negotiate | markConnected | announce | unmark | reportDisconnect =>
    simp only [connectorStep, hpc]
    exact ⟨_, rfl, rfl, rfl, fun _ => rfl, rfl, rfl⟩

def unpublished (s : SrtSession) : Option SrtSocket := s.connector.bind (·.unpublished)

/-- The sockets that are not closed are the published one and the one about to be published. A
published socket is that of the connector, which still has to close it. -/
structure Accounted (s : SrtSession) : Prop where
  disciplined : Disciplined s.calls
  held : ∀ a, held s.calls a = true ↔ s.socket = some a ∨ s.unpublished = some a
  owner : ∀ a, s.socket = some a → ∃ c, s.connector = some c ∧ c.pc.owns = true ∧ c.socket = some a

theorem create_accounted (settings : SessionSettings) : (create settings).Accounted where
  disciplined := .nil
  held := by simp [create, unpublished]
  owner := by simp [create]

variable {s t : SrtSession}

theorem Accounted.congr (h : s.Accounted) (hcalls : t.calls = s.calls)
    (hsocket : t.socket = s.socket) (hconnector : t.connector = s.connector) : t.Accounted := by
  have hunpublished : t.unpublished = s.unpublished := by
    rw [unpublished, unpublished, hconnector]
  refine ⟨hcalls ▸ h.disciplined, ?_, ?_⟩
  · intro a
    rw [hcalls, hsocket, hunpublished]
    exact h.held a
  · intro a ha
    rw [hconnector]
    exact h.owner a (hsocket ▸ ha)

theorem Accounted.socket_none (h : s.Accounted) {c : Connector} (hconnector : s.connector = some c)
    (hfree : c.pc.owns = false) : s.socket = none := by
  apply Option.eq_none_iff_forall_ne_some.mpr
  intro a ha
  obtain ⟨c', hc', howns, -⟩ := h.owner a ha
  obtain rfl : c = c' := Option.some.inj (hconnector.symm.trans hc')
  rw [hfree] at howns
  cases howns

theorem unpublished_of_connector {c : Connector} (h : s.connector = some c) :
    s.unpublished = c.unpublished := by
  rw [unpublished, h]
  rfl

theorem unpublished_of_ne {c : Connector} (h : c.pc ≠ .publish) : c.unpublished = none := if_neg h

theorem Accounted.keeps (h : s.Accounted) {c c' : Connector} (hconnector : s.connector = some c)
    (hpc : c.pc ≠ .publish) (hkeeps : Keeps s t c c') : t.Accounted := by
  have hbefore : s.unpublished = none := by
    rw [unpublished_of_connector hconnector, unpublished_of_ne hpc]
  have hafter : t.unpublished = none := by
    rw [unpublished_of_connector hkeeps.connector, hkeeps.unpublished]
  refine ⟨hkeeps.calls ▸ h.disciplined, ?_, ?_⟩
  · intro a
    rw [hkeeps.calls, hkeeps.socket, hafter, ← hbefore]
    exact h.held a
  · intro a ha
    rw [hkeeps.socket] at ha
    obtain ⟨c₀, hc₀, howns, hlocal⟩ := h.owner a ha
    obtain rfl : c = c₀ := Option.some.inj (hconnector.symm.trans hc₀)
    exact ⟨c', hkeeps.connector, hkeeps.owns howns, hkeeps.local_.trans hlocal⟩

theorem Accounted.create (h : s.Accounted) {c : Connector} (hconnector : s.connector = some c)
    (hpc : c.pc = .createSocket) {socket : SrtSocket} (hfresh : Resource.held s.calls socket = false) :
    ({ s with calls := s.calls ++ [Resource.Event.acquire socket] }.withConnector
      { c with pc := .publish, socket := some socket }).Accounted := by
  have hnone : s.socket = none := h.socket_none hconnector (hpc ▸ rfl)
  have hbefore : s.unpublished = none := by
    rw [unpublished_of_connector hconnector, unpublished_of_ne (by simp [hpc])]
  refine ⟨h.disciplined.concat hfresh, ?_, ?_⟩
  · intro a
    have hold := h.held a
    rw [hnone, hbefore] at hold
    have hold' : Resource.held s.calls a = false := by simpa using hold
    simp [withConnector, unpublished, Connector.unpublished, hnone, hold']
  · intro a ha
    rw [withConnector_socket, hnone] at ha
    cases ha

theorem Accounted.publish (h : s.Accounted) {c : Connector} (hconnector : s.connector = some c)
    (hpc : c.pc = .publish) :
    ({ s with socket := c.socket }.withConnector { c with pc := .published }).Accounted := by
  have hnone : s.socket = none := h.socket_none hconnector (hpc ▸ rfl)
  have hbefore : s.unpublished = c.socket := by
    rw [unpublished_of_connector hconnector, Connector.unpublished, if_pos hpc]
  refine ⟨h.disciplined, ?_, ?_⟩
  · intro a
    have hold := h.held a
    rw [hnone, hbefore] at hold
    simpa [withConnector, unpublished, Connector.unpublished] using hold
  · intro a ha
    exact ⟨_, rfl, rfl, ha⟩

theorem Accounted.unpublished_none (h : s.Accounted) {a : SrtSocket} (ha : s.socket = some a) :
    s.unpublished = none := by
  -- while a socket is published, none waits to be
  obtain ⟨c, hc, howns, -⟩ := h.owner a ha
  rw [unpublished_of_connector hc]
  apply unpublished_of_ne
  intro hpc
  rw [hpc] at howns
  cases howns

theorem Accounted.close (h : s.Accounted) {a : SrtSocket} (ha : s.socket = some a) :
    { s with socket := none, calls := s.calls ++ [Resource.Event.release a] }.Accounted := by
  have hheld : Resource.held s.calls a = true := (h.held a).mpr (.inl ha)
  have hbefore := h.unpublished_none ha
  refine ⟨h.disciplined.concat hheld, ?_, ?_⟩
  · intro b
    have hold := h.held b
    rw [ha, hbefore] at hold
    have hafter : { s with socket := none, calls := s.calls ++ [Resource.Event.release a] }.unpublished =
        none := hbefore
    rw [hafter, held_release]
    by_cases hab : a = b <;> simp [hab, hold]
  · intro b hb
    cases hb

theorem closeCurrentSocket_accounted (h : s.Accounted) : s.closeCurrentSocket.Accounted := by
  unfold closeCurrentSocket
  split
  · exact h
  · rename_i a ha
    exact h.close ha

theorem closeCurrentSocket_socket (s : SrtSession) : s.closeCurrentSocket.socket = none := by
  unfold closeCurrentSocket
  split
  · assumption
  · rfl

theorem closeCurrentSocket_frame (s : SrtSession) :
    ∃ socket calls, s.closeCurrentSocket = { s with socket, calls } := by
  unfold closeCurrentSocket
  split
  · exact ⟨s.socket, s.calls, rfl⟩
  · exact ⟨_, _, rfl⟩

theorem Accounted.closeSocket_eq (h : s.Accounted) {c : Connector}
    (hconnector : s.connector = some c) : s.closeSocket c.socket = s.closeCurrentSocket := by
  -- the connector closes what it has published, unless `stop` has claimed it
  cases hsocket : s.socket with
  | none =>
    rw [closeCurrentSocket, hsocket]
    cases hlocal : c.socket <;> simp [closeSocket, hsocket]
  | some a =>
    obtain ⟨c', hc', -, hlocal⟩ := h.owner a hsocket
    obtain rfl : c = c' := Option.some.inj (hconnector.symm.trans hc')
    rw [closeCurrentSocket, hsocket, hlocal]
    simp [closeSocket, hsocket]

theorem Accounted.withConnector (h : s.Accounted) (hsocket : s.socket = none)
    (hbefore : s.unpublished = none) {c : Connector} (hpc : c.pc ≠ .publish) :
    (s.withConnector c).Accounted := by
  have hafter : (s.withConnector c).unpublished = none := unpublished_of_ne hpc
  refine ⟨h.disciplined, ?_, ?_⟩
  · intro a
    rw [hafter, withConnector_calls, withConnector_socket, ← hbefore]
    exact h.held a
  · intro a ha
    rw [withConnector_socket, hsocket] at ha
    cases ha

theorem Accounted.connectorStep (h : s.Accounted) {c : Connector}
    (hconnector : s.connector = some c) {a : ConnectorAnswer}
    (hfresh : ∀ socket ∈ a.socket, Resource.held s.calls socket = false) :
    (s.connectorStep c a).Accounted := by
  cases hpc : c.pc with
  | createSocket =>
    have hnone := h.socket_none hconnector (hpc ▸ rfl)
    cases hanswer : a.socket <;> simp only [SrtSession.connectorStep, hpc, hanswer]
    case none =>
      have hbefore : s.unpublished = none := by
        rw [unpublished_of_connector hconnector, unpublished_of_ne (by simp [hpc])]
      have h' : (s.setStatus .fatal (srtError "srt_create_socket" a.detail)).Accounted :=
        h.congr rfl rfl rfl
      exact h'.withConnector hnone hbefore (by simp)
    case some socket => exact h.create hconnector hpc (hfresh socket hanswer)
  | publish =>
    simp only [SrtSession.connectorStep, hpc]
    exact h.publish hconnector hpc
  | release after =>
    have hbefore : s.closeCurrentSocket.unpublished = none := by
      obtain ⟨_, _, heq⟩ := closeCurrentSocket_frame s
      have hconnector' : s.closeCurrentSocket.connector = some c := by
        rw [heq]
        exact hconnector
      rw [unpublished_of_connector hconnector', unpublished_of_ne (by simp [hpc])]
    simp only [SrtSession.connectorStep, hpc, h.closeSocket_eq hconnector]
    apply (closeCurrentSocket_accounted h).withConnector (closeCurrentSocket_socket s) hbefore
    cases after <;> simp [Connector.again]
  | _ =>
    obtain ⟨c', hkeeps⟩ := connectorStep_quiet s c a hconnector (hpc ▸ rfl)
    exact h.keeps hconnector (by simp [hpc]) hkeeps

theorem Accounted.use (h : s.Accounted) {a : SrtSocket} (ha : s.socket = some a) (k : SrtUse) :
    { s with calls := s.calls ++ [Resource.Event.use k a] }.Accounted := by
  have hheld : Resource.held s.calls a = true := (h.held a).mpr (.inl ha)
  refine ⟨h.disciplined.concat hheld, ?_, h.owner⟩
  intro b
  rw [held_use]
  exact h.held b

def Vacant (s : SrtSession) : Prop :=
  s.owner = .starting ∨ s.owner = .launching ∨ s.owner = .joined → s.connector = none

theorem create_vacant (settings : SessionSettings) : (create settings).Vacant := fun _ => rfl

theorem Vacant.congr (h : s.Vacant) (howner : t.owner = s.owner)
    (hconnector : t.connector = s.connector) : t.Vacant := by
  rw [Vacant, howner, hconnector]
  exact h

theorem closeSocket_frame (s : SrtSession) (handle : Option SrtSocket) :
    ∃ socket calls, s.closeSocket handle = { s with socket, calls } := by
  unfold closeSocket
  repeat' split
  · exact ⟨s.socket, s.calls, rfl⟩
  · exact ⟨_, _, rfl⟩
  · exact ⟨s.socket, s.calls, rfl⟩

theorem connectorStep_frame (s : SrtSession) (c : Connector) (a : ConnectorAnswer) :
    (s.connectorStep c a).owner = s.owner ∧ (s.connectorStep c a).stop = s.stop := by
  cases hpc : c.pc with
  | release =>
    obtain ⟨_, _, heq⟩ := closeSocket_frame s c.socket
    simp only [connectorStep, hpc, heq]
    exact ⟨rfl, rfl⟩
  | setOptions rest =>
    cases rest <;> simp only [connectorStep, hpc]
    · exact ⟨rfl, rfl⟩
    · split <;> exact ⟨rfl, rfl⟩
  | returned =>
    simp only [connectorStep, hpc, and_self]
  | _ =>
    simp only [connectorStep, hpc]
    repeat' split
    all_goals exact ⟨rfl, rfl⟩

theorem sendLocked_frame (s : SrtSession) : ∃ calls, s.sendLocked = { s with calls } := by
  unfold sendLocked
  split
  · exact ⟨s.calls, rfl⟩
  · exact ⟨_, rfl⟩

theorem sampleLocked_frame (s : SrtSession) (ok : Bool) :
    ∃ calls, s.sampleLocked ok = { s with calls } := by
  unfold sampleLocked
  split
  · exact ⟨s.calls, rfl⟩
  · split <;> exact ⟨_, rfl⟩

def transmits : SessionStep → Bool
  | .beginSend | .send | .beginSample | .sample _ => true
  | _ => false

theorem transmits_frame {l : SessionStep} (hl : transmits l = true) (hnext : s.next l = some t) :
    ∃ calls sending sampling, t = { s with calls, sending, sampling } := by
  cases l with
  | beginSend | beginSample =>
    simp only [SrtSession.next] at hnext
    split_ifs at hnext <;> cases hnext <;> exact ⟨_, _, _, rfl⟩
  | send =>
    simp only [SrtSession.next] at hnext
    split_ifs at hnext
    cases hnext
    obtain ⟨calls, heq⟩ := sendLocked_frame { s with sending := s.sending - 1 }
    exact ⟨calls, _, _, heq⟩
  | sample ok =>
    simp only [SrtSession.next] at hnext
    split_ifs at hnext
    cases hnext
    obtain ⟨calls, heq⟩ := sampleLocked_frame { s with sampling := s.sampling - 1 } ok
    exact ⟨calls, _, _, heq⟩
  | _ => cases hl

theorem Vacant.next (h : s.Vacant) {l : SessionStep} (hnext : s.next l = some t) : t.Vacant := by
  cases l with
  | connector a =>
    obtain ⟨c, hc, rfl⟩ := Option.map_eq_some_iff.mp hnext
    intro howner
    rw [(connectorStep_frame s c a).1] at howner
    rw [h howner] at hc
    cases hc
  | start =>
    simp only [SrtSession.next] at hnext
    split_ifs at hnext with hidle hsome hvalid <;> cases hnext
    · exact h
    · exact h
    · exact fun _ => by simpa using hsome
  | reportConnecting =>
    simp only [SrtSession.next] at hnext
    split_ifs at hnext with howner
    cases hnext
    exact fun _ => h (.inl howner)
  | join =>
    simp only [SrtSession.next] at hnext
    split_ifs at hnext
    cases hnext
    exact fun _ => rfl
  | launch created | stop | reportStopped =>
    simp only [SrtSession.next] at hnext
    split_ifs at hnext <;> cases hnext <;> simp [Vacant, setStatus]
  | closeCurrent =>
    simp only [SrtSession.next] at hnext
    split_ifs at hnext
    cases hnext
    simp [Vacant]
  | beginSend | send | beginSample | sample =>
    obtain ⟨_, _, _, rfl⟩ := transmits_frame rfl hnext
    exact h.congr rfl rfl

theorem Accounted.sendLocked (h : s.Accounted) : s.sendLocked.Accounted := by
  unfold SrtSession.sendLocked
  split
  · exact h
  · rename_i a ha
    exact h.use ha .sendmsg

theorem Accounted.sampleLocked (h : s.Accounted) (ok : Bool) : (s.sampleLocked ok).Accounted := by
  unfold SrtSession.sampleLocked
  split
  · exact h
  · rename_i a ha
    have hstats := h.use ha .bistats
    cases ok with
    | true => exact hstats.use ha .getsockflag
    | false => exact hstats

theorem Accounted.at_rest (h : s.Accounted) (hjoinable : s.joinable = true) :
    s.socket = none ∧ s.unpublished = none := by
  -- a thread that has returned owns nothing
  cases hconnector : s.connector with
  | none =>
    refine ⟨?_, by rw [unpublished, hconnector]; rfl⟩
    apply Option.eq_none_iff_forall_ne_some.mpr
    intro a ha
    obtain ⟨c, hc, -⟩ := h.owner a ha
    rw [hconnector] at hc
    cases hc
  | some c =>
    have hpc : c.pc = .returned := by simpa [joinable, hconnector] using hjoinable
    refine ⟨h.socket_none hconnector (hpc ▸ rfl), ?_⟩
    rw [unpublished_of_connector hconnector, unpublished_of_ne (by simp [hpc])]

theorem Accounted.of_rest (h : s.Accounted) (hjoinable : s.joinable = true)
    (hcalls : t.calls = s.calls) (hsocket : t.socket = s.socket) (ht : t.unpublished = none) :
    t.Accounted := by
  obtain ⟨hnone, hbefore⟩ := h.at_rest hjoinable
  refine ⟨hcalls ▸ h.disciplined, ?_, ?_⟩
  · intro a
    rw [hcalls, hsocket, ht, ← hbefore]
    exact h.held a
  · intro a ha
    rw [hsocket, hnone] at ha
    cases ha

theorem Accounted.next (h : s.Accounted) (hvacant : s.Vacant) {l : SessionStep}
    (hok : s.FreshSockets l) (hnext : s.next l = some t) : t.Accounted := by
  cases l with
  | connector a =>
    obtain ⟨c, hc, rfl⟩ := Option.map_eq_some_iff.mp hnext
    exact h.connectorStep hc hok
  | closeCurrent =>
    simp only [SrtSession.next] at hnext
    split_ifs at hnext
    cases hnext
    exact (closeCurrentSocket_accounted h).congr rfl rfl rfl
  | launch created =>
    simp only [SrtSession.next] at hnext
    split_ifs at hnext with howner hcreated <;> cases hnext
    · have hnone := hvacant (.inr (.inl (not_not.mp howner)))
      exact h.of_rest (by simp [joinable, hnone]) rfl rfl rfl
    · exact h.congr rfl rfl rfl
  | join =>
    simp only [SrtSession.next] at hnext
    split_ifs at hnext with howner
    cases hnext
    exact h.of_rest (Bool.and_eq_true_iff.mp howner).2 rfl rfl rfl
  | send =>
    simp only [SrtSession.next] at hnext
    split_ifs at hnext
    cases hnext
    have h' : { s with sending := s.sending - 1 }.Accounted := h.congr rfl rfl rfl
    exact h'.sendLocked
  | sample ok =>
    simp only [SrtSession.next] at hnext
    split_ifs at hnext
    cases hnext
    have h' : { s with sampling := s.sampling - 1 }.Accounted := h.congr rfl rfl rfl
    exact h'.sampleLocked ok
  | start | reportConnecting | stop | reportStopped | beginSend | beginSample =>
    simp only [SrtSession.next] at hnext
    split_ifs at hnext <;> cases hnext <;> exact h.congr rfl rfl rfl

theorem run_accounted {settings : SessionSettings} {ls : List SessionStep}
    (h : Run next FreshSockets (create settings) ls t) : t.Accounted ∧ t.Vacant :=
  h.invariant (I := fun s => s.Accounted ∧ s.Vacant)
    (fun _ _ _ ⟨haccounted, hvacant⟩ hok hnext =>
      ⟨haccounted.next hvacant hok hnext, hvacant.next hnext⟩)
    ⟨create_accounted settings, create_vacant settings⟩

theorem free_of_stopped {settings : SessionSettings} {ls : List SessionStep}
    (h : Run next FreshSockets (create settings) ls t) (hlast : ls.getLast? = some .reportStopped)
    (socket : SrtSocket) : held t.calls socket = false := by
  -- at the return of `stop` there is no thread, and so no socket
  obtain ⟨ls, rfl⟩ := List.getLast?_eq_some_iff.mp hlast
  obtain ⟨s, hs, -, hnext⟩ := h.of_concat
  obtain ⟨haccounted, hvacant⟩ := run_accounted hs
  simp only [next] at hnext
  split_ifs at hnext with howner
  cases hnext
  have hnone : s.connector = none := hvacant (.inr (.inr howner))
  obtain ⟨hsocket, hunpublished⟩ := haccounted.at_rest (by simp [joinable, hnone])
  show held s.calls socket = false
  by_contra hheld
  rcases (haccounted.held socket).mp (by simpa using hheld) with hpublished | hwaiting
  · rw [hsocket] at hpublished
    cases hpublished
  · rw [hunpublished] at hwaiting
    cases hwaiting

/-- A socket is closed exactly once between its creation and the return of `stop`, and not
used after that unless it is given out anew. -/
theorem sockets_closed_once {settings : SessionSettings} {ls : List SessionStep}
    (h : Run next FreshSockets (create settings) ls t) :
    (ls.getLast? = some .reportStopped → ∀ before socket after,
      t.calls = before ++ .acquire socket :: after → returns socket after = 1) ∧
    ∀ before socket mid use after,
      t.calls = before ++ .release socket :: (mid ++ .use use socket :: after) →
        .acquire socket ∈ mid := by
  have hdisciplined := (run_accounted h).1.disciplined
  refine ⟨?_, ?_⟩
  · intro hlast before socket after hsplit
    have hfree := free_of_stopped h hlast socket
    rw [hsplit] at hdisciplined hfree
    exact hdisciplined.returned_once hfree
  · intro before socket mid use after hsplit
    rw [hsplit] at hdisciplined
    exact hdisciplined.not_used

def plainSettings : SessionSettings where
  streamId := []
  passphrase := []
  latencyMs := 2000
  pbkeylen := 16

instance (s : SrtSession) : (l : SessionStep) → Decidable (s.FreshSockets l)
  | .connector a =>
    match h : a.socket with
    | none => isTrue (by rw [FreshSockets, h]; simp)
    | some socket =>
      decidable_of_iff (held s.calls socket = false) (by rw [FreshSockets, h]; simp)
  | .start | .reportConnecting | .launch _ | .stop | .closeCurrent | .join | .reportStopped
  | .beginSend | .send | .beginSample | .sample _ => instDecidableTrue

/-- A session that loses its first socket, sends on the second and is stopped while a sender
and a sampler wait for the mutex. Both sockets have the same handle. -/
def cycleSteps : List SessionStep :=
  let step : SessionStep := .connector { remote := some .inet }
  let connected := [step, step, .connector { socket := some 7 }] ++ List.replicate 14 step
  let lost := List.replicate 6 (.connector { state := .broken }) ++ List.replicate 11 step
  [.reportConnecting, .launch true] ++ connected ++ lost ++ connected ++
    [.beginSend, .beginSend, .beginSample, .send, .stop, .closeCurrent, .send, .sample true] ++
    List.replicate 6 step ++ [.join]

def stoppedSteps : List SessionStep := .start :: (cycleSteps ++ [.reportStopped])

def stoppedSession : SrtSession :=
  (exec (guard next FreshSockets) (create plainSettings) stoppedSteps).get (by decide +kernel)

theorem sockets_closed_once_stopped :
    stoppedSession.calls =
        [.acquire 7, .release 7, .acquire 7, .use .sendmsg 7, .release 7] ∧
      (∀ before socket after, stoppedSession.calls = before ++ .acquire socket :: after →
        returns socket after = 1) ∧
      ∀ before socket mid use after,
        stoppedSession.calls = before ++ .release socket :: (mid ++ .use use socket :: after) →
          .acquire socket ∈ mid := by
  have h := sockets_closed_once (Run.of_exec (Option.some_get (by decide +kernel)).symm :
    Run next FreshSockets (create plainSettings) stoppedSteps stoppedSession)
  exact ⟨by decide +kernel, h.1 (by decide +kernel), h.2⟩

end SrtSession
end Srtla
