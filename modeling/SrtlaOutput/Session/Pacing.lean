import SrtlaOutput.Lib.Pacing
import SrtlaOutput.Session.Sockets

/-! The pace of the reconnect loop. An iteration resolves the receiver once and makes at most one
socket. Every failure is followed by a wait, but for that of a handshake. -/

namespace Srtla
open Pacing Schedule

namespace Connector

def paceEvents (c : Connector) (stop : Bool) (a : ConnectorAnswer) : List Pacing.Event :=
  match c.pc with
  | .resolve => .attempt :: if a.remote.isNone then [.failed] else []
  | .createSocket => [.acquire]
  | .bind | .connect => if a.ok then [] else [.failed]
  | .handshake waits =>
    if waits < 50 && !stop then
      match a.state with
      | .connected => []
      | .broken | .closing | .closed | .nonexist => [.failed]
      | _ => [.sleep]
    else [.failed]
  | .watch =>
    if stop then []
    else
      match a.state with
      | .broken | .closed | .nonexist => [.lost]
      | _ => [.sleep]
  | .pause waits => if waits < c.backoff * 10 && !stop then [.sleep] else []
  | _ => []

/-- The handshake fails in this step. -/
def handshakeFails (c : Connector) (a : ConnectorAnswer) : Bool :=
  match c.pc with
  | .handshake waits => waits ≥ 50 || [.broken, .closing, .closed, .nonexist].contains a.state
  | _ => false

end Connector

structure PacedSession where
  session : SrtSession
  pace : List Pacing.Event := []
  deriving DecidableEq, Repr

namespace PacedSession

def create (settings : SessionSettings) : PacedSession where
  session := .create settings

def paceEvents (t : PacedSession) : SessionStep → List Pacing.Event
  | .connector a =>
    match t.session.connector with
    | none => []
    | some c => c.paceEvents t.session.stop a
  | _ => []

def next (t : PacedSession) (l : SessionStep) : Option PacedSession :=
  (t.session.next l).map fun session => { session, pace := t.pace ++ t.paceEvents l }

def HandshakeHolds (t : PacedSession) : SessionStep → Prop
  | .connector a => ∀ c ∈ t.session.connector, c.handshakeFails a = false
  | _ => True

def Undisturbed (t : PacedSession) (l : SessionStep) : Prop := l ≠ .stop ∧ t.HandshakeHolds l

instance (t : PacedSession) (l : SessionStep) : Decidable (t.HandshakeHolds l) := by
  cases l <;> unfold HandshakeHolds <;> infer_instance

instance (t : PacedSession) (l : SessionStep) : Decidable (t.Undisturbed l) := by
  unfold Undisturbed
  infer_instance

end PacedSession

/-- The sleeps of 100 ms after a failure: one second, two, and then five each time. -/
def backoffSleeps : Nat → Nat
  | 0 => 10
  | 1 => 20
  | _ => 50

def nextDelay (p : Pacer) : Nat := backoffSleeps (p.retries.elim 0 (· + 1))

def Connector.Follows (c : Connector) (p : Pacer) : Prop :=
  match c.pc with
  | .test | .resolve =>
    p.attempting = false ∧ c.backoff * 10 = nextDelay p ∧ ∀ n ∈ p.retries, p.slept = backoffSleeps n
  | .createSocket => p.attempting = true ∧ p.acquired = false ∧ c.backoff * 10 = nextDelay p
  | .announce | .watch => p.attempting = true ∧ c.backoff = 1
  | .unmark | .disconnected | .reportDisconnect | .release .dropped | .released =>
    p = { retries := some 0 } ∧ c.backoff = 1
  | .release .pause =>
    p.attempting = false ∧ p.slept = 0 ∧ ∃ n ∈ p.retries, c.backoff * 10 = backoffSleeps n
  | .pause waits =>
    p.attempting = false ∧ p.slept = waits ∧ waits ≤ c.backoff * 10 ∧
      ∃ n ∈ p.retries, c.backoff * 10 = backoffSleeps n
  | .release .again => False
  | .release .leave | .returned => True
  | _ => p.attempting = true ∧ c.backoff * 10 = nextDelay p

theorem again_backoff {c : Connector} {n : Nat} (h : c.backoff * 10 = backoffSleeps n) :
    c.again.backoff * 10 = backoffSleeps (n + 1) := by
  show (if c.backoff = 1 then 2 else 5) * 10 = _
  match n with
  | 0 => rw [if_pos (by simp [backoffSleeps] at h; omega)]; rfl
  | 1 => rw [if_neg (by simp [backoffSleeps] at h; omega)]; rfl
  | n + 2 => rw [if_neg (by simp [backoffSleeps] at h; omega)]; rfl

theorem Connector.follows_failed {c : Connector} {p : Pacer} (hattempting : p.attempting = true)
    (hbackoff : c.backoff * 10 = nextDelay p) :
    exec (Pacer.next backoffSleeps) p [.failed] =
        some { retries := some (p.retries.elim 0 (· + 1)) } ∧
      { c with pc := .pause 0 }.Follows { retries := some (p.retries.elim 0 (· + 1)) } ∧
      { c with pc := .release .pause }.Follows { retries := some (p.retries.elim 0 (· + 1)) } := by
  -- the pacer that stands where an attempt has failed
  refine ⟨?_, ⟨rfl, rfl, Nat.zero_le _, _, rfl, hbackoff⟩, ⟨rfl, rfl, _, rfl, hbackoff⟩⟩
  simp [exec, Pacer.next, hattempting]

section Step
variable {s : SrtSession} {c : Connector} {p : Pacer} (h : c.Follows p) {a : ConnectorAnswer}

def Paces (s : SrtSession) (c : Connector) (p : Pacer) (a : ConnectorAnswer) : Prop :=
  ∃ p' c', exec (Pacer.next backoffSleeps) p (c.paceEvents s.stop a) = some p' ∧
    (s.connectorStep c a).connector = some c' ∧ c'.Follows p'

include h

theorem connectorStep_resolve (hpc : c.pc = .resolve) : Paces s c p a := by
  simp only [Connector.Follows, hpc] at h
  obtain ⟨hwaiting, hbackoff, hslept⟩ := h
  have hattempt : p.next backoffSleeps .attempt =
      some { p with attempting := true, acquired := false } := by
    simp only [Pacer.next]
    rw [if_neg]
    rw [Bool.not_eq_true, Bool.or_eq_false_iff]
    refine ⟨hwaiting, ?_⟩
    cases hretries : p.retries with
    | none => rfl
    | some n => simp [hslept n hretries]
  unfold Paces
  simp only [Connector.paceEvents, SrtSession.connectorStep, hpc, exec, hattempt, Option.bind_some]
  cases a.remote with
  | none =>
    obtain ⟨hfailed, hfollows, -⟩ := Connector.follows_failed (c := c)
      (p := { p with attempting := true, acquired := false }) rfl hbackoff
    exact ⟨_, _, hfailed, rfl, hfollows⟩
  | some family =>
    refine ⟨_, _, rfl, rfl, ?_⟩
    exact ⟨rfl, rfl, hbackoff⟩

theorem connectorStep_pause (hstop : s.stop = false) {waits : Nat} (hpc : c.pc = .pause waits) :
    Paces s c p a := by
  simp only [Connector.Follows, hpc] at h
  obtain ⟨hwaiting, hslept, hle, n, hn, hbackoff⟩ := h
  unfold Paces
  simp only [Connector.paceEvents, SrtSession.connectorStep, hpc, hstop, Bool.not_false,
    Bool.and_true, decide_eq_true_eq]
  split_ifs with hmore
  · refine ⟨_, _, rfl, rfl, hwaiting, ?_, hmore, n, hn, hbackoff⟩
    exact congrArg (· + 1) hslept
  · refine ⟨p, _, rfl, rfl, hwaiting, ?_, ?_⟩
    · rw [again_backoff hbackoff, nextDelay, Option.mem_def.mp hn]
      rfl
    · intro n' hn'
      obtain rfl := Option.mem_unique hn hn'
      omega

theorem connectorStep_createSocket (hpc : c.pc = .createSocket) : Paces s c p a := by
  simp only [Connector.Follows, hpc] at h
  obtain ⟨hattempting, hacquired, hbackoff⟩ := h
  have hacquire : p.next backoffSleeps .acquire = some { p with acquired := true } := by
    simp [Pacer.next, hattempting, hacquired]
  unfold Paces
  simp only [Connector.paceEvents, SrtSession.connectorStep, hpc, exec, hacquire, Option.bind_some]
  cases a.socket with
  | none => exact ⟨_, _, rfl, rfl, trivial⟩
  | some socket => exact ⟨_, _, rfl, rfl, hattempting, hbackoff⟩

theorem connectorStep_asked (hpc : c.pc = .bind ∨ c.pc = .connect) : Paces s c p a := by
  have hopen : p.attempting = true ∧ c.backoff * 10 = nextDelay p := by
    rcases hpc with hpc | hpc <;> simpa only [Connector.Follows, hpc] using h
  obtain ⟨hfailed, -, hfollows⟩ := Connector.follows_failed (c := c) hopen.1 hopen.2
  unfold Paces
  cases hok : a.ok with
  | true =>
    rcases hpc with hpc | hpc <;>
    · simp only [Connector.paceEvents, SrtSession.connectorStep, hpc, hok, if_true]
      exact ⟨_, _, rfl, rfl, hopen⟩
  | false =>
    rcases hpc with hpc | hpc <;>
    · simp only [Connector.paceEvents, SrtSession.connectorStep, hpc, hok, Bool.false_eq_true,
        if_false]
      exact ⟨_, _, hfailed, rfl, hfollows⟩

theorem connectorStep_handshake (hstop : s.stop = false) (hholds : c.handshakeFails a = false)
    {waits : Nat} (hpc : c.pc = .handshake waits) : Paces s c p a := by
  simp only [Connector.Follows, hpc] at h
  simp only [Connector.handshakeFails, hpc, Bool.or_eq_false_iff, decide_eq_false_iff_not,
    Nat.not_le] at hholds
  obtain ⟨hmore, hstate⟩ := hholds
  unfold Paces
  simp only [Connector.paceEvents, SrtSession.connectorStep, hpc, hstop, hmore, decide_true,
    Bool.not_false, Bool.and_self, if_true]
  cases hanswer : a.state with
  | broken | closing | closed | nonexist => rw [hanswer] at hstate; cases hstate
  | connected => exact ⟨_, _, rfl, rfl, h⟩
  | _ => exact ⟨_, _, rfl, rfl, h⟩

theorem connectorStep_watch (hstop : s.stop = false) (hpc : c.pc = .watch) : Paces s c p a := by
  simp only [Connector.Follows, hpc] at h
  obtain ⟨hattempting, hbackoff⟩ := h
  have hlost : exec (Pacer.next backoffSleeps) p [.lost] = some { retries := some 0 } := by
    simp [exec, Pacer.next, hattempting]
  unfold Paces
  simp only [Connector.paceEvents, SrtSession.connectorStep, hpc, hstop, Bool.false_eq_true, if_false]
  cases a.state with
  | broken | closed | nonexist => exact ⟨_, _, hlost, rfl, rfl, hbackoff⟩
  | _ => exact ⟨_, _, rfl, rfl, hattempting, hbackoff⟩

end Step

theorem connectorStep_follows {s : SrtSession} {c : Connector} {p : Pacer} (h : c.Follows p)
    (hconnector : s.connector = some c) (hstop : s.stop = false) {a : ConnectorAnswer}
    (hholds : c.handshakeFails a = false) : Paces s c p a := by
  cases hpc : c.pc with
  | resolve => exact connectorStep_resolve h hpc
  | createSocket => exact connectorStep_createSocket h hpc
  | bind => exact connectorStep_asked h (.inl hpc)
  | connect => exact connectorStep_asked h (.inr hpc)
  | handshake waits => exact connectorStep_handshake h hstop hholds hpc
  | watch => exact connectorStep_watch h hstop hpc
  | pause waits => exact connectorStep_pause h hstop hpc
  | returned =>
    refine ⟨p, c, ?_, ?_, h⟩
    · simp only [Connector.paceEvents, hpc]
      rfl
    · simpa only [SrtSession.connectorStep, hpc] using hconnector
  | setOptions rest =>
    simp only [Connector.Follows, hpc] at h
    unfold Paces
    simp only [Connector.paceEvents, hpc]
    cases rest with
    | nil =>
      simp only [SrtSession.connectorStep, hpc]
      exact ⟨_, _, rfl, rfl, h⟩
    | cons option rest =>
      simp only [SrtSession.connectorStep, hpc]
      split_ifs
      · exact ⟨_, _, rfl, rfl, h⟩
      · exact ⟨_, _, rfl, rfl, trivial⟩
  | setExternalTransport =>
    simp only [Connector.Follows, hpc] at h
    unfold Paces
    simp only [Connector.paceEvents, SrtSession.connectorStep, hpc]
    split_ifs
    · exact ⟨_, _, rfl, rfl, h⟩
    · exact ⟨_, _, rfl, rfl, trivial⟩
  | release after =>
    unfold Paces
    simp only [Connector.paceEvents, SrtSession.connectorStep, hpc]
    cases after with
    | leave => exact ⟨_, _, rfl, rfl, trivial⟩
    | again =>
      simp only [Connector.Follows, hpc] at h
    | pause =>
      simp only [Connector.Follows, hpc] at h
      obtain ⟨hwaiting, hslept, hdelay⟩ := h
      exact ⟨_, _, rfl, rfl, hwaiting, hslept, Nat.zero_le _, hdelay⟩
    | dropped =>
      simp only [Connector.Follows, hpc] at h
      exact ⟨_, _, rfl, rfl, h⟩
  | released =>
    simp only [Connector.Follows, hpc] at h
    obtain ⟨rfl, hbackoff⟩ := h
    unfold Paces
    simp only [Connector.paceEvents, SrtSession.connectorStep, hpc, hstop, Bool.false_eq_true,
      if_false]
    refine ⟨_, _, rfl, rfl, rfl, rfl, Nat.zero_le _, 0, rfl, ?_⟩
    show c.backoff * 10 = 10
    rw [hbackoff]
  | markConnected =>
    simp only [Connector.Follows, hpc] at h
    unfold Paces
    simp only [Connector.paceEvents, SrtSession.connectorStep, hpc]
    exact ⟨_, _, rfl, rfl, h.1, rfl⟩
  | test | publish | published | negotiate | announce | unmark | disconnected | reportDisconnect =>
    simp only [Connector.Follows, hpc] at h
    unfold Paces
    simp only [Connector.paceEvents, SrtSession.connectorStep, hpc, hstop, Bool.false_eq_true,
      if_false]
    exact ⟨_, _, rfl, rfl, h⟩

namespace SrtSession

structure Unstopped (s : SrtSession) : Prop where
  vacant : s.Vacant
  owner : s.owner = .idle ∨ s.owner = .starting ∨ s.owner = .launching
  stop : s.connector.isSome ∨ s.owner ≠ .idle → s.stop = false

theorem create_unstopped (settings : SessionSettings) : (create settings).Unstopped :=
  ⟨create_vacant settings, .inl rfl, fun _ => rfl⟩

theorem Unstopped.others {s t : SrtSession} {l : SessionStep} (h : s.Unstopped)
    (hstop : l ≠ .stop) (hother : ∀ a, l ≠ .connector a) (hnext : s.next l = some t) :
    (t.owner = .idle ∨ t.owner = .starting ∨ t.owner = .launching) ∧
      (t.connector.isSome ∨ t.owner ≠ .idle → t.stop = false) ∧
      (t.connector = s.connector ∨ s.connector = none ∧ t.connector = some {}) := by
  have howner := h.owner
  cases l with
  | connector a => exact absurd rfl (hother a)
  | stop => exact absurd rfl hstop
  | start =>
    simp only [SrtSession.next] at hnext
    split_ifs at hnext with hidle hsome hvalid <;> obtain rfl := Option.some.inj hnext
    · exact ⟨howner, h.stop, .inl rfl⟩
    · exact ⟨howner, h.stop, .inl rfl⟩
    · exact ⟨.inr (.inl rfl), fun _ => rfl, .inl rfl⟩
  | reportConnecting =>
    simp only [SrtSession.next] at hnext
    split_ifs at hnext with hstarting
    obtain rfl := Option.some.inj hnext
    refine ⟨.inr (.inr rfl), fun _ => h.stop (.inr ?_), .inl rfl⟩
    rw [hstarting]
    decide
  | launch created =>
    simp only [SrtSession.next] at hnext
    split_ifs at hnext with hlaunching hcreated
    all_goals
      obtain rfl := Option.some.inj hnext
      have hlaunching := not_not.mp hlaunching
      have hnone := h.vacant (.inr (.inl hlaunching))
    · refine ⟨.inl rfl, fun _ => h.stop (.inr ?_), .inr ⟨hnone, rfl⟩⟩
      rw [hlaunching]
      decide
    · refine ⟨.inl rfl, fun hbusy => ?_, .inl rfl⟩
      rcases hbusy with hsome | hbusy
      · rw [show _ = none from hnone] at hsome
        cases hsome
      · exact absurd rfl hbusy
  | closeCurrent | join | reportStopped =>
    -- these are for an owner that stops the session
    simp only [SrtSession.next] at hnext
    rcases howner with howner | howner | howner <;> simp [howner] at hnext
  | beginSend | send | beginSample | sample =>
    obtain ⟨_, _, _, rfl⟩ := transmits_frame rfl hnext
    exact ⟨howner, h.stop, .inl rfl⟩

end SrtSession

namespace PacedSession

/-- The log is one of a pacer, and the connector stands where the pacer does. -/
structure Followed (t : PacedSession) : Prop where
  unstopped : t.session.Unstopped
  pacer : ∃ p, exec (Pacer.next backoffSleeps) {} t.pace = some p ∧
    (t.session.connector = none → p = {}) ∧ ∀ c ∈ t.session.connector, c.Follows p

theorem Followed.connector {t : PacedSession} (h : t.Followed) {a : ConnectorAnswer}
    {c : Connector} (hc : t.session.connector = some c) (hholds : c.handshakeFails a = false)
    {pace : List Pacing.Event} (hpace : pace = t.pace ++ c.paceEvents t.session.stop a) :
    Followed { session := t.session.connectorStep c a, pace } := by
  obtain ⟨p, hp, -, hfollows⟩ := h.pacer
  have hstop := h.unstopped.stop (.inl (by rw [hc]; rfl))
  obtain ⟨hownerEq, hstopEq⟩ := SrtSession.connectorStep_frame t.session c a
  obtain ⟨p', c', hexec, hc', hfollows'⟩ := connectorStep_follows (hfollows c hc) hc hstop hholds
  refine ⟨⟨?_, ?_, fun _ => hstopEq.trans hstop⟩, p', ?_, ?_, ?_⟩
  · exact h.unstopped.vacant.next (l := .connector a) (by simp [SrtSession.next, hc])
  · rw [hownerEq]
    exact h.unstopped.owner
  · rw [hpace, exec_append, hp]
    exact hexec
  · intro hnone
    rw [hc'] at hnone
    cases hnone
  · intro c'' hc''
    rw [hc'] at hc''
    obtain rfl := Option.some.inj hc''
    exact hfollows'

theorem Followed.next {t u : PacedSession} {l : SessionStep} (h : t.Followed)
    (hok : t.Undisturbed l) (hnext : t.next l = some u) : u.Followed := by
  obtain ⟨session, hsession, rfl⟩ := Option.map_eq_some_iff.mp hnext
  by_cases hl : ∃ a, l = .connector a
  · obtain ⟨a, rfl⟩ := hl
    obtain ⟨c, hc, rfl⟩ := Option.map_eq_some_iff.mp hsession
    apply h.connector hc (hok.2 c hc)
    simp only [paceEvents, hc]
  · have hother : ∀ a, l ≠ .connector a := fun a ha => hl ⟨a, ha⟩
    have hevents : t.paceEvents l = [] := by
      cases l with
      | connector a => exact absurd rfl (hother a)
      | _ => rfl
    obtain ⟨howner, hstop, hconnector⟩ := h.unstopped.others hok.1 hother hsession
    obtain ⟨p, hp, hfresh, hfollows⟩ := h.pacer
    refine ⟨⟨h.unstopped.vacant.next hsession, howner, hstop⟩, p, ?_, ?_, ?_⟩
    · rw [hevents, List.append_nil]
      exact hp
    · intro hnone
      rcases hconnector with heq | ⟨-, hsome⟩
      · exact hfresh (heq.symm.trans hnone)
      · rw [hnone] at hsome
        cases hsome
    · intro c hc
      rcases hconnector with heq | ⟨hnone, hsome⟩
      · exact hfollows c (heq.symm.trans hc)
      · -- the thread that has just been started
        rw [hsome] at hc
        obtain rfl := Option.some.inj hc
        obtain rfl := hfresh hnone
        exact ⟨rfl, rfl, fun n hn => by cases hn⟩

/-- Without a request to stop and without a handshake that fails, the loop keeps its pace. -/
theorem reconnect_paced {settings : SessionSettings} {ls : List SessionStep} {t : PacedSession}
    (hrun : Run next Undisturbed (create settings) ls t) : Paced backoffSleeps 10 t.pace := by
  have hfollowed : t.Followed := by
    apply hrun.invariant (I := Followed)
    · intro s l u hs hok hnext
      exact hs.next hok hnext
    · exact ⟨SrtSession.create_unstopped settings, {}, rfl, fun _ => rfl, fun c hc => by cases hc⟩
  obtain ⟨p, hp, -⟩ := hfollowed.pacer
  apply paced_of_exec _ hp
  intro n
  match n with
  | 0 => decide
  | 1 => decide
  | n + 2 => exact Nat.le_of_ble_eq_true rfl

def startSteps : List SessionStep := [.start, .reportConnecting, .launch true]

def resolvedStep : SessionStep := .connector { remote := some .inet }

def unresolvedSteps : List SessionStep :=
  startSteps ++ [resolvedStep, .connector {}] ++ List.replicate 13 resolvedStep

theorem reconnect_paced_unresolved :
    Paced backoffSleeps 10 ((exec (guard next Undisturbed) (create SrtSession.plainSettings)
      unresolvedSteps).get (by decide +kernel)).pace :=
  reconnect_paced (.of_exec (Option.some_get _).symm)

/-- A receiver that breaks the handshake off at once, twice. -/
def brokenSteps : List SessionStep :=
  let attempt := [resolvedStep, resolvedStep, .connector { socket := some 7 }]
  startSteps ++ attempt ++ List.replicate 10 resolvedStep ++
    [.connector { state := .broken }, resolvedStep] ++ attempt

/-- The loop makes the second socket without a sleep after the first one. -/
theorem reconnect_unpaced :
    (∀ l ∈ brokenSteps, l ≠ .stop) ∧
      (exec next (create SrtSession.plainSettings) brokenSteps).map (·.pace) =
        some [.attempt, .acquire, .failed, .attempt, .acquire] ∧
      ¬ Paced backoffSleeps 10 [.attempt, .acquire, .failed, .attempt, .acquire] := by
  refine ⟨by decide, by decide +kernel, fun h => ?_⟩
  exact absurd (h.acquisitions [.attempt] [.failed, .attempt] [] rfl) (by decide)

end PacedSession

end Srtla
