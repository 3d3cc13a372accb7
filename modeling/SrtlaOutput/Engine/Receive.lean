import SrtlaOutput.Engine.Ipv4
import SrtlaOutput.Engine.Range
import SrtlaOutput.Lib.Fifo

/-! Receiving with a buffer that may be too small. Without a runner the call looks at
the front of its queue before it takes it; with one it takes the datagram first and
then finds that it does not fit. -/

namespace Srtla
open Abr FirstMatch
variable {F A : Type}

namespace Engine

def pending (e : Engine F A) : List (List UInt8) :=
  match e.runner with
  | none => e.output.queue
  | some runner => runner.output

/-- The call takes the front datagram from the runner and cannot hand it out. -/
def DropsFront (e : Engine F A) (capacity : Nat) : Prop :=
  capacity ≠ 0 ∧ e.running = true ∧
    ∃ runner packet, e.runner = some runner ∧ packet ∈ runner.output.head? ∧
      capacity < packet.length

/-- After a receive that found the buffer too small, the front datagram still waits, and
a receive with enough room returns it. -/
def StillPending (e : Engine F A) (capacity : Nat) : Prop :=
  (e.receiveSrtDatagram capacity).2.1 = -3 →
    ∃ packet rest, e.pending = packet :: rest ∧
      (e.receiveSrtDatagram capacity).1.pending = packet :: rest ∧
      ∀ enough, packet.length ≤ enough →
        ((e.receiveSrtDatagram capacity).1.receiveSrtDatagram enough).2 =
          ((packet.length : Int), packet)

theorem receiveSrtDatagram_cases (e : Engine F A) (capacity : Nat) :
    ((e.receiveSrtDatagram capacity).1.pending = e.pending ∧
      ((e.receiveSrtDatagram capacity).2 = (-1, []) ∨
        (e.receiveSrtDatagram capacity).2 = (0, [])) ∧
      (capacity = 0 ∨ e.running = false ∨ e.pending = [])) ∨
    (∃ packet rest, e.pending = packet :: rest ∧ capacity ≠ 0 ∧ e.running = true ∧
      ((packet.length ≤ capacity ∧
          (e.receiveSrtDatagram capacity).1.pending = rest ∧
          (e.receiveSrtDatagram capacity).2 = ((packet.length : Int), packet)) ∨
        (capacity < packet.length ∧ (e.receiveSrtDatagram capacity).2 = (-3, []) ∧
          (e.receiveSrtDatagram capacity).1.pending =
            if e.runner.isSome then rest else packet :: rest))) := by
  unfold receiveSrtDatagram
  by_cases hcapacity : capacity = 0
  · rw [if_pos hcapacity]
    exact .inl ⟨rfl, .inl rfl, .inl hcapacity⟩
  rw [if_neg hcapacity]
  cases hrunning : e.running with
  | false => exact .inl ⟨rfl, .inr rfl, .inr (.inl rfl)⟩
  | true =>
    simp only [Bool.not_true, Bool.false_eq_true, if_false]
    rcases hrunner : e.runner with _ | runner
    · -- the engine's own queue: the length is tested before the pop
      rcases hqueue : e.output.queue with _ | ⟨packet, rest⟩
      · refine .inl ⟨?_, .inr ?_, .inr (.inr ?_)⟩ <;>
          simp [pending, hrunner, hqueue, DatagramQueue.pop, deliver]
      · refine .inr ⟨packet, rest, by simp [pending, hrunner, hqueue], hcapacity, trivial, ?_⟩
        rcases Nat.lt_or_ge capacity packet.length with hlong | hfits
        · exact .inr ⟨hlong, by simp [hlong], by simp [pending, hqueue, hlong]⟩
        · have hfits' : ¬packet.length > capacity := Nat.not_lt.mpr hfits
          refine .inl ⟨hfits, ?_, ?_⟩ <;>
            simp [pending, hqueue, DatagramQueue.pop, deliver, hfits']
    · -- the runner's queue: the datagram is taken before its length is known
      rcases houtput : runner.output with _ | ⟨packet, rest⟩
      · refine .inl ⟨?_, .inr ?_, .inr (.inr ?_)⟩ <;>
          simp [pending, hrunner, houtput, EmbeddedSender.receive, deliver]
      · refine .inr ⟨packet, rest, by simp [pending, hrunner, houtput], hcapacity, trivial, ?_⟩
        rcases Nat.lt_or_ge capacity packet.length with hlong | hfits
        · refine .inr ⟨hlong, ?_, ?_⟩ <;>
            simp [pending, houtput, EmbeddedSender.receive, deliver, hlong]
        · have hfits' : ¬packet.length > capacity := Nat.not_lt.mpr hfits
          refine .inl ⟨hfits, ?_, ?_⟩ <;>
            simp [pending, houtput, EmbeddedSender.receive, deliver, hfits']

theorem dropsFront_iff {e : Engine F A} {packet : List UInt8} {rest : List (List UInt8)}
    (h : e.pending = packet :: rest) (capacity : Nat) :
    e.DropsFront capacity ↔
      capacity ≠ 0 ∧ e.running = true ∧ e.runner.isSome = true ∧ capacity < packet.length := by
  rcases hrunner : e.runner with _ | runner
  · simp [DropsFront, hrunner]
  · have houtput : runner.output = packet :: rest := by simpa [pending, hrunner] using h
    simp [DropsFront, hrunner, houtput]

theorem DropsFront.pending_ne {e : Engine F A} {capacity : Nat} (h : e.DropsFront capacity) :
    e.pending ≠ [] := by
  obtain ⟨_, _, runner, packet, hrunner, hfront, _⟩ := h
  intro hnil
  have houtput : runner.output = [] := by simpa [pending, hrunner] using hnil
  simp [houtput] at hfront

theorem receive_of_dropsFront {e : Engine F A} {capacity : Nat} (h : e.DropsFront capacity) :
    ∃ packet rest, e.pending = packet :: rest ∧ capacity < packet.length ∧
      (e.receiveSrtDatagram capacity).2 = (-3, []) ∧
      (e.receiveSrtDatagram capacity).1.pending = rest := by
  -- exactly where the front is dropped, a receive reports a short buffer and the front is gone
  rcases e.receiveSrtDatagram_cases capacity with
    ⟨_, _, hnone⟩ | ⟨packet, rest, hqueue, _, _, ⟨hfits, _⟩ | ⟨hlong, hcode, hafter⟩⟩
  · simp [h.1, h.2.1, h.pending_ne] at hnone
  · have hlong := ((dropsFront_iff hqueue capacity).mp h).2.2.2
    omega
  · have hrunner := ((dropsFront_iff hqueue capacity).mp h).2.2.1
    rw [hrunner, if_pos rfl] at hafter
    exact ⟨packet, rest, hqueue, hlong, hcode, hafter⟩

theorem stillPending_iff (e : Engine F A) (capacity : Nat) :
    e.StillPending capacity ↔ ¬e.DropsFront capacity := by
  constructor
  · intro hstill hdrop
    obtain ⟨packet, rest, hqueue, _, hcode, hafter⟩ := receive_of_dropsFront hdrop
    obtain ⟨_, _, hbefore, hkept, _⟩ := hstill (congrArg Prod.fst hcode)
    rw [← hbefore, hqueue, hafter] at hkept
    exact absurd (congrArg List.length hkept) (by simp)
  · intro hkeeps hcode
    rcases e.receiveSrtDatagram_cases capacity with
      ⟨_, hnone | hnone, _⟩ | ⟨packet, rest, hqueue, hcapacity, hrunning,
        ⟨_, _, htaken⟩ | ⟨hlong, _, hafter⟩⟩
    · simp [hnone] at hcode
    · simp [hnone] at hcode
    · rw [htaken] at hcode
      have hlength : ((packet.length : Nat) : Int) = -3 := hcode
      omega
    · have hrunner : ¬e.runner.isSome = true := fun hsome =>
        hkeeps ((dropsFront_iff hqueue capacity).mpr ⟨hcapacity, hrunning, hsome, hlong⟩)
      rw [if_neg hrunner] at hafter
      refine ⟨packet, rest, hqueue, hafter, fun enough henough => ?_⟩
      have hstill := (receiveSrtDatagram_peripheral e capacity).running
      rcases (e.receiveSrtDatagram capacity).1.receiveSrtDatagram_cases enough with
        ⟨_, _, hnone⟩ | ⟨packet', rest', hqueue', _, _, ⟨_, _, htaken⟩ | ⟨hlong', _⟩⟩
      · simp only [hafter, hstill, hrunning, List.cons_ne_nil, Bool.true_eq_false, or_false] at hnone
        omega
      · obtain ⟨rfl, _⟩ := List.cons.inj (hafter.symm.trans hqueue')
        exact htaken
      · obtain ⟨rfl, _⟩ := List.cons.inj (hafter.symm.trans hqueue')
        omega

/-! A series of calls. An empty datagram cannot be told from no datagram by the caller of
the receive, so it is left out. -/

def filled (packets : List (List UInt8)) : List (List UInt8) := packets.filter (· ≠ [])

theorem filled_cons {packet : List UInt8} (h : packet ≠ []) (rest : List (List UInt8)) :
    filled (packet :: rest) = packet :: filled rest := List.filter_cons_of_pos (by simp [h])

def deliveredBy : Reply → List (List UInt8)
  | .received code bytes => if 0 < code then [bytes] else []
  | _ => []

def offeredBy (e : Engine F A) : Input F A → List (List UInt8)
  | .runner (.produce packet) => if e.runner.isSome then [packet] else []
  | _ => []

def StartsOrStops : Input F A → Prop
  | .start | .stop => True
  | _ => False

def Drops (e : Engine F A) : Input F A → Prop
  | .receiveSrtDatagram capacity => e.DropsFront capacity
  | _ => False

/-- The queues as two states of one session may share them. -/
structure SameQueues (e e' : Engine F A) : Prop where
  output : e'.output = e.output
  pending : e'.pending = e.pending

theorem SameQueues.trans {e e' e'' : Engine F A} (h : SameQueues e e') (h' : SameQueues e' e'') :
    SameQueues e e'' := ⟨h'.output.trans h.output, h'.pending.trans h.pending⟩

theorem submitSrtDatagram_sameQueues (e : Engine F A) (data : List UInt8) :
    SameQueues e (e.submitSrtDatagram data).1 := by
  unfold submitSrtDatagram
  split
  · exact ⟨rfl, rfl⟩
  split
  · exact ⟨rfl, rfl⟩
  rcases hrunner : e.runner with _ | runner
  · dsimp only
    split_ifs <;> exact ⟨rfl, by simp [Engine.pending, hrunner]⟩
  · have houtput : (runner.submit data).1.output = runner.output := by
      unfold EmbeddedSender.submit
      split_ifs <;> rfl
    dsimp only
    rcases (runner.submit data).2 with (_ | _) | _ <;>
      exact ⟨rfl, by simp [Engine.pending, submitResult, hrunner, houtput]⟩

theorem tellRunner_sameQueues (e : Engine F A)
    {send : EmbeddedSender F A → EmbeddedSender F A × Bool}
    (hsend : ∀ r, (send r).1.output = r.output) (backpressure : String) :
    SameQueues e (e.tellRunner send backpressure).1 := by
  unfold tellRunner
  rcases hrunner : e.runner with _ | runner
  · exact ⟨rfl, rfl⟩
  · dsimp only
    split_ifs <;> exact ⟨rfl, by simp [Engine.pending, hrunner, hsend]⟩

theorem trySend_output (r : EmbeddedSender F A) (message : Control A) :
    (r.trySend message).1.output = r.output := by
  unfold EmbeddedSender.trySend
  split_ifs <;> rfl

section Addresses
variable [IpAddr A]

theorem ensureRunner_sameQueues {e : Engine F A} (h : e.output.queue = []) :
    SameQueues e e.ensureRunner := by
  unfold ensureRunner
  split_ifs with hwants
  · have hnone : e.runner = none := by
      have hparts := (Bool.and_eq_true_iff.mp hwants).2
      exact Option.isNone_iff_eq_none.mp (Bool.and_eq_true_iff.mp hparts).1
    exact ⟨rfl, by simp [Engine.pending, startRunner, EmbeddedSender.start, hnone, h]⟩
  · exact ⟨rfl, rfl⟩

theorem setLinkEnabled_sameQueues {e : Engine F A} (h : e.output.queue = []) (linkId : UInt64)
    (enabled : Bool) : SameQueues e (e.setLinkEnabled linkId enabled).1 := by
  unfold setLinkEnabled
  dsimp only
  split_ifs
  · exact ⟨rfl, rfl⟩
  · exact ⟨rfl, rfl⟩
  · have hlinks : SameQueues e
        (e.withLinks (modifyFirst (·.id == linkId) (toggleLink enabled) e.config.links)) :=
      ⟨rfl, rfl⟩
    exact (hlinks.trans (ensureRunner_sameQueues h)).trans
      (tellRunner_sameQueues _ (fun r => trySend_output r _) _)

theorem updateAdapters_sameQueues {e : Engine F A} (h : e.output.queue = [])
    (adapters : JsonArg EngineLinkConfig) : SameQueues e (e.updateAdapters adapters).1 := by
  have hreplace (links : List EngineLinkConfig) : SameQueues e (e.replaceLinks links).1 := by
    have hlinks : SameQueues e (e.withLinks (links.map (carryChoice e.config.links))) := ⟨rfl, rfl⟩
    exact (hlinks.trans (ensureRunner_sameQueues h)).trans
      (tellRunner_sameQueues _ (fun r => trySend_output r _) _)
  cases adapters with
  | null => exact ⟨rfl, rfl⟩
  | invalid => exact ⟨rfl, rfl⟩
  | array links => exact hreplace links
  | object config => exact hreplace config.links

end Addresses

variable [F64 F] [IpAddr A]

theorem syncRunnerStats_sameQueues (e : Engine F A) : SameQueues e e.syncRunnerStats := by
  unfold syncRunnerStats
  cases e.runner.bind (·.stats) with
  | none => exact ⟨rfl, rfl⟩
  | some stats => exact ⟨rfl, rfl⟩

theorem step_sameQueues {e : Engine F A} (h : e.output.queue = []) {i : Input F A}
    (hother : ¬StartsOrStops i) (hreceive : ∀ capacity, i ≠ .receiveSrtDatagram capacity)
    (hproduce : ∀ packet, i ≠ .runner (.produce packet)) : SameQueues e (e.step i).1 := by
  -- only a receive takes from the queues, and only the runner adds to them
  cases i with
  | start => exact absurd trivial hother
  | stop => exact absurd trivial hother
  | submitSrtDatagram data => exact submitSrtDatagram_sameQueues e data
  | receiveSrtDatagram capacity => exact absurd rfl (hreceive capacity)
  | setLinkEnabled linkId enabled => exact setLinkEnabled_sameQueues h linkId enabled
  | updateAdapters adapters => exact updateAdapters_sameQueues h adapters
  | updateLinkStats stats => cases stats <;> exact ⟨rfl, rfl⟩
  | updateSrtStats stats =>
    cases stats with
    | none => exact ⟨rfl, rfl⟩
    | some stats =>
      simp only [step, updateSrtStats]
      split_ifs <;> exact ⟨rfl, rfl⟩
  | setAudioBitrate bps => exact ⟨rfl, rfl⟩
  | setVideoBitrate bps => exact ⟨rfl, rfl⟩
  | setMaxVideoBitrate bps =>
    simp only [step, setMaxVideoBitrate]
    split_ifs <;> exact ⟨rfl, rfl⟩
  | setSessionState state error =>
    simp only [step, setSessionState]
    split <;> exact ⟨rfl, rfl⟩
  | applyAbr nowMs => exact (syncRunnerStats_sameQueues e).trans ⟨rfl, rfl⟩
  | copyStatsJson => exact syncRunnerStats_sameQueues e
  | lastError => exact ⟨rfl, rfl⟩
  | runner effect =>
    have hafter (hsame : ∀ r : EmbeddedSender F A, (r.after effect).output = r.output) :
        SameQueues e (e.step (.runner effect)).1 := by
      refine ⟨rfl, ?_⟩
      rcases hrunner : e.runner with _ | r <;> simp [Engine.pending, step, hrunner, hsame]
    cases effect with
    | produce packet => exact absurd rfl (hproduce packet)
    | _ => exact hafter fun _ => rfl

omit [F64 F] [IpAddr A] in
theorem receiveSrtDatagram_output {e : Engine F A} (h : e.output.queue = []) (capacity : Nat) :
    (e.receiveSrtDatagram capacity).1.output.queue = [] := by
  have hdeliver (e : Engine F A) (packet : Option (List UInt8)) :
      (e.deliver capacity packet).1.output = e.output := by
    cases packet with
    | none => rfl
    | some packet =>
      simp only [deliver]
      split_ifs <;> rfl
  unfold receiveSrtDatagram
  split
  · exact h
  split
  · exact h
  rcases e.runner with _ | runner
  · have hpop : e.output.pop.1 = e.output := by simp [DatagramQueue.pop, h]
    simp only [hpop]
    split_ifs
    · exact h
    · rw [hdeliver]
      exact h
  · simp only [hdeliver]
    exact h

theorem step_output {e : Engine F A} (h : e.output.queue = []) (i : Input F A) :
    (e.step i).1.output.queue = [] := by
  have hother (hstarts : ¬StartsOrStops i) (hreceive : ∀ capacity, i ≠ .receiveSrtDatagram capacity)
      (hproduce : ∀ packet, i ≠ .runner (.produce packet)) : (e.step i).1.output.queue = [] := by
    rw [(step_sameQueues h hstarts hreceive hproduce).output, h]
  cases i with
  | start =>
    change e.start.1.output.queue = []
    rw [start]
    split_ifs <;> rfl
  | stop => exact h
  | receiveSrtDatagram capacity => exact receiveSrtDatagram_output h capacity
  | runner effect =>
    cases effect with
    | produce packet => exact h
    | _ => exact hother id (by simp) (by simp)
  | _ => exact hother id (by simp) (by simp)

theorem receive_kept {e : Engine F A} {capacity : Nat} (hkept : ¬e.DropsFront capacity) :
    deliveredBy (e.step (.receiveSrtDatagram capacity)).2 ++
      filled (e.step (.receiveSrtDatagram capacity)).1.pending = filled e.pending := by
  change deliveredBy (.received (e.receiveSrtDatagram capacity).2.1
    (e.receiveSrtDatagram capacity).2.2) ++ filled (e.receiveSrtDatagram capacity).1.pending =
      filled e.pending
  rcases e.receiveSrtDatagram_cases capacity with
    ⟨hpending, hnone | hnone, _⟩ | ⟨packet, rest, hqueue, hcapacity, hrunning,
      ⟨_, hafter, htaken⟩ | ⟨hlong, hcode, hafter⟩⟩
  · simp [hnone, hpending, deliveredBy]
  · simp [hnone, hpending, deliveredBy]
  · rw [htaken, hafter, hqueue]
    by_cases hempty : packet = []
    · simp [hempty, deliveredBy, filled]
    · have hlength : 0 < packet.length := List.length_pos_iff.mpr hempty
      rw [filled_cons hempty]
      simp [deliveredBy, hlength]
  · have hrunner : ¬e.runner.isSome = true := fun hsome =>
      hkept ((dropsFront_iff hqueue capacity).mpr ⟨hcapacity, hrunning, hsome, hlong⟩)
    rw [hcode, hafter, if_neg hrunner, hqueue]
    simp [deliveredBy]

theorem receive_lost {e : Engine F A} {capacity : Nat} (hdrop : e.DropsFront capacity) :
    (deliveredBy (e.step (.receiveSrtDatagram capacity)).2 ++
      filled (e.step (.receiveSrtDatagram capacity)).1.pending).length <
        (filled e.pending).length := by
  obtain ⟨packet, rest, hqueue, hlong, hcode, hafter⟩ := receive_of_dropsFront hdrop
  have hfilled : packet ≠ [] := by
    rintro rfl
    exact absurd hlong (Nat.not_lt_zero _)
  change (deliveredBy (.received (e.receiveSrtDatagram capacity).2.1
    (e.receiveSrtDatagram capacity).2.2) ++
      filled (e.receiveSrtDatagram capacity).1.pending).length < (filled e.pending).length
  rw [hcode, hafter, hqueue, filled_cons hfilled]
  simp [deliveredBy]

theorem conserves_pending :
    Fifo.Conserves (step (F := F) (A := A)) (fun e => filled e.pending)
      (fun e i => filled (e.offeredBy i)) (fun e i => deliveredBy (e.step i).2) Drops
      (fun e => e.output.queue = []) (fun i => ¬StartsOrStops i) where
  keeps e i h _ := step_output h i
  kept := by
    intro e i h hother hkept
    have hsame (hreceive : ∀ capacity, i ≠ .receiveSrtDatagram capacity)
        (hproduce : ∀ packet, i ≠ .runner (.produce packet))
        (hdelivered : deliveredBy (e.step i).2 = []) (hoffered : e.offeredBy i = []) :
        deliveredBy (e.step i).2 ++ filled (e.step i).1.pending =
          filled e.pending ++ filled (e.offeredBy i) := by
      rw [hdelivered, hoffered, (step_sameQueues h hother hreceive hproduce).pending]
      exact (List.append_nil _).symm
    cases i with
    | receiveSrtDatagram capacity =>
      exact (receive_kept hkept).trans (List.append_nil _).symm
    | runner effect =>
      cases effect with
      | produce packet =>
        rcases hrunner : e.runner with _ | runner <;>
          simp [step, deliveredBy, offeredBy, Engine.pending, hrunner, EmbeddedSender.after, filled]
      | _ => exact hsame (by simp) (by simp) rfl rfl
    | start => exact absurd trivial hother
    | stop => exact absurd trivial hother
    | _ => exact hsame (by simp) (by simp) rfl rfl
  lost := by
    intro e i h hother hdrop
    cases i with
    | receiveSrtDatagram capacity =>
      exact (receive_lost hdrop).trans_eq (congrArg _ (List.append_nil _).symm)
    | _ => exact absurd hdrop id

theorem reached_output (config : EngineConfig) (ins : List (Input F A)) :
    (reached config ins : Engine F A).output.queue = [] :=
  Reactive.exec_invariant (I := fun e : Engine F A => e.output.queue = [])
    (fun _ i h => step_output h i) rfl ins

/-- In every state a run reaches: a receive that finds its buffer too small leaves the
datagram pending exactly where it does not take it from a runner, and a series of calls
delivers the queued sequence, with what the runner adds, exactly when none does. -/
theorem receive_keeps_queue_iff (config : EngineConfig) (ins : List (Input F A))
    {later : List (Input F A)} (hlater : ∀ i ∈ later, ¬StartsOrStops i) :
    let e : Engine F A := reached config ins
    (∀ capacity, e.StillPending capacity ↔ ¬e.DropsFront capacity) ∧
      (Fifo.along step (fun e i => deliveredBy (e.step i).2) e later ++
          filled (Reactive.exec step e later).pending =
        filled e.pending ++ Fifo.along step (fun e i => filled (e.offeredBy i)) e later ↔
          Fifo.Never step Drops e later) :=
  ⟨stillPending_iff _, conserves_pending.conserved_iff (reached_output config ins) hlater⟩

def oneAddress : EngineConfig where
  links := [{ id := 1, label := "wan", address := "10.0.0.1" }]

def oneReady : List (Input ℚ Ipv4) := [.start, .runner (.produce [1, 2])]

theorem receive_keeps_queue_enough :
    Fifo.along step (fun e i => deliveredBy (e.step i).2) (reached oneAddress oneReady)
          [.receiveSrtDatagram 2] ++
        filled (Reactive.exec step (reached oneAddress oneReady) [.receiveSrtDatagram 2]).pending =
      filled (reached oneAddress oneReady).pending ++
        Fifo.along step (fun e i => filled (e.offeredBy i)) (reached oneAddress oneReady)
          [.receiveSrtDatagram 2] := by
  refine (receive_keeps_queue_iff oneAddress oneReady (by simp [StartsOrStops])).2.mpr
    ⟨fun hdrop => ?_, trivial⟩
  obtain ⟨packet, rest, hqueue, hlong, _⟩ := receive_of_dropsFront hdrop
  have hpending : (reached oneAddress oneReady : Engine ℚ Ipv4).pending = [[1, 2]] := by decide
  obtain ⟨rfl, _⟩ := List.cons.inj (hpending.symm.trans hqueue)
  exact absurd hlong (by decide)

/-- A receive with room for one byte fails, and the next one, with room for two, finds
nothing. -/
theorem short_receive_loses :
    ((reached oneAddress oneReady : Engine ℚ Ipv4).receiveSrtDatagram 1).2 = (-3, []) ∧
      (((reached oneAddress oneReady : Engine ℚ Ipv4).receiveSrtDatagram 1).1.receiveSrtDatagram
        2).2 = (0, []) := by
  decide

end Engine
end Srtla
