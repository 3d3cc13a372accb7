import SrtlaOutput.Engine.Recovery
import SrtlaOutput.Runner.Defs

/-! All calls of the engine and all steps of its runner, one turn after the other. Two systems of
which one runner has a message more to take answer the same, as long as it takes that message when
there is nothing left for it to do. -/

namespace Srtla
open Reactive Mailbox Engine
variable {F A : Type}

def Input.isCall : Input F A → Bool
  | .runner _ => false
  | _ => true

/-- A call, or a step of the runner thread with what it meets in the network. -/
inductive Turn (F A : Type)
  | call (i : { i : Input F A // i.isCall = true })
  | connect (opened : Nat → Bool)
  | control (opened : A → Bool)
  | housekeeping (opened : A → Bool) (telemetry : Nat → A → RunnerLinkStats F A)
  | takeInput
  | produce (packet : List UInt8)
  | fail (error : String)

/-! A thread that is done. -/

section Thread
variable [DecidableEq A]

/-- Each of the configured links that is enabled is open, and each connection has the flag of a
configured link. -/
structure EmbeddedRunner.Settled (r : EmbeddedRunner A) : Prop where
  connected : ∀ link ∈ r.configuredLinks, link.enabled = true →
    link.address ∈ r.connections.map (·.localIp)
  configured : ∀ c ∈ r.connections, ∃ link,
    r.configuredLinks.find? (·.address == c.localIp) = some link ∧ link.enabled = c.adminEnabled

theorem EmbeddedRunner.settled_iff {r : EmbeddedRunner A} : r.Settled ↔
    (∀ link ∈ r.configuredLinks, link.enabled = true →
      link.address ∈ r.connections.map (·.localIp)) ∧
    ∀ c ∈ r.connections, (r.configuredLinks.find? (·.address == c.localIp)).any
      (·.enabled == c.adminEnabled) = true := by
  simp only [Option.any_eq_true, beq_iff_eq]
  exact ⟨fun h => ⟨h.connected, h.configured⟩, fun h => ⟨h.1, h.2⟩⟩

instance (r : EmbeddedRunner A) : Decidable r.Settled := decidable_of_iff' _ r.settled_iff

theorem EmbeddedRunner.Settled.updateLinks {r : EmbeddedRunner A} (h : r.Settled)
    (opened : A → Bool) :
    r.updateLinks r.configuredLinks opened = r := by
  obtain ⟨ips, hips⟩ : ∃ ips, ips = (r.configuredLinks.filter fun link =>
    link.enabled || (r.connections.map (·.localIp)).contains link.address).map (·.address) := ⟨_, rfl⟩
  have hconnected : ∀ ip ∈ ips, ip ∈ r.connections.map (·.localIp) := by
    intro ip hip
    rw [hips] at hip
    obtain ⟨link, hlink, rfl⟩ := List.mem_map.mp hip
    obtain ⟨hmem, hwanted⟩ := List.mem_filter.mp hlink
    rcases Bool.or_eq_true_iff.mp hwanted with henabled | hcurrent
    · exact h.connected link hmem henabled
    · exact List.contains_iff_mem.mp hcurrent
  have hkept : ∀ c ∈ r.connections, c.localIp ∈ ips := by
    intro c hc
    obtain ⟨link, hlink, -⟩ := h.configured c hc
    have haddress : link.address = c.localIp := by simpa using List.find?_some hlink
    have hcurrent : c.localIp ∈ r.connections.map (·.localIp) := List.mem_map_of_mem hc
    rw [hips]
    refine List.mem_map.mpr
      ⟨link, List.mem_filter.mpr ⟨List.mem_of_find?_eq_some hlink, ?_⟩, haddress⟩
    rw [haddress, List.contains_iff_mem.mpr hcurrent, Bool.or_true]
  have hsame : applyConnectionChanges r.connections ips opened = r.connections := by
    have hnone :
        ips.eraseDups.filter (fun ip => !(r.connections.map (·.localIp)).contains ip) = [] := by
      rw [List.filter_eq_nil_iff]
      intro ip hip
      simpa using hconnected ip (List.mem_eraseDups.mp hip)
    rw [applyConnectionChanges, List.filter_eq_self.mpr fun c hc => by simpa using hkept c hc]
    simp only [hnone, List.filter_nil, List.map_nil, List.append_nil]
  have hflags : setAdminEnabled r.configuredLinks r.connections = r.connections := by
    refine (List.map_congr_left fun c hc => ?_).trans (List.map_id' r.connections)
    obtain ⟨link, hlink, hflag⟩ := h.configured c hc
    rw [hlink]
    dsimp only
    rw [hflag]
  rw [EmbeddedRunner.updateLinks, ← hips, hsame, hflags]

end Thread

namespace System

def created [F64 F] (config : EngineConfig) : System F A where
  engine := Engine.create config
  thread := { configuredLinks := [] }
  choice := initialChoice config.links

def working (s : System F A) : Bool := s.running && s.thread.started

section Turns
variable [F64 F] [IpAddr A] [DecidableEq A]

/-- A step that the thread cannot take changes nothing. -/
def turn (s : System F A) : Turn F A → System F A × Option Reply
  | .call i => (s.call i.val, some (s.engine.step i.val).2)
  | .connect opened => ((s.next (.connect opened)).getD s, none)
  | .control opened => ((s.next (.control opened)).getD s, none)
  | .housekeeping opened telemetry => ((s.next (.housekeeping opened telemetry)).getD s, none)
  | .takeInput => (if s.working then s.effect .takeInput else s, none)
  | .produce packet => (if s.working then s.effect (.produce packet) else s, none)
  | .fail error => ((s.next (.fail error)).getD s, none)

def answers (s : System F A) (ts : List (Turn F A)) : List Reply :=
  (replies turn s ts).filterMap id

def inputs (s : System F A) : Turn F A → List (Input F A)
  | .call i => [i.val]
  | .connect _ => []
  | .control _ => if s.working && !s.control.isEmpty then [.runner .takeControl] else []
  | .housekeeping opened telemetry =>
    if s.working then [.runner (.publish (some ((s.thread.reconnect opened).document telemetry)))]
    else []
  | .takeInput => if s.working then [.runner .takeInput] else []
  | .produce packet => if s.working then [.runner (.produce packet)] else []
  | .fail error =>
    if s.running then [.runner (.publish (some { state := "Error", error })), .runner .exit] else []

def trace : System F A → List (Turn F A) → List (Input F A)
  | _, [] => []
  | s, t :: ts => s.inputs t ++ trace (s.turn t).1 ts

def FindsRoom (s : System F A) : Turn F A → Prop
  | .call i => s.engine.FindsRoom i.val
  | _ => True

omit [F64 F] [IpAddr A] [DecidableEq A] in
theorem spawn_engine (s : System F A) (engine : Engine F A) : (s.spawn engine).engine = engine := by
  rw [spawn]
  split <;> rfl

omit [F64 F] [IpAddr A] [DecidableEq A] in
theorem spawn_thread {s : System F A} {engine : Engine F A}
    (h : engine.runner.isSome = s.engine.runner.isSome) : (s.spawn engine).thread = s.thread := by
  rw [spawn]
  cases hbefore : s.engine.runner with
  | none => cases hafter : engine.runner with
    | none => rfl
    | some r =>
      rw [hbefore, hafter] at h
      cases h
  | some r => rfl

theorem turn_engine (s : System F A) (t : Turn F A) :
    (s.turn t).1.engine = exec Engine.step s.engine (s.inputs t) := by
  cases t with
  | call i => exact spawn_engine s _
  | connect opened =>
    rw [turn, next]
    split <;> rfl
  | control opened =>
    rw [turn, next, inputs, working]
    cases s.running && s.thread.started with
    | false => rfl
    | true =>
      rw [if_pos rfl]
      cases s.control <;> rfl
  | housekeeping opened telemetry =>
    rw [turn, next, inputs, working]
    cases s.running && s.thread.started <;> rfl
  | takeInput =>
    rw [turn, inputs]
    cases s.working <;> rfl
  | produce packet =>
    rw [turn, inputs]
    cases s.working <;> rfl
  | fail error =>
    rw [turn, next, inputs]
    cases s.running <;> rfl

theorem answers_cons (s : System F A) (t : Turn F A) (ts : List (Turn F A)) :
    s.answers (t :: ts) = (s.turn t).2.toList ++ (s.turn t).1.answers ts := by
  rw [answers, replies, List.filterMap_cons, id]
  cases (s.turn t).2 <;> rfl

/-! Calls only. -/

def calls (is : List { i : Input F A // i.isCall = true }) : List (Turn F A) := is.map .call

theorem answers_calls (s : System F A) (is : List { i : Input F A // i.isCall = true }) :
    s.answers (calls is) = replies Engine.step s.engine (is.map (·.val)) := by
  induction is generalizing s with
  | nil => rfl
  | cons i is ih =>
    have hengine : (s.turn (.call i)).1.engine = (s.engine.step i.val).1 := turn_engine s (.call i)
    rw [calls, List.map_cons, answers_cons, List.map_cons, replies, ← hengine, ← ih]
    rfl

theorem along_calls {s : System F A} {is : List { i : Input F A // i.isCall = true }}
    (h : Along Engine.step Engine.FindsRoom s.engine (is.map (·.val))) :
    Along turn FindsRoom s (calls is) := by
  induction is generalizing s with
  | nil => trivial
  | cons i is ih =>
    have hengine : (s.turn (.call i)).1.engine = (s.engine.step i.val).1 := turn_engine s (.call i)
    refine ⟨h.1, ih ?_⟩
    rw [hengine]
    exact h.2

/-! A message more. -/

/-- The turn takes the message that has this position in the channel, in a turn of its own. -/
def due (position : Option Nat) (s : System F A) : Turn F A → Bool
  | .control _ => s.working && decide (position = some 0)
  | _ => false

def ahead (position : Option Nat) (s : System F A) (t : Turn F A) : Option Nat :=
  (s.inputs t).foldl (fun position i => i.move.position position) position

def without (position : Option Nat) : System F A → List (Turn F A) → List (Turn F A)
  | _, [] => []
  | s, t :: ts =>
    if s.due position t then without none (s.turn t).1 ts
    else t :: without (s.ahead position t) (s.turn t).1 ts

/-- The thread takes the message, which names `links`, when it is configured with them and done. -/
def TakenSettled (links : List (EmbeddedLink A)) (position : Option Nat) :
    System F A → List (Turn F A) → Prop
  | _, [] => True
  | s, t :: ts =>
    if s.due position t then s.thread.configuredLinks = links ∧ s.thread.Settled
    else TakenSettled links (s.ahead position t) (s.turn t).1 ts

omit [F64 F] [IpAddr A] [DecidableEq A] in
theorem due_none (s : System F A) (t : Turn F A) : s.due none t = false := by
  cases t with
  | control opened => exact Bool.and_false _
  | _ => rfl

omit [F64 F] [IpAddr A] in
theorem ahead_none (s : System F A) (t : Turn F A) : s.ahead none t = none := by
  rw [ahead]
  induction s.inputs t with
  | nil => rfl
  | cons i ins ih =>
    rw [List.foldl_cons]
    cases i.move <;> exact ih

theorem takenSettled_none (links : List (EmbeddedLink A)) (s : System F A) (ts : List (Turn F A)) :
    TakenSettled links none s ts := by
  -- a message that is gone is not taken
  induction ts generalizing s with
  | nil => trivial
  | cons t ts ih =>
    rw [TakenSettled, due_none, ahead_none]
    exact ih _

theorem without_calls (position : Option Nat) (s : System F A)
    (is : List { i : Input F A // i.isCall = true }) :
    s.without position (calls is) = calls is := by
  induction is generalizing s position with
  | nil => rfl
  | cons i is ih => exact congrArg (Turn.call i :: ·) (ih _ _)

theorem takenSettled_calls (links : List (EmbeddedLink A)) (position : Option Nat) (s : System F A)
    (is : List { i : Input F A // i.isCall = true }) :
    TakenSettled links position s (calls is) := by
  induction is generalizing s position with
  | nil => trivial
  | cons i is ih => exact ih _ _

instance decidableTakenSettled (links : List (EmbeddedLink A)) :
    ∀ (position : Option Nat) (s : System F A) (ts : List (Turn F A)),
      Decidable (TakenSettled links position s ts)
  | _, _, [] => .isTrue trivial
  | position, s, t :: ts =>
    have := decidableTakenSettled links (s.ahead position t) (s.turn t).1 ts
    inferInstanceAs (Decidable (if s.due position t then
      s.thread.configuredLinks = links ∧ s.thread.Settled
      else TakenSettled links (s.ahead position t) (s.turn t).1 ts))

/-! The two systems. -/

/-- The first system is the second one with a message more for the runner. -/
structure Twin (links : List (EmbeddedLink A)) (position : Option Nat) (ins : List (Input F A))
    (s t : System F A) : Prop where
  shows : ShowsAlike ins s.engine t.engine
  thread : s.thread = t.thread
  extra : Extra (.updateLinks links) position (mail s.engine) (mail t.engine)

namespace Twin
variable {links : List (EmbeddedLink A)} {position : Option Nat} {ins : List (Input F A)}
  {s t : System F A}

omit [DecidableEq A]

theorem running (h : Twin links position ins s t) : s.running = t.running := by
  rw [System.running, System.running, h.shows.runner]
  cases s.engine.runner <;> rfl

theorem working (h : Twin links position ins s t) : s.working = t.working := by
  rw [System.working, System.working, h.running, h.thread]

theorem input {i : Input F A} (h : Twin links position (i :: ins) s t)
    (hroom : s.engine.FindsRoom i) (hother : i.move = .take → position ≠ some 0) :
    (s.engine.step i).2 = (t.engine.step i).2 ∧
      ShowsAlike ins (s.engine.step i).1 (t.engine.step i).1 ∧
      Extra (.updateLinks links) (i.move.position position) (mail (s.engine.step i).1)
        (mail (t.engine.step i).1) := by
  obtain ⟨hreply, hshows, hmoved⟩ := h.shows.step hroom
  exact ⟨hreply, hshows, h.extra.moved hmoved hother⟩

theorem effect {e : RunnerEffect F A} (h : Twin links position (.runner e :: ins) s t)
    (hother : (Input.runner e).move = .take → position ≠ some 0) :
    Twin links ((Input.runner e).move.position position) ins (s.effect e) (t.effect e) := by
  obtain ⟨-, hshows, hextra⟩ := h.input trivial hother
  exact ⟨hshows, h.thread, hextra⟩

theorem effectIf {on : Bool} {e : RunnerEffect F A}
    (h : Twin links position ((if on then [.runner e] else []) ++ ins) s t)
    (hother : (Input.runner e).move = .take → position ≠ some 0) :
    Twin links ((if on then [Input.runner e] else []).foldl
      (fun position i => i.move.position position) position) ins
      (if on then s.effect e else s) (if on then t.effect e else t) := by
  cases on with
  | false => exact h
  | true => exact h.effect hother

theorem withThread (h : Twin links position ins s t) (thread : EmbeddedRunner A) :
    Twin links position ins { s with thread } { t with thread } := ⟨h.shows, rfl, h.extra⟩

theorem call {i : Input F A} (h : Twin links position (i :: ins) s t)
    (hroom : s.engine.FindsRoom i) (hother : i.move = .take → position ≠ some 0) :
    Twin links (i.move.position position) ins (s.call i) (t.call i) := by
  obtain ⟨-, hshows, hextra⟩ := h.input hroom hother
  have hthread : (s.call i).thread = (t.call i).thread := by
    have hbefore := h.shows.runner
    have hafter := hshows.runner
    rw [System.call, System.call, spawn, spawn, hbefore, hafter]
    cases s.engine.runner with
    | none => cases (s.engine.step i).1.runner with
      | none => exact h.thread
      | some r => rfl
    | some r => exact h.thread
  refine ⟨?_, hthread, ?_⟩
  · rw [System.call, System.call, spawn_engine, spawn_engine]
    exact hshows
  · rw [System.call, System.call, spawn_engine, spawn_engine]
    exact hextra

section
variable [DecidableEq A]

theorem turn {u : Turn F A} (h : Twin links position (s.inputs u ++ ins) s t)
    (hroom : s.FindsRoom u) (hdue : s.due position u = false) :
    (s.turn u).2 = (t.turn u).2 ∧
      Twin links (s.ahead position u) ins (s.turn u).1 (t.turn u).1 := by
  have hrunning := h.running
  have hworking := h.working
  rw [ahead]
  cases u with
  | call i =>
    have hcall : i.val.move = .take → position ≠ some 0 := by
      obtain ⟨i, hi⟩ := i
      intro htake
      cases i with
      | runner effect => cases hi
      | _ => cases htake
    exact ⟨congrArg some (h.input hroom hcall).1, h.call hroom hcall⟩
  | connect opened =>
    refine ⟨rfl, ?_⟩
    simp only [System.turn, next, inputs, ← hrunning, ← h.thread]
    split
    · exact h.withThread _
    · exact h
  | control opened =>
    refine ⟨rfl, ?_⟩
    have hcontrol : s.working = true → s.control.head? = t.control.head? := by
      intro hon
      rw [due, hon, Bool.true_and] at hdue
      exact h.extra.head (of_decide_eq_false hdue)
    cases hon : s.working with
    | false =>
      have hoff : t.working = false := hworking ▸ hon
      rw [System.working] at hon hoff
      simpa [System.turn, next, inputs, System.working, hon, hoff] using h
    | true =>
      have hother : position ≠ some 0 := by
        rw [due, hon, Bool.true_and] at hdue
        exact of_decide_eq_false hdue
      have hon' : t.working = true := hworking ▸ hon
      have hhead := hcontrol hon
      rw [inputs, hon] at h ⊢
      rw [System.working] at hon hon'
      rw [System.turn, System.turn, next, next, if_pos hon, if_pos hon']
      cases hqueue : s.control with
      | nil =>
        rw [hqueue] at hhead h
        have hempty : t.control = [] := List.head?_eq_none_iff.mp hhead.symm
        rw [hempty]
        exact h
      | cons message rest =>
        rw [hqueue] at hhead h
        obtain ⟨rest', hqueue'⟩ : ∃ rest', t.control = message :: rest' :=
          ⟨_, (List.cons_head?_tail (by rw [← hhead]; rfl)).symm⟩
        rw [hqueue', h.thread]
        exact (h.effect fun _ => hother).withThread _
  | housekeeping opened telemetry =>
    refine ⟨rfl, ?_⟩
    cases hon : s.working with
    | false =>
      have hoff : t.working = false := hworking ▸ hon
      rw [System.working] at hon hoff
      simpa [System.turn, next, inputs, System.working, hon, hoff] using h
    | true =>
      have hon' : t.working = true := hworking ▸ hon
      rw [inputs, hon] at h ⊢
      rw [System.working] at hon hon'
      rw [System.turn, System.turn, next, next, if_pos hon, if_pos hon', ← h.thread]
      exact (h.effect fun htake => by cases htake).withThread _
  | takeInput =>
    refine ⟨rfl, ?_⟩
    rw [System.turn, System.turn, ← hworking]
    exact h.effectIf fun htake => by cases htake
  | produce packet =>
    refine ⟨rfl, ?_⟩
    rw [System.turn, System.turn, ← hworking]
    exact h.effectIf fun htake => by cases htake
  | fail error =>
    refine ⟨rfl, ?_⟩
    rw [inputs] at h ⊢
    rw [System.turn, System.turn, next, next, ← hrunning]
    cases hon : s.running with
    | false => rwa [hon] at h
    | true =>
      rw [hon] at h
      have hpublished := h.effect fun htake => by cases htake
      exact hpublished.effect fun htake => by cases htake

/-- The message changes nothing. -/
theorem taken {u : Turn F A} (h : Twin links position (s.inputs u ++ ins) s t)
    (hdue : s.due position u = true) (hlinks : s.thread.configuredLinks = links)
    (hsettled : s.thread.Settled) :
    (s.turn u).2 = none ∧ Twin links none ins (s.turn u).1 t := by
  cases u with
  | control opened =>
    refine ⟨rfl, ?_⟩
    rw [due, Bool.and_eq_true, decide_eq_true_eq] at hdue
    obtain ⟨hon, rfl⟩ := hdue
    have hqueue : s.control = .updateLinks links :: mail t.engine := h.extra.first
    rw [inputs, hon, hqueue] at h
    rw [System.working] at hon
    have hsame : s.thread.handle opened (.updateLinks links) = s.thread := by
      rw [← hlinks]
      exact hsettled.updateLinks opened
    rw [System.turn, next, if_pos hon, hqueue]
    dsimp only [Option.getD]
    rw [hsame]
    have hlt : (mail t.engine).length < (mail s.engine).length := by
      rw [h.extra.first]
      exact Nat.lt_succ_self _
    have hleft : mail (s.effect .takeControl).engine = mail t.engine := by
      have htail := congrArg List.tail h.extra.first
      rw [List.tail_cons] at htail
      rw [← htail, System.effect]
      rcases s.engine with ⟨_, _, _, _, _, _, _, _, _, _, _, _, runner⟩
      cases runner <;> rfl
    exact ⟨h.shows.take hlt, h.thread, hleft⟩
  | _ => cases hdue

theorem answers (h : Twin links position (s.trace us) s t)
    (hroom : Along System.turn FindsRoom s us) (htaken : TakenSettled links position s us) :
    s.answers us = t.answers (s.without position us) := by
  induction us generalizing s t position with
  | nil => rfl
  | cons u us ih =>
    rw [System.trace] at h
    rw [TakenSettled] at htaken
    rw [System.without]
    cases hdue : s.due position u with
    | false =>
      rw [hdue] at htaken
      obtain ⟨hreply, hafter⟩ := h.turn hroom.1 hdue
      have hrest := ih hafter hroom.2 htaken
      show System.answers s (u :: us) = System.answers t (u :: _)
      rw [answers_cons, answers_cons, hreply, hrest]
    | true =>
      rw [hdue] at htaken
      obtain ⟨hreply, hafter⟩ := h.taken hdue htaken.1 htaken.2
      have hrest := ih hafter hroom.2 (takenSettled_none links _ us)
      show System.answers s (u :: us) = System.answers t (without none (s.turn u).1 us)
      rw [answers_cons, hreply, hrest]
      rfl

end

end Twin

end Turns
end System
end Srtla
