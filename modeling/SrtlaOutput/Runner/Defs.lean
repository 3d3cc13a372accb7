import SrtlaOutput.Engine.Defs
import SrtlaOutput.Lib.Schedule

/-! The thread behind the embedded sender and its composition with the engine. The two
run concurrently and meet in the handle only: the engine sends control messages and
reads the stats document, the thread takes the messages in order and publishes a
document at its housekeeping tick. -/

namespace Srtla
open FirstMatch
variable {F A : Type}

/-- An uplink; opening one leaves it enabled. -/
structure SrtlaConnection (A : Type) where
  localIp : A
  adminEnabled : Bool := true
  deriving DecidableEq, Repr

/-- The local variables of `run_embedded`; `started` once the first connect returned. -/
structure EmbeddedRunner (A : Type) where
  configuredLinks : List (EmbeddedLink A)
  connections : List (SrtlaConnection A) := []
  started : Bool := false
  deriving DecidableEq, Repr

section Connections
variable [DecidableEq A]

/-- Which of the addresses could be connected in time is up to the network, `opened`. -/
def applyConnectionChanges (connections : List (SrtlaConnection A)) (newIps : List A)
    (opened : A → Bool) : List (SrtlaConnection A) :=
  let current := connections.map (·.localIp)
  let needed := newIps.eraseDups.filter fun ip => !current.contains ip
  connections.filter (fun c => newIps.contains c.localIp) ++
    (needed.filter opened).map fun ip => { localIp := ip }

def setAdminEnabled (configured : List (EmbeddedLink A)) (connections : List (SrtlaConnection A)) :
    List (SrtlaConnection A) :=
  connections.map fun c =>
    match configured.find? (·.address == c.localIp) with
    | some link => { c with adminEnabled := link.enabled }
    | none => c

end Connections

namespace EmbeddedRunner

def enabledCount (links : List (EmbeddedLink A)) : Nat := (links.filter (·.enabled)).length

def enabledIps (links : List (EmbeddedLink A)) : List A :=
  (links.filter (·.enabled)).map (·.address)

def configure (links : List (EmbeddedLink A)) : Control A → List (EmbeddedLink A)
  | .setLink id enabled =>
    if !enabled && decide (enabledCount links ≤ 1) then links
    else modifyFirst (·.id == id) (fun link => { link with enabled }) links
  | .updateLinks new => new

variable [DecidableEq A]

/-- The connect before the loop tries one enabled link after the other, also where two of them
share an address. -/
def connect (r : EmbeddedRunner A) (opened : Nat → Bool) : EmbeddedRunner A :=
  { r with
    connections := ((enabledIps r.configuredLinks).zipIdx.filter fun ip => opened ip.2).map
      fun ip => { localIp := ip.1 }
    started := true }

/-- Connections are kept as warm standbys; a link that is enabled is connected. -/
def setLink (r : EmbeddedRunner A) (id : UInt64) (enabled : Bool) (opened : A → Bool) :
    EmbeddedRunner A :=
  match r.configuredLinks.find? (·.id == id) with
  | none => r
  | some link =>
    if !enabled && decide (enabledCount r.configuredLinks ≤ 1) then r
    else
      let links := configure r.configuredLinks (.setLink id enabled)
      let current := r.connections.map (·.localIp)
      let ips := if enabled && !current.contains link.address then current ++ [link.address] else current
      { r with
        configuredLinks := links
        connections := setAdminEnabled links (applyConnectionChanges r.connections ips opened) }

def updateLinks (r : EmbeddedRunner A) (links : List (EmbeddedLink A)) (opened : A → Bool) :
    EmbeddedRunner A :=
  let current := r.connections.map (·.localIp)
  let ips := (links.filter fun link => link.enabled || current.contains link.address).map (·.address)
  { r with
    configuredLinks := links
    connections := setAdminEnabled links (applyConnectionChanges r.connections ips opened) }

def handle (r : EmbeddedRunner A) (opened : A → Bool) : Control A → EmbeddedRunner A
  | .setLink id enabled => r.setLink id enabled opened
  | .updateLinks links => r.updateLinks links opened

/-- The retry of the housekeeping tick, from no connection at all. -/
def reconnect (r : EmbeddedRunner A) (opened : A → Bool) : EmbeddedRunner A :=
  if r.connections.isEmpty then
    { r with connections := applyConnectionChanges [] (enabledIps r.configuredLinks) opened }
  else r

/-- The document of a housekeeping tick. `telemetry` measures each uplink; its address and
its flag are those of the connection. -/
def document (r : EmbeddedRunner A) (telemetry : Nat → A → RunnerLinkStats F A) :
    RunnerStats F A :=
  { links := r.connections.mapIdx fun i c =>
      { telemetry i c.localIp with ip := c.localIp, adminEnabled := c.adminEnabled } }

end EmbeddedRunner

inductive Event (F A : Type)
  | setLinkEnabled (linkId : UInt64) (enabled : Bool)
  | updateAdapters (adapters : JsonArg EngineLinkConfig)
  | updateLinkStats (stats : JsonArg LinkStatsUpdate)
  | applyAbr (nowMs : Nat)
  | copyStatsJson
  | connect (opened : Nat → Bool)
  | control (opened : A → Bool)
  | housekeeping (opened : A → Bool) (telemetry : Nat → A → RunnerLinkStats F A)
  | fail (error : String)

/-- The engine, the thread of its runner, and for each link the operator's last choice
that the engine accepted. -/
structure System (F A : Type) where
  engine : Engine F A
  thread : EmbeddedRunner A
  choice : UInt64 → Bool

namespace System

def initialChoice (links : List EngineLinkConfig) (id : UInt64) : Bool :=
  (links.find? (·.id == id)).any (·.enabled)

variable [F64 F] [IpAddr A]

def spawn (s : System F A) (engine : Engine F A) : System F A :=
  match s.engine.runner, engine.runner with
  | none, some runner => { s with engine, thread := { configuredLinks := runner.config.links } }
  | _, _ => { s with engine }

def call (s : System F A) (i : Input F A) : System F A := s.spawn (s.engine.step i).1

def effect (s : System F A) (e : RunnerEffect F A) : System F A :=
  { s with engine := (s.engine.step (.runner e)).1 }

def started (config : EngineConfig) : System F A :=
  let before : System F A :=
    { engine := Engine.create config
      thread := { configuredLinks := [] }
      choice := initialChoice config.links }
  before.call .start

def control (s : System F A) : List (Control A) := (s.engine.runner.map (·.control)).getD []

def running (s : System F A) : Bool := s.engine.runner.any (·.alive)

variable [DecidableEq A]

def next (s : System F A) : Event F A → Option (System F A)
  | .setLinkEnabled linkId enabled =>
    let t := s.call (.setLinkEnabled linkId enabled)
    some <|
      if (s.engine.setLinkEnabled linkId enabled).2 = 0 then
        { t with choice := fun id => if id = linkId then enabled else s.choice id }
      else t
  | .updateAdapters adapters => some (s.call (.updateAdapters adapters))
  | .updateLinkStats stats => some (s.call (.updateLinkStats stats))
  | .applyAbr nowMs => some (s.call (.applyAbr nowMs))
  | .copyStatsJson => some (s.call .copyStatsJson)
  | .connect opened =>
    if s.running && !s.thread.started then some { s with thread := s.thread.connect opened } else none
  | .control opened =>
    if s.running && s.thread.started then
      match s.control with
      | [] => none
      | message :: _ =>
        some { s.effect .takeControl with thread := s.thread.handle opened message }
    else none
  | .housekeeping opened telemetry =>
    if s.running && s.thread.started then
      let thread := s.thread.reconnect opened
      some { s.effect (.publish (some (thread.document telemetry))) with thread }
    else none
  | .fail error =>
    if s.running then
      let t := s.effect (.publish (some { state := "Error", error }))
      some (t.effect .exit)
    else none

end System
end Srtla
