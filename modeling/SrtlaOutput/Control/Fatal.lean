import Mathlib.Logic.Function.Basic
import SrtlaOutput.Session.Defs

/-! Fatal errors of a run. A thread of the output that meets one hands a task to the UI thread, and
the task stops the output. The owner starts and stops the output on a thread of its own. -/

namespace Srtla
open Schedule

inductive FatalReporter
  | session
  | abr
  | muxer
  deriving DecidableEq, Repr

/-- An error, with the run in which its thread saw the output running. -/
structure FatalReport where
  error : String
  run : Nat
  deriving DecidableEq, Repr

/-- The `number` tells the tasks of an output apart. -/
structure FatalOutputTask extends FatalReport where
  number : Nat
  deriving DecidableEq, Repr

/-- Where a thread is in `queue_fatal_output`: `failed` has no task and gives the flag back. -/
inductive ReportPc
  | idle
  | entered (report : FatalReport)
  | claiming (report : FatalReport)
  | referring (report : FatalReport)
  | queueing (report : FatalReport)
  | failed
  deriving DecidableEq, Repr

def ReportPc.report : ReportPc → Option FatalReport
  | .entered report | .claiming report | .referring report | .queueing report => some report
  | .idle | .failed => none

/-- The accesses of a clean-up, each before it is made. The last three wait for a thread. -/
inductive StopPc
  | running
  | flag
  | capture
  | abrWorker
  | session
  deriving DecidableEq, Repr

def StopPc.awaited : StopPc → Option FatalReporter
  | .running | .flag => none
  | .capture => some .muxer
  | .abrWorker => some .abr
  | .session => some .session

/-- Where the owner is: in no call, in `srtla_output_start` before each of its accesses, or in the
clean-up, which is that of `srtla_output_stop` where `full` holds and that of a failed start
otherwise. -/
inductive LifePc
  | idle
  | resetting
  | creating
  | connecting
  | launching
  | capturing
  | finishing
  | stopping (full : Bool) (pc : StopPc)
  deriving DecidableEq, Repr

inductive UiPc
  | idle
  | testing (task : FatalOutputTask)
  | setError (task : FatalOutputTask)
  | signalStop (task : FatalOutputTask)
  | stopping (task : FatalOutputTask) (pc : StopPc)
  deriving DecidableEq, Repr

def UiPc.acting : UiPc → Option FatalOutputTask
  | .setError task | .signalStop task | .stopping task _ => some task
  | .idle | .testing _ => none

inductive FatalAct
  | setLastError (error : String)
  | signalStop
  | stop (pc : StopPc)
  deriving DecidableEq, Repr

/-- What a task did, with the run of the output at the time. -/
structure FatalEffect where
  act : FatalAct
  task : FatalOutputTask
  run : Nat
  deriving DecidableEq, Repr

/-- The state of `SrtlaOutput` that fatal errors depend on. OBS captures data until it has joined
the encoder callback. `run`, `queued` and `effects` are history. -/
structure FatalSystem where
  running : Bool := false
  fatalSignalQueued : Bool := false
  /-- `active_` of the capture's lifecycle. -/
  captureActive : Bool := false
  capture : Bool := false
  /-- OBS was told to end the capture and has not joined the callback yet. -/
  ending : Bool := false
  abrWorker : Bool := false
  session : Bool := false
  reporter : FatalReporter → ReportPc := fun _ => .idle
  owner : LifePc := .idle
  tasks : List FatalOutputTask := []
  ui : UiPc := .idle
  run : Nat := 0
  queued : Nat := 0
  effects : List FatalEffect := []

/-- How far the tests of `srtla_output_start` come before its first access: to an encoder or a
passphrase that it refuses, to the capture that OBS does not prepare, or through. -/
inductive StartTests
  | refused
  | unprepared
  | prepared
  deriving DecidableEq, Repr

inductive FatalStep
  | sessionStatus (status : SrtSessionStatus) (error : String)
  | engineError (error : String)
  | packetError (error : String)
  | test (r : FatalReporter)
  | exchange (r : FatalReporter)
  | reference (r : FatalReporter) (granted : Bool)
  | queue (r : FatalReporter) (queued : Bool)
  | giveBack (r : FatalReporter)
  | start (tests : StartTests)
  | reset (available : Bool)
  | createSession (created : Bool)
  | connect (connected : Bool)
  | launch
  | beginCapture (begun : Bool)
  | startAbrWorker (created : Bool)
  | stop
  | cleanUp
  | endCapture
  | takeTask
  | actOnUi
  deriving DecidableEq, Repr

namespace FatalSystem

def withReporter (s : FatalSystem) (r : FatalReporter) (pc : ReportPc) : FatalSystem :=
  { s with reporter := Function.update s.reporter r pc }

def present (s : FatalSystem) : FatalReporter → Bool
  | .session => s.session
  | .abr => s.abrWorker
  | .muxer => s.capture

/-- A thread meets a fatal error, after its caller's own test of `running`. -/
def enter (s : FatalSystem) (r : FatalReporter) (error : String) : Option FatalSystem :=
  if s.present r && s.reporter r = .idle then
    some (if s.running then s.withReporter r (.entered { error, run := s.run }) else s)
  else none

def onSessionStatus (s : FatalSystem) (status : SrtSessionStatus) (error : String) :
    Option FatalSystem :=
  if status = .fatal then s.enter .session error else some s

def queueFatalOutput (s : FatalSystem) : FatalStep → Option FatalSystem
  | .test r =>
    match s.reporter r with
    | .entered report => some (s.withReporter r (if s.running then .claiming report else .idle))
    | _ => none
  | .exchange r =>
    match s.reporter r with
    | .claiming report =>
      some
        ({ s with fatalSignalQueued := true }.withReporter r
          (if s.fatalSignalQueued then .idle else .referring report))
    | _ => none
  | .reference r granted =>
    match s.reporter r with
    | .referring report => some (s.withReporter r (if granted then .queueing report else .failed))
    | _ => none
  | .queue r queued =>
    match s.reporter r with
    | .queueing report =>
      if queued then
        let task : FatalOutputTask := { report with number := s.queued }
        some ({ s with tasks := s.tasks ++ [task], queued := s.queued + 1 }.withReporter r .idle)
      else some (s.withReporter r .failed)
    | _ => none
  | .giveBack r =>
    match s.reporter r with
    | .failed => some ({ s with fatalSignalQueued := false }.withReporter r .idle)
    | _ => none
  | _ => none

def stopAt (s : FatalSystem) (full : Bool) : StopPc → Option (FatalSystem × Option StopPc)
  | .running => some ({ s with running := false }, some (if full then .flag else .capture))
  | .flag => some ({ s with fatalSignalQueued := false }, some .capture)
  | .capture =>
    if !s.captureActive then some (s, some .abrWorker)
    else if s.reporter .muxer = .idle then
      some ({ s with captureActive := false, capture := false, ending := false }, some .abrWorker)
    else none
  | .abrWorker =>
    if s.reporter .abr = .idle then some ({ s with abrWorker := false }, some .session) else none
  | .session =>
    if s.reporter .session = .idle then some ({ s with session := false }, none) else none

/-- `srtla_output_start`. It makes a lifecycle of the capture, which OBS prepares when it captures
no data for the output, and its run begins when it clears the flag. -/
def outputStart (s : FatalSystem) : FatalStep → Option FatalSystem
  | .start tests =>
    if s.owner ≠ .idle then none
    else
      match tests with
      | .refused => some s
      | .unprepared => some { s with captureActive := false }
      | .prepared =>
        if s.capture then none
        else
          some
            { s with
              captureActive := false, fatalSignalQueued := false, run := s.run + 1
              owner := .resetting }
  | .reset available =>
    if s.owner ≠ .resetting then none
    else if available then some { s with running := false, owner := .creating }
    else some { s with owner := .idle }
  | .createSession created =>
    if s.owner ≠ .creating then none
    else if created then some { s with session := true, owner := .connecting }
    else some { s with owner := .idle }
  | .connect connected =>
    if s.owner ≠ .connecting then none
    else if connected then some { s with owner := .launching }
    else if s.reporter .session = .idle then some { s with session := false, owner := .idle }
    else none
  | .launch =>
    if s.owner ≠ .launching then none else some { s with running := true, owner := .capturing }
  | .beginCapture begun =>
    if s.owner ≠ .capturing then none
    else if begun then some { s with captureActive := true, capture := true, owner := .finishing }
    else some { s with owner := .stopping false .running }
  | .startAbrWorker created =>
    if s.owner ≠ .finishing then none
    else if created then some { s with abrWorker := true, owner := .idle }
    else some { s with owner := .stopping false .running }
  | _ => none

def outputStop (s : FatalSystem) : FatalStep → Option FatalSystem
  | .stop => if s.owner = .idle then some { s with owner := .stopping true .running } else none
  | .cleanUp =>
    match s.owner with
    | .stopping full pc =>
      (s.stopAt full pc).map fun p => { p.1 with owner := p.2.elim .idle (.stopping full) }
    | _ => none
  | _ => none

def fatalText (error : String) : String := if error = "" then "SRT session failed" else error

def log (s : FatalSystem) (act : FatalAct) (task : FatalOutputTask) : FatalSystem :=
  { s with effects := s.effects ++ [{ act, task, run := s.run }] }

def signalFatalOutputOnUi (s : FatalSystem) : Option FatalSystem :=
  match s.ui with
  | .idle => none
  | .testing task => some { s with ui := if s.running then .setError task else .idle }
  | .setError task =>
    some { s.log (.setLastError (fatalText task.error)) task with ui := .signalStop task }
  | .signalStop task =>
    some { s.log .signalStop task with ending := s.capture, ui := .stopping task .running }
  | .stopping task pc =>
    (s.stopAt true pc).map fun p =>
      { p.1.log (.stop pc) task with ui := p.2.elim .idle (.stopping task) }

def next (s : FatalSystem) : FatalStep → Option FatalSystem
  | .sessionStatus status error => s.onSessionStatus status error
  | .engineError error => s.enter .abr error
  | .packetError error => s.enter .muxer error
  -- OBS joins the callback of a capture that it was told to end
  | .endCapture =>
    if s.ending && s.reporter .muxer = .idle then some { s with capture := false, ending := false }
    else none
  | .takeTask =>
    match s.ui, s.tasks with
    | .idle, task :: tasks => some { s with tasks, ui := .testing task }
    | _, _ => none
  | .actOnUi => s.signalFatalOutputOnUi
  | step => (s.queueFatalOutput step).or ((s.outputStart step).or (s.outputStop step))

/-- The tasks have acted on their own runs only, and one task at most on each. -/
structure OwnRuns (s : FatalSystem) : Prop where
  own : ∀ e ∈ s.effects, e.run = e.task.run
  once : ∀ e ∈ s.effects, ∀ e' ∈ s.effects, e.run = e'.run → e.task = e'.task

/-- No fatal report is under way: none that may become a task, and no task that waits or is
executed. -/
def Settled (s : FatalSystem) : Prop :=
  (∀ r, (s.reporter r).report = none) ∧ s.tasks = [] ∧ s.ui = .idle

def StartsSettled (s : FatalSystem) (l : FatalStep) : Prop := l = .start .prepared → s.Settled

end FatalSystem

end Srtla
