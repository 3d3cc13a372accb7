import SrtlaOutput.Media.Transport

/-! The media path over any number of starts and stops. The owner starts and stops the output,
the encoder callback runs while data is captured, the sender thread between its start and its
join, and the session's thread as long as there is a session. -/

namespace Srtla
variable {τ : Type}

def SrtlaOutput.enqueueLocked (o : SrtlaOutput τ) (d : TsDatagram) (tag : τ) : SrtlaOutput τ :=
  if o.dropUntilKeyframe && !d.keyframe then { o with droppedFrames := o.droppedFrames + 1 }
  else (o.reopen d).push d tag

def SrtlaOutput.prepareQueue (o : SrtlaOutput τ) : SrtlaOutput τ :=
  { o with queue := [], dropUntilKeyframe := false, needsMuxerReset := false, workerStop := false }

def SrtlaOutput.stopQueue (o : SrtlaOutput τ) : SrtlaOutput τ :=
  { o with workerStop := true, queue := [], queueBytes := 0 }

def SrtlaOutput.clearQueue (o : SrtlaOutput τ) : SrtlaOutput τ :=
  { o with queue := [], queueBytes := 0 }

/-- What the destructor emits: an old context's trailer, of which a rest stays behind. -/
def MpegTsAvformatSink.destroy (s : MpegTsAvformatSink) (trailer : List (List UInt8)) :
    List TsDatagram :=
  if s.headerWritten then (s.writeCallbacks trailer).2 else []

/-- Where the encoder callback is: between two packets, past its tests, or in the sink's callback
with the datagrams that are still to come. `entered` has seen the output running. -/
inductive CallbackState
  | idle
  | tested (packet : EncoderPacket) (av : AvTrace)
  | writing (datagrams : List TsDatagram)
  | entered (d : TsDatagram) (later : List TsDatagram)
  deriving DecidableEq

/-- Where the owner is: not in a run, in `srtla_output_start` before each of its steps, in a
run, or in the clean-up, which is that of `srtla_output_stop` where `full` holds and that of a
failed start otherwise. -/
inductive RunPc
  | idle
  | connecting
  | prepared
  | launching
  | working
  | capturing
  | active
  | ending (full : Bool)
  | ended (full : Bool)
  | joining (full : Bool)
  | joined (full : Bool)
  | released (full : Bool)
  | clearing
  deriving DecidableEq, Repr

structure MediaSystem where
  transport : Transport Unit := { output := { running := false } }
  sink : IdleSink := .fresh
  callback : CallbackState := .idle
  owner : RunPc := .idle
  capture : Bool := false
  session : Bool := false
  worker : Bool := false

inductive SystemStep
  | createSession (created : Bool)
  | prepare (initialized : Bool)
  | createMuxer (created : Bool)
  | startWorker (created : Bool)
  | beginCapture (begun : Bool)
  | startAbrWorker (created : Bool)
  | stop
  | endCapture
  | stopWorker
  | joinWorker
  | endSession
  | destroyMuxer (trailer : List (List UInt8))
  | clear
  | test (packet : EncoderPacket) (av : AvTrace)
  | exchange
  | enter
  | enqueue
  | finish
  | thread (step : MediaStep Unit)
  deriving DecidableEq

namespace MediaSystem

def withOutput (s : MediaSystem) (output : SrtlaOutput (Mark Unit)) : MediaSystem :=
  { s with transport := { s.transport with output } }

def setRunning (s : MediaSystem) (running : Bool) : MediaSystem :=
  s.withOutput { s.transport.output with running }

/-- The steps of `srtla_output_start`, with the answer to the call that can fail. A start that
has no session yet ends at once. One whose session does not connect, or whose bitrate or muxer is
refused, releases the session and ends before a thread of its own runs. -/
def startStep (s : MediaSystem) : SystemStep → Option MediaSystem
  | .createSession created =>
    if s.owner ≠ .idle then none
    else if created then some { s.setRunning false with session := true, owner := .connecting }
    else some (s.setRunning false)
  | .prepare initialized =>
    if s.owner ≠ .connecting ∨ (s.transport.reconnecting && !initialized) then none
    else if initialized then
      some { s.withOutput s.transport.output.prepareQueue with owner := .prepared }
    else some { s with session := false, owner := .idle }
  | .createMuxer created =>
    if s.owner ≠ .prepared ∨ (s.transport.reconnecting && !created) then none
    else if created then some { s.setRunning true with sink := .fresh, owner := .launching }
    else some { s with session := false, owner := .idle }
  | .startWorker created =>
    if s.owner ≠ .launching then none
    else
      let s := s.withOutput { s.transport.output with workerStop := false }
      if created then
        some
          { s with
            transport := { s.transport with sender := .idle }, worker := true, owner := .working }
      else some { s.setRunning false with owner := .ending false }
  | .beginCapture begun =>
    if s.owner ≠ .working then none
    else if begun then some { s with capture := true, owner := .capturing }
    else some { s.setRunning false with owner := .ending false }
  | .startAbrWorker created =>
    if s.owner ≠ .capturing then none
    else if created then some { s with owner := .active }
    else some { s.setRunning false with owner := .ending false }
  | _ => none

/-- The steps of the clean-up. The end of the capture waits for the callback, and a join for the
thread. -/
def stopStep (s : MediaSystem) : SystemStep → Option MediaSystem
  | .stop =>
    if s.owner = .idle ∨ s.owner = .active then
      some { s.setRunning false with owner := .ending true }
    else none
  | .endCapture =>
    match s.owner with
    | .ending full =>
      if s.callback = .idle then some { s with capture := false, owner := .ended full } else none
    | _ => none
  | .stopWorker =>
    match s.owner with
    | .ended full => some { s.withOutput s.transport.output.stopQueue with owner := .joining full }
    | _ => none
  | .joinWorker =>
    match s.owner with
    | .joining full =>
      if s.worker && s.transport.sender ≠ .returned then none
      else some { s with worker := false, owner := .joined full }
    | _ => none
  | .endSession =>
    match s.owner with
    | .joined full =>
      if s.transport.reconnecting then none
      else some { s with session := false, owner := .released full }
    | _ => none
  | .destroyMuxer trailer =>
    match s.owner with
    | .released full =>
      let output := (s.sink.sink.destroy trailer).foldl
        (fun o d => o.enqueueDatagram d (s.transport.mark ())) s.transport.output
      some { s.withOutput output with owner := if full then .clearing else .idle }
    | _ => none
  | .clear =>
    if s.owner = .clearing then
      some { s.withOutput s.transport.output.clearQueue with owner := .idle }
    else none
  | _ => none

def callbackStep (s : MediaSystem) : SystemStep → Option MediaSystem
  | .test packet av =>
    if s.capture && s.callback = .idle then
      some { s with callback := if s.transport.output.skips packet then .idle else .tested packet av }
    else none
  | .exchange =>
    match s.callback with
    | .tested packet av =>
      let taken := s.transport.output.takeReset s.sink
      let muxed := taken.2.mux packet av
      some { s.withOutput taken.1 with sink := muxed.1, callback := .writing muxed.2 }
    | _ => none
  | .enter =>
    match s.callback with
    | .writing (d :: later) =>
      some
        { s with
          callback :=
            if !s.transport.output.running || d.bytes.isEmpty then .writing later
            else .entered d later }
    | _ => none
  | .enqueue =>
    match s.callback with
    | .entered d later =>
      let output := s.transport.output.enqueueLocked d (s.transport.mark ())
      let transport := { s.transport with output, emitted := s.transport.emitted ++ [d] }
      some { s with transport, callback := .writing later }
    | _ => none
  | .finish => if s.callback = .writing [] then some { s with callback := .idle } else none
  | _ => none

def present (s : MediaSystem) : MediaStep Unit → Bool
  | .dequeue | .send _ | .purge | .requestReset => s.worker
  | .sessionPurge | .sessionReset => s.session
  | .enqueue _ _ | .takeReset => false

def threadStep (s : MediaSystem) (step : MediaStep Unit) : Option MediaSystem :=
  if s.present step then (s.transport.next step).map fun transport => { s with transport } else none

def next (s : MediaSystem) : SystemStep → Option MediaSystem
  | .thread step => s.threadStep step
  | step => (s.startStep step).or ((s.stopStep step).or (s.callbackStep step))

end MediaSystem
end Srtla
