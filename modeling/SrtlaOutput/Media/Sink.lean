import SrtlaOutput.Lib.Blocks

/-! The sink that cuts the muxed bytes of the encoded packets into datagrams. What OBS and
libavformat do with a packet is not under the control of this code and comes as a trace. -/

namespace Srtla
open Blocks

def tsDatagramSize : Nat := 1316

/-- What the sink hands to its callback. It never hands out an empty datagram. -/
structure TsDatagram where
  bytes : List UInt8
  keyframe : Bool
  pts90k : Int
  nonempty : bytes ≠ []
  deriving DecidableEq, Repr

def TsDatagram.size (d : TsDatagram) : UInt64 := UInt64.ofNat d.bytes.length

inductive PacketType
  | video | audio
  deriving DecidableEq, Repr

structure EncoderPacket where
  type : PacketType
  keyframe : Bool
  trackIdx : Nat := 0
  size : Nat
  deriving DecidableEq, Repr

/-- What OBS and libavformat do with one packet: the buffers that reach `write_callback`
while the header is written, while the frame is written and in the flush, the presentation
time they compute, and the text of the step that fails. -/
structure AvTrace where
  startError : Option String := none
  header : List (List UInt8) := []
  streamMissing : Bool := false
  allocated : Bool := true
  pts90k : Int := 0
  frame : List (List UInt8) := []
  frameError : Option String := none
  flush : List (List UInt8) := []
  deriving DecidableEq, Repr

structure MpegTsAvformatSink where
  pending : List UInt8 := []
  headerWritten : Bool := false
  healthy : Bool := true
  currentKeyframe : Bool := false
  currentPts90k : Int := 0
  lastError : String := ""
  deriving DecidableEq, Repr

namespace MpegTsAvformatSink

def setError (s : MpegTsAvformatSink) (message : String) : MpegTsAvformatSink :=
  { s with healthy := false, lastError := message }

/-- `destroy_context`; the trailer of a context that has no header yet is not written. -/
def destroyContext (s : MpegTsAvformatSink) : MpegTsAvformatSink :=
  { s with headerWritten := false, pending := [] }

def reset (s : MpegTsAvformatSink) : MpegTsAvformatSink :=
  { s.destroyContext with
    healthy := true, lastError := "", currentKeyframe := false, currentPts90k := 0 }

def datagram (s : MpegTsAvformatSink) (bytes : List UInt8) : Option TsDatagram :=
  if h : bytes = [] then none
  else some { bytes, keyframe := s.currentKeyframe, pts90k := s.currentPts90k, nonempty := h }

/-- `emit_datagrams(false)`. -/
def emitFull (s : MpegTsAvformatSink) : MpegTsAvformatSink × List TsDatagram :=
  ({ s with pending := (cut tsDatagramSize s.pending).2 },
    (cut tsDatagramSize s.pending).1.filterMap s.datagram)

/-- `emit_datagrams(true)`. -/
def emitAll (s : MpegTsAvformatSink) : MpegTsAvformatSink × List TsDatagram :=
  ({ s with pending := [] }, s.emitFull.2 ++ (s.datagram s.emitFull.1.pending).toList)

def writeCallback (s : MpegTsAvformatSink) (buffer : List UInt8) :
    MpegTsAvformatSink × List TsDatagram :=
  if buffer.isEmpty then (s, []) else { s with pending := s.pending ++ buffer }.emitFull

def writeCallbacks (s : MpegTsAvformatSink) :
    List (List UInt8) → MpegTsAvformatSink × List TsDatagram
  | [] => (s, [])
  | buffer :: buffers =>
    (((s.writeCallback buffer).1.writeCallbacks buffers).1,
      (s.writeCallback buffer).2 ++ ((s.writeCallback buffer).1.writeCallbacks buffers).2)

def ensureStarted (s : MpegTsAvformatSink) (av : AvTrace) :
    MpegTsAvformatSink × List TsDatagram × Bool :=
  if s.headerWritten then (s, [], s.healthy)
  else
    let written := s.destroyContext.writeCallbacks av.header
    match av.startError with
    | some error => ((written.1.setError error).destroyContext, written.2, false)
    | none => ({ written.1 with headerWritten := true }, written.2, true)

def maxPacketSize : Nat := 2147483647

/-- `write_packet`, with its reply. The stamp stands while libavformat writes the frame. -/
def writePacket (s : MpegTsAvformatSink) (packet : EncoderPacket) (av : AvTrace) :
    MpegTsAvformatSink × List TsDatagram × Bool :=
  if av.streamMissing || (packet.type == .audio && packet.trackIdx != 0) then (s, [], false)
  else if packet.size > maxPacketSize then
    (s.setError "Encoded packet is too large for FFmpeg", [], false)
  else if !av.allocated then (s, [], false)
  else
    let written := { s with currentKeyframe := packet.keyframe
                            currentPts90k := av.pts90k }.writeCallbacks av.frame
    let done := { written.1 with currentKeyframe := false }
    match av.frameError with
    | some error => (done.setError error, written.2, false)
    | none => (done, written.2, true)

def write (s : MpegTsAvformatSink) (packet : EncoderPacket) (av : AvTrace) :
    MpegTsAvformatSink × List TsDatagram × Bool :=
  if packet.size = 0 || !s.healthy then (s, [], false)
  else
    let started := s.ensureStarted av
    if !started.2.2 then started
    else
      let packetWritten := started.1.writePacket packet av
      (packetWritten.1, started.2.1 ++ packetWritten.2.1, packetWritten.2.2)

def flush (s : MpegTsAvformatSink) (av : AvTrace) : MpegTsAvformatSink × List TsDatagram :=
  if !s.headerWritten || !s.healthy then (s, [])
  else
    let written := s.writeCallbacks av.flush
    (written.1.emitAll.1, written.2 ++ written.1.emitAll.2)

/-- A packet that is written and flushed, and everything it hands to the callback. A
packet the muxer rejects is not flushed; the output is stopped for it. -/
def mux (s : MpegTsAvformatSink) (packet : EncoderPacket) (av : AvTrace) :
    MpegTsAvformatSink × List TsDatagram :=
  let written := s.write packet av
  if !written.2.2 then (written.1, written.2.1)
  else ((written.1.flush av).1, written.2.1 ++ (written.1.flush av).2)

end MpegTsAvformatSink

end Srtla
