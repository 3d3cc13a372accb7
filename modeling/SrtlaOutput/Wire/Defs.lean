import SrtlaOutput.Lib.BigEndian
import Mathlib.Control.Basic

/-! The packets of the bonded uplinks: the types and lengths of the vendored protocol crate,
its parsers and its builders. -/

namespace Srtla.Wire
open BigEndian

def srtlaTypeKeepalive : UInt16 := 0x9000
def srtlaTypeAck : UInt16 := 0x9100
def srtlaTypeReg1 : UInt16 := 0x9200
def srtlaTypeReg2 : UInt16 := 0x9201
def srtlaTypeReg3 : UInt16 := 0x9202
def srtlaTypeRegErr : UInt16 := 0x9210
def srtlaTypeRegNgp : UInt16 := 0x9211

def srtTypeHandshake : UInt16 := 0x8000
def srtTypeAck : UInt16 := 0x8002
def srtTypeNak : UInt16 := 0x8003

def srtControlHeaderLen : ℕ := 16
def srtHandshakeCifLen : ℕ := 48
def srtHsVersion5 : UInt32 := 5
def srtHsReqtypeConclusion : Int32 := -1
def srtHsExtFlagHsreq : UInt32 := 1
def srtHsExtCmdHsreq : UInt16 := 1
def srtHsExtCmdHsrsp : UInt16 := 2
def srtHsExtHsreqWords : ℕ := 3
def srtHsOptTsbpdsnd : UInt32 := 1
def srtHsOptTsbpdrcv : UInt32 := 2

def srtlaIdLen : ℕ := 256
def srtlaTypeReg2Len : ℕ := 2 + srtlaIdLen

def srtlaKeepaliveMagic : UInt16 := 0xc01f
def srtlaKeepaliveExtLen : ℕ := 38
def srtlaKeepaliveExtVersion : UInt16 := 1

structure SrtlaId where
  bytes : List UInt8
  length_eq : bytes.length = srtlaIdLen
  deriving DecidableEq

structure ConnectionInfo where
  connId : UInt32
  window : Int32
  inFlight : Int32
  rttMs : UInt32
  nakCount : UInt32
  bitrateBytesPerSec : UInt32
  deriving DecidableEq, Repr

/-- The delays of a handshake, each present when its flag is set. -/
structure SrtHandshakeLatency where
  isResponse : Bool
  rcvMs : Option UInt16
  sndMs : Option UInt16
  deriving DecidableEq, Repr

def getPacketType (buf : List UInt8) : Option UInt16 :=
  if buf.length < 2 then none else some (UInt16.ofNat (word 2 buf 0))

/-- The number of a data packet; a control packet has the highest bit set. -/
def getSrtSequenceNumber (buf : List UInt8) : Option UInt32 :=
  if buf.length < 4 then none
  else
    let sn := UInt32.ofNat (word 4 buf 0)
    if sn &&& 0x80000000 = 0 then some sn else none

def isSrtDataRetransmit (buf : List UInt8) : Bool :=
  decide (8 ≤ buf.length) && buf.headD 0 &&& 0x80 == 0 && buf.getD 4 0 &&& 0x04 != 0

def setSrtDataRetransmit (buf : List UInt8) : List UInt8 :=
  if 8 ≤ buf.length ∧ buf.headD 0 &&& 0x80 = 0 then buf.set 4 (buf.getD 4 0 ||| 0x04) else buf

def be32 (buf : List UInt8) (off : ℕ) : Option UInt32 :=
  if off + 4 ≤ buf.length then some (UInt32.ofNat (word 4 buf off)) else none

/-! Handshakes. -/

def readExtensions (rest : List UInt8) : Option SrtHandshakeLatency :=
  if 4 ≤ rest.length then
    let spec := UInt32.ofNat (word 4 rest 0)
    let cmd := (spec >>> 16).toUInt16
    let blockLen := (spec &&& 0xffff).toNat * 4
    if 4 + blockLen ≤ rest.length then
      let block := (rest.drop 4).take blockLen
      if cmd = srtHsExtCmdHsreq ∨ cmd = srtHsExtCmdHsrsp then
        if block.length < srtHsExtHsreqWords * 4 then none
        else do
          let flags ← be32 block 4
          let latency ← be32 block 8
          some {
            isResponse := cmd == srtHsExtCmdHsrsp
            rcvMs := if flags &&& srtHsOptTsbpdrcv ≠ 0 then some (latency >>> 16).toUInt16 else none
            sndMs := if flags &&& srtHsOptTsbpdsnd ≠ 0 then some (latency &&& 0xffff).toUInt16 else none }
      else readExtensions (rest.drop (4 + blockLen))
    else none
  else none
termination_by rest.length
decreasing_by
  rw [List.length_drop]
  omega

def parseSrtHandshakeLatency (buf : List UInt8) : Option SrtHandshakeLatency := do
  guard ((← getPacketType buf) = srtTypeHandshake)
  guard (srtControlHeaderLen ≤ buf.length)
  let body := buf.drop srtControlHeaderLen
  guard (srtHandshakeCifLen ≤ body.length)
  guard ((← be32 body 0) = srtHsVersion5)
  guard ((← be32 body 20).toInt32 = srtHsReqtypeConclusion)
  guard (((← be32 body 4) &&& 0xffff) &&& srtHsExtFlagHsreq ≠ 0)
  readExtensions (body.drop srtHandshakeCifLen)

/-! Keepalives. -/

def extractKeepaliveTimestamp (buf : List UInt8) : Option UInt64 :=
  if buf.length < 10 then none
  else if getPacketType buf ≠ some srtlaTypeKeepalive then none
  else some (UInt64.ofNat (word 8 buf 2))

def extractKeepaliveConnInfo (buf : List UInt8) : Option ConnectionInfo :=
  if buf.length < srtlaKeepaliveExtLen then none
  else if getPacketType buf ≠ some srtlaTypeKeepalive then none
  else if UInt16.ofNat (word 2 buf 10) ≠ srtlaKeepaliveMagic then none
  else if UInt16.ofNat (word 2 buf 12) ≠ srtlaKeepaliveExtVersion then none
  else some {
    connId := UInt32.ofNat (word 4 buf 14)
    window := (UInt32.ofNat (word 4 buf 18)).toInt32
    inFlight := (UInt32.ofNat (word 4 buf 22)).toInt32
    rttMs := UInt32.ofNat (word 4 buf 26)
    nakCount := UInt32.ofNat (word 4 buf 30)
    bitrateBytesPerSec := UInt32.ofNat (word 4 buf 34) }

/-! Acknowledgements. -/

def parseSrtAck (buf : List UInt8) : Option UInt32 :=
  if buf.length < 20 then none
  else if getPacketType buf ≠ some srtTypeAck then none
  else some (UInt32.ofNat (word 4 buf 16))

def srtNakRangeFlag : UInt32 := 0x80000000

/-- The number of ids from which on a range adds no more. -/
def srtNakMaxLossIds : ℕ := 1000

def pushRange (last seq : UInt32) (out : List UInt32) : List UInt32 :=
  if srtNakMaxLossIds ≤ out.length then out
  else if seq = last then out ++ [seq]
  else pushRange last (seq + 1) (out ++ [seq])
termination_by srtNakMaxLossIds - out.length
decreasing_by
  rw [List.length_append, List.length_singleton]
  omega

/-- The loop over the words of the loss list. A range has its last id in the next word. -/
def readLossList : List UInt32 → List UInt32 → List UInt32
  | [], out => out
  | id :: rest, out =>
    if id &&& srtNakRangeFlag = 0 then readLossList rest (out ++ [id])
    else
      let start := id &&& ~~~srtNakRangeFlag
      match rest with
      | [] => out
      | last :: rest =>
        if last &&& srtNakRangeFlag ≠ 0 ∨ last < start then readLossList rest out
        else readLossList rest (pushRange last start out)

def parseSrtNak (buf : List UInt8) : List UInt32 :=
  if buf.length < srtControlHeaderLen + 4 then []
  else if getPacketType buf ≠ some srtTypeNak then []
  else readLossList ((words 4 (buf.drop srtControlHeaderLen)).map UInt32.ofNat) []

def parseSrtlaAck (buf : List UInt8) : List UInt32 :=
  if buf.length < 8 then []
  else if getPacketType buf ≠ some srtlaTypeAck then []
  else (words 4 (buf.drop 4)).map UInt32.ofNat

/-! Builders. -/

def be16Bytes (n : UInt16) : List UInt8 := bytes 2 n.toNat
def be32Bytes (n : UInt32) : List UInt8 := bytes 4 n.toNat
def be64Bytes (n : UInt64) : List UInt8 := bytes 8 n.toNat

def createReg1Packet (id : SrtlaId) : List UInt8 := be16Bytes srtlaTypeReg1 ++ id.bytes

def createReg2Packet (id : SrtlaId) : List UInt8 := be16Bytes srtlaTypeReg2 ++ id.bytes

def createKeepalivePacket (now : UInt64) : List UInt8 :=
  be16Bytes srtlaTypeKeepalive ++ be64Bytes now

def createKeepalivePacketExt (info : ConnectionInfo) (now : UInt64) : List UInt8 :=
  createKeepalivePacket now ++ be16Bytes srtlaKeepaliveMagic ++
    be16Bytes srtlaKeepaliveExtVersion ++ be32Bytes info.connId ++
    be32Bytes info.window.toUInt32 ++ be32Bytes info.inFlight.toUInt32 ++
    be32Bytes info.rttMs ++ be32Bytes info.nakCount ++ be32Bytes info.bitrateBytesPerSec

def createAckPacket (acks : List UInt32) : List UInt8 :=
  be16Bytes srtlaTypeAck ++ [0, 0] ++ acks.flatMap be32Bytes

end Srtla.Wire
