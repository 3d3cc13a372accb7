import SrtlaOutput.Dock.Defs
import SrtlaOutput.Lib.JsonWriter

/-! The JSON texts that the plugin hands to the engine: how the plugin puts them together byte by
byte, and how the engine reads them. -/

namespace Srtla
open Json Abr

/-! The plugin. -/

def utf8 (cs : List Char) : List UInt8 := cs.flatMap String.utf8EncodeChar

def bytesOf (s : String) : List UInt8 := utf8 s.toList

def byteOf (c : Char) : UInt8 := UInt8.ofNat c.toNat

def jsonEscapeByte (c : UInt8) : List UInt8 :=
  if c = byteOf '\\' then [byteOf '\\', byteOf '\\']
  else if c = byteOf '"' then [byteOf '\\', byteOf '"']
  else if c = byteOf '\n' then [byteOf '\\', byteOf 'n']
  else if c = byteOf '\r' then [byteOf '\\', byteOf 'r']
  else if c = byteOf '\t' then [byteOf '\\', byteOf 't']
  else [c]

def jsonEscape (value : List UInt8) : List UInt8 := value.flatMap jsonEscapeByte

/-- `std::to_string`. -/
def decimalBytes (n : Int) : List UInt8 := utf8 (intText n)

def linkJson (enabledLinks : Option (String → Bool)) (adapter : NetworkAdapter) : List UInt8 :=
  bytesOf "\x7b\"id\":" ++ decimalBytes (stableLinkId adapter.id).toNat ++
    bytesOf ",\"label\":\"" ++ jsonEscape (bytesOf (adapter.label ++ " / " ++ adapter.address)) ++
    bytesOf "\",\"address\":\"" ++ jsonEscape (bytesOf adapter.address) ++
    bytesOf "\",\"enabled\":" ++
    bytesOf (if enabledLinks.any (· adapter.id) then "true" else "false") ++ bytesOf "\x7d"

def enumerateLinksJson (enabledLinks : Option (String → Bool)) (adapters : List NetworkAdapter) :
    List UInt8 :=
  let links := adapters.foldl (fun links adapter =>
    (if links.isEmpty then links else links ++ bytesOf ",") ++ linkJson enabledLinks adapter) []
  bytesOf "[" ++ links ++ bytesOf "]"

structure EngineSettings where
  host : String
  port : Nat
  streamId : String
  latency : Int
  passphrase : String
  pbkeylen : Int
  scheduler : String
  enabledLinks : String → Bool
  adapters : List NetworkAdapter
  minBitrate : Int
  maxBitrate : Int
  audioBitrate : Int

namespace EngineSettings

def configJson (c : EngineSettings) : List UInt8 :=
  bytesOf "\x7b\"receiver_host\":\"" ++ jsonEscape (bytesOf c.host) ++
    bytesOf "\",\"receiver_port\":" ++ decimalBytes c.port ++
    bytesOf ",\"stream_id\":\"" ++ jsonEscape (bytesOf c.streamId) ++
    bytesOf "\",\"latency_ms\":" ++ decimalBytes c.latency ++
    bytesOf ",\"passphrase\":\"" ++ jsonEscape (bytesOf c.passphrase) ++
    bytesOf "\",\"pbkeylen\":" ++ decimalBytes c.pbkeylen ++
    bytesOf ",\"scheduler\":\"" ++ jsonEscape (bytesOf c.scheduler) ++
    bytesOf "\",\"links\":" ++ enumerateLinksJson (some c.enabledLinks) c.adapters ++
    bytesOf ",\"abr\":\x7b\"min_bps\":" ++ decimalBytes (max 1 c.minBitrate * 1000) ++
    bytesOf ",\"start_bps\":" ++ decimalBytes (max 1 c.maxBitrate * 1000) ++
    bytesOf ",\"max_bps\":" ++ decimalBytes (max 1 c.maxBitrate * 1000) ++
    bytesOf "\x7d,\"audio_bps\":" ++ decimalBytes (max 0 c.audioBitrate * 1000) ++ bytesOf "\x7d"

end EngineSettings

/-! The engine. -/

/-- `CStr::from_ptr`. -/
def cstr (bytes : List UInt8) : List UInt8 := bytes.takeWhile (· ≠ 0)

def isContinuation (b : UInt8) : Bool := 0x80 ≤ b && b ≤ 0xbf

def secondByte (first second : UInt8) : Bool :=
  if first = 0xe0 then 0xa0 ≤ second && second ≤ 0xbf
  else if first = 0xed then 0x80 ≤ second && second ≤ 0x9f
  else if 0xe1 ≤ first && first ≤ 0xef then isContinuation second
  else if first = 0xf0 then 0x90 ≤ second && second ≤ 0xbf
  else if first = 0xf4 then 0x80 ≤ second && second ≤ 0x8f
  else 0xf1 ≤ first && first ≤ 0xf3 && isContinuation second

/-- How many bytes one replacement character stands for, where no character is encoded. -/
def invalidLength : List UInt8 → Nat
  | first :: second :: rest =>
    if !secondByte first second then 1
    else
      match rest with
      | third :: _ => if 0xf0 ≤ first && isContinuation third then 3 else 2
      | [] => 2
  | _ => 1

/-- The fuel is the number of bytes. -/
def replaceInvalid : Nat → List UInt8 → List Char
  | 0, _ => []
  | _ + 1, [] => []
  | n + 1, bytes =>
    match bytes.toByteArray.utf8DecodeChar? 0 with
    | some c => c :: replaceInvalid n (bytes.drop c.utf8Size)
    | none => '\ufffd' :: replaceInvalid n (bytes.drop (invalidLength bytes))

def toStringLossy (bytes : List UInt8) : List Char :=
  match bytes.toByteArray.utf8Decode? with
  | some cs => cs.toList
  | none => replaceInvalid bytes.length bytes

/-- The text that reaches the parser of the engine. -/
def received (json : List UInt8) : List Char := toStringLossy (cstr json)

abbrev JsonMembers := List (List Char × Value)

/-- A field by its name. A name that occurs twice is an error. -/
def jsonField (ms : JsonMembers) (name : String) : Option (Option Value) :=
  match ms.filter (fun m => String.ofList m.1 = name) with
  | [] => some none
  | [m] => some (some m.2)
  | _ => none

def readField {α : Type} (ms : JsonMembers) (name : String) (default : Option α)
    (read : Value → Option α) : Option α :=
  (jsonField ms name).bind fun
    | none => default
    | some v => read v

def readText : Value → Option String
  | .string s => some (String.ofList s)
  | _ => none

def readBool : Value → Option Bool
  | .bool b => some b
  | _ => none

def readUnsigned (bound : Nat) : Value → Option Nat
  | .integer n => if 0 ≤ n ∧ n < bound then some n.toNat else none
  | _ => none

def readList {α : Type} (read : Value → Option α) : Value → Option (List α)
  | .array items => items.mapM read
  | _ => none

def Abr.AbrConfig.read : Value → Option AbrConfig
  | .object ms => do
    let minBps ← readField ms "min_bps" (some defaultMinBps) (readUnsigned (2 ^ 64))
    let startBps ← readField ms "start_bps" (some defaultStartBps) (readUnsigned (2 ^ 64))
    let maxBps ← readField ms "max_bps" none (readUnsigned (2 ^ 64))
    return { minBps, startBps, maxBps }
  | _ => none

def EngineLinkConfig.read : Value → Option EngineLinkConfig
  | .object ms => do
    let id ← readField ms "id" none (readUnsigned (2 ^ 64))
    let label ← readField ms "label" none readText
    let address ← readField ms "address" (some "") readText
    let enabled ← readField ms "enabled" (some true) readBool
    let connected ← readField ms "connected" (some false) readBool
    let capacityReady ← readField ms "capacity_ready" (some false) readBool
    let payloadEligible ← readField ms "payload_eligible" (some false) readBool
    let targetBps ← readField ms "target_bps" (some 0) (readUnsigned (2 ^ 64))
    let qualityPercent ← readField ms "quality_percent" (some 0) (readUnsigned (2 ^ 8))
    let rttMs ← readField ms "rtt_ms" (some 0) (readUnsigned (2 ^ 32))
    let lossPermille ← readField ms "loss_permille" (some 0) (readUnsigned (2 ^ 32))
    let nakCount ← readField ms "nak_count" (some 0) (readUnsigned (2 ^ 64))
    let usedBps ← readField ms "used_bps" (some 0) (readUnsigned (2 ^ 64))
    let deliveredBps ← readField ms "delivered_bps" (some 0) (readUnsigned (2 ^ 64))
    let state ← readField ms "state" (some "") readText
    let ccState ← readField ms "cc_state" (some "") readText
    let stallGateEvents ← readField ms "stall_gate_events" (some 0) (readUnsigned (2 ^ 64))
    let exclusionReason ← readField ms "exclusion_reason" (some "") readText
    return {
      id := .ofNat id, label, address, enabled, connected, capacityReady, payloadEligible
      targetBps := .ofNat targetBps, qualityPercent := .ofNat qualityPercent
      rttMs := .ofNat rttMs, lossPermille := .ofNat lossPermille, nakCount := .ofNat nakCount
      usedBps := .ofNat usedBps, deliveredBps := .ofNat deliveredBps, state, ccState
      stallGateEvents := .ofNat stallGateEvents, exclusionReason }
  | _ => none

def EngineConfig.read : Value → Option EngineConfig
  | .object ms => do
    let receiverHost ← readField ms "receiver_host" (some "") readText
    let receiverPort ← readField ms "receiver_port" (some 0) (readUnsigned (2 ^ 16))
    let streamId ← readField ms "stream_id" (some "") readText
    let latencyMs ← readField ms "latency_ms" (some 0) (readUnsigned (2 ^ 32))
    let passphrase ← readField ms "passphrase" (some "") readText
    let pbkeylen ← readField ms "pbkeylen" (some 0) (readUnsigned (2 ^ 32))
    let scheduler ← readField ms "scheduler" (some "") readText
    let links ← readField ms "links" (some []) (readList EngineLinkConfig.read)
    let abr ← readField ms "abr" (some none) fun
      | .null => some none
      | v => (AbrConfig.read v).map some
    let audioBps ← readField ms "audio_bps" (some 0) (readUnsigned (2 ^ 64))
    return {
      receiverHost, receiverPort := .ofNat receiverPort, streamId, latencyMs, passphrase, pbkeylen
      scheduler, links, abr, audioBps }
  | _ => none

/-- `srtla_engine_create`; `none` is a null handle. -/
def srtlaEngineCreate {F A : Type} [F64 F] (configJson : List UInt8) : Option (Engine F A) :=
  ((parse (received configJson)).bind EngineConfig.read).map Engine.create

/-- The argument of `srtla_engine_update_adapters`: a bare array, or the object with a field
`links`. -/
def adaptersArg (adaptersJson : List UInt8) : JsonArg EngineLinkConfig :=
  match parse (received adaptersJson) with
  | none => .invalid
  | some v =>
    match readList EngineLinkConfig.read v with
    | some links => .array links
    | none => (EngineConfig.read v).elim .invalid .object

end Srtla
