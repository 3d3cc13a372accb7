import SrtlaOutput.Uplink.LinkCc
import SrtlaOutput.Lib.Scan

/-! Which uplink a packet goes to: the stall gate, the choice by capacity alone, the choice by
quality with its gates, and the choice for packets that must arrive. -/

namespace Srtla.Bond
open Uplink
variable {F A : Type}

/-- The tests that every choice for payload makes first. -/
def usable [F64 F] (c : Connection F A) (nowMs : ℕ) : Bool :=
  c.adminEnabled && !c.isTimedOut nowMs && c.isSchedulable

section Stall
variable [F64 F]

def stallGate (c : Connection F A) (anyHealthy : Bool) : Connection F A :=
  { c with stallGated := anyHealthy && (c.stallLatched || c.silencePulled) }

def healthy (c : Connection F A) (nowMs : ℕ) : Bool :=
  usable c nowMs && !c.stallLatched && !c.silencePulled

/-- A link is gated only while another one is healthy. -/
def applyStallGate (conns : List (Connection F A)) (nowMs : ℕ) (config : ConfigSnapshot) :
    List (Connection F A) :=
  let conns := conns.map fun c =>
    { c with connTimeoutMs := config.connTimeoutMs, delayBudgetMs := config.negotiatedLatencyMs }
  if !config.stallDeselect then
    conns.map fun c => { c with stallGated := false, silencePulled := false }.clearStallLatch
  else
    let conns := conns.map fun c =>
      (c.updateSilencePull nowMs config.stallMinInFlight config.stallAckStaleMs).updateStallLatch
        nowMs config.stallMinInFlight config.stallAckStaleMs
    conns.map (stallGate · (conns.any (healthy · nowMs)))

def selectClassic (conns : List (Connection F A)) (nowMs : ℕ) : Option ℕ :=
  Scan.best (fun c =>
    if usable c nowMs && !c.stallGated then some c.getScore else none) (-1) conns

/-! The election of one carrier while every link is gated for quality. -/

def soleCarrierMinHoldMs : ℕ := 2000
def heldOutRejoinRampMs : ℕ := 2000

/-- The role moves to a link whose round trip is at most half as long. -/
def soleCarrierHandover (incumbentRttMs challengerRttMs : F) (heldForMs : ℕ) : Bool :=
  !decide (heldForMs < soleCarrierMinHoldMs) &&
    F64.isFinite incumbentRttMs && F64.isFinite challengerRttMs &&
    decide (0.0 < incumbentRttMs) && decide (0.0 < challengerRttMs) &&
    !decide (incumbentRttMs < challengerRttMs * 2.0)

def releaseSoleCarrier (c : Connection F A) (nowMs : ℕ) : Connection F A :=
  let c := if c.soleCarrierExcluded then
    { c.armRejoinRamp nowMs heldOutRejoinRampMs false with soleCarrierExcluded := false } else c
  { c with soleCarrier := false }

def candidate (c : Connection F A) (nowMs : ℕ) : Bool := usable c nowMs && !c.stallGated

/-- The least measured round trip wins; without any, the largest score. -/
def bestCarrier (conns : List (Connection F A)) (nowMs : ℕ) : Option ℕ :=
  (Scan.first (fun (a b : F) => decide (a < b)) (fun c =>
    if candidate c nowMs && decide (0.0 < c.getSmoothRttMs) then some c.getSmoothRttMs else none)
    conns).or
  (Scan.first (fun (a b : ℤ) => decide (b < a)) (fun c =>
    if candidate c nowMs && !decide (0.0 < c.getSmoothRttMs) then some c.getScore else none) conns)

def incumbent (conns : List (Connection F A)) (nowMs : ℕ) : Option ℕ :=
  Scan.lastIdx (fun c => candidate c nowMs && c.soleCarrier) conns

def keepCarrier (conns : List (Connection F A)) (nowMs : ℕ) : Option ℕ :=
  match incumbent conns nowMs, bestCarrier conns nowMs with
  | some inc, some b =>
    if b = inc then some inc
    else
      match conns[inc]?, conns[b]? with
      | some i, some c =>
        if soleCarrierHandover i.getSmoothRttMs
            (if 0.0 < c.getSmoothRttMs then c.getSmoothRttMs else 1.7976931348623157e308)
            (nowMs - i.soleCarrierSinceMs) then some b else some inc
      | _, _ => some inc
  | some inc, none => some inc
  | none, b => b

def takeRole (c : Connection F A) (nowMs : ℕ) (handover : Bool) : Connection F A :=
  let c := if c.soleCarrierExcluded then c.armRejoinRamp nowMs heldOutRejoinRampMs false else c
  let c := if c.soleCarrier then c
    else { c with
      soleCarrier := true
      soleCarrierSinceMs :=
        if handover || decide (c.soleCarrierSinceMs = 0) then nowMs else c.soleCarrierSinceMs }
  { c with soleCarrierExcluded := false }

def loseRole (c : Connection F A) (nowMs : ℕ) (handover kept : Bool) : Connection F A :=
  { c with
    soleCarrier := false
    soleCarrierSinceMs := if handover then 0 else c.soleCarrierSinceMs
    soleCarrierExcluded := kept && candidate c nowMs }

def electSoleCarrier (conns : List (Connection F A)) (nowMs : ℕ) (anyQualityOk : Bool) :
    List (Connection F A) × Option ℕ :=
  if anyQualityOk then (conns.map (releaseSoleCarrier · nowMs), none)
  else
    let keep := keepCarrier conns nowMs
    let handover := match incumbent conns nowMs, keep with
      | some inc, some k => decide (inc ≠ k)
      | _, _ => false
    (conns.mapIdx fun i c =>
      if some i = keep then takeRole c nowMs handover else loseRole c nowMs handover keep.isSome,
      keep)

end Stall

/-! The choice by quality. -/

def ofInt [F64 F] (z : ℤ) : F :=
  if z < 0 then 0.0 - F64.ofNat (-z).toNat else F64.ofNat z.toNat

/-- The packets that fit the link's bandwidth-delay product, with headroom. -/
def inFlightCapPackets [F64 F] (ccTargetBps : ℕ) (rttMinMs : F) : Option ℤ :=
  if ccTargetBps = 0 then none
  else
    let rttMs := if F64.isFinite rttMinMs && decide (0.0 < rttMinMs) then rttMinMs else 1.0
    let bdpBytes := F64.ofNat ccTargetBps * (rttMs / 1000.0) / 8.0 * 1.5
    some (min (max (F64.trunc (bdpBytes / F64.ofNat assumedSrtPayloadBytes)) 1) i32Max)

def inFlightCapExceeded [F64 F] (c : Connection F A) : Bool :=
  (inFlightCapPackets c.ccTargetBps c.rtt.rttMinMs).any fun cap => decide (cap < c.inFlightPackets)

def ccSoftCapFloor [F64 F] : F := 0.10

def ccSoftCapMultiplier [F64 F] (c : Connection F A) : F :=
  if c.ccTargetBps = 0 then 1.0
  else if ¬ 0.0 < c.bitrate.currentBitrateBps then 1.0
  else
    let cap : F := F64.ofNat c.ccTargetBps
    let share := max (cap - c.bitrate.currentBitrateBps) 0.0 / cap
    if share < ccSoftCapFloor then ccSoftCapFloor else if 1.0 < share then 1.0 else share

section Enhanced
variable [F64Exp F]

def qualityOk (c : Connection F A) (nowMs : ℕ) : Bool :=
  usable c nowMs && !c.weak && !c.lossDegraded && !c.stallGated

def unconstrained (c : Connection F A) (nowMs : ℕ) : Bool :=
  qualityOk c nowMs && !inFlightCapExceeded c

/-- A late link is held out while an unconstrained one can carry; so are the losers of an
election. -/
def holdOut (c : Connection F A) (nowMs : ℕ) (anyUnconstrained lost : Bool) :
    Connection F A :=
  let late := c.lossDegraded || (c.weak && c.weakReason.isDelay)
  let excluded := candidate c nowMs && ((anyUnconstrained && late) || lost)
  { (if c.qualityExcluded && !excluded then c.armRejoinRamp nowMs heldOutRejoinRampMs false else c)
    with qualityExcluded := excluded }

def ranked (c : Connection F A) (nowMs : ℕ) (anyUnconstrained : Bool) : Bool :=
  candidate c nowMs && !c.qualityExcluded && !(anyUnconstrained && inFlightCapExceeded c)

def enhancedScore (c : Connection F A) (nowMs : ℕ) (anyUnconstrained enableQuality : Bool) :
    Connection F A × F :=
  let gateMult : F := if anyUnconstrained && c.weak then 0.02 else 1.0
  let base := ofInt c.getScore * c.phase.weight * c.rampMultiplier nowMs
  let capMult := ccSoftCapMultiplier c
  if !enableQuality then (c, base * capMult * gateMult)
  else
    let (c, qualityMult) := c.getCachedQualityMultiplier nowMs
    (c, base * qualityMult * capMult * gateMult)

def gateQuality (conns : List (Connection F A)) (nowMs : ℕ) : List (Connection F A) :=
  let anyUnconstrained := conns.any (unconstrained · nowMs)
  let (conns, soleCarrier) := electSoleCarrier conns nowMs (conns.any (qualityOk · nowMs))
  conns.mapIdx fun i c =>
    holdOut c nowMs anyUnconstrained (soleCarrier.isSome && decide (some i ≠ soleCarrier))

/-- The link in use stays unless another one is a tenth better. -/
def selectEnhanced (conns : List (Connection F A)) (lastIdx : Option ℕ) (nowMs : ℕ)
    (enableQuality : Bool) : List (Connection F A) × Option ℕ :=
  let anyUnconstrained := conns.any (unconstrained · nowMs)
  let conns := gateQuality conns nowMs
  let score := fun c : Connection F A =>
    if ranked c nowMs anyUnconstrained then
      some (enhancedScore c nowMs anyUnconstrained enableQuality).2
    else none
  let best := Scan.bestFrom score 0 (none, 0.0 - 1.0) conns
  let conns' := conns.map fun c =>
    if ranked c nowMs anyUnconstrained then
      (enhancedScore c nowMs anyUnconstrained enableQuality).1
    else c
  let current := (lastIdx.bind (conns[·]?)).bind score
  (conns',
    if best.1 ≠ lastIdx ∧ current.any (fun s => decide (best.2 < s * 1.10)) then lastIdx
    else best.1)

def selectConnectionIdx (conns : List (Connection F A)) (lastIdx : Option ℕ) (nowMs : ℕ)
    (config : ConfigSnapshot) : List (Connection F A) × Option ℕ :=
  let conns := applyStallGate conns nowMs config
  match config.mode with
  | .classic =>
    let conns := conns.map (·.clearQualityGateState)
    (conns, selectClassic conns nowMs)
  | .enhanced => selectEnhanced conns lastIdx nowMs config.effectiveQualityEnabled

/-- The best quality among the links that may carry; the operator's switch is not asked. -/
def selectBestQualityIdx (conns : List (Connection F A)) (nowMs : ℕ) : Option ℕ :=
  Scan.first (fun (a b : F) => decide (b < a)) (fun c =>
    if c.connected && c.isSchedulable && !c.isTimedOut nowMs && !c.stallGated &&
      !c.qualityExcluded then some c.qualityCache.multiplier else none) conns

end Enhanced

end Srtla.Bond
