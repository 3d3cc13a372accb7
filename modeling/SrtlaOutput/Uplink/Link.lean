import SrtlaOutput.Uplink.Connection
import Mathlib.Logic.Relation

/-! What an uplink is, without its measurements: the packets it knows of, its window and its
counters. Every method of the sender moves this part by the few steps below, or not at all. -/

namespace Srtla.Uplink
open Relation
variable {F A : Type}

structure Link (A : Type) where
  connId : UInt64
  localIp : A
  adminEnabled : Bool
  connected : Bool
  schedulable : Bool
  heard : Bool
  window : ℤ
  inFlight : ℤ
  log : PacketLog
  probeLog : PacketLog
  naks : ℤ
  queue : List DrainedPacket
  sent : ℕ
  delivered : ℕ

def Connection.link [F64 F] (c : Connection F A) : Link A where
  connId := c.connId
  localIp := c.localIp
  adminEnabled := c.adminEnabled
  connected := c.connected
  schedulable := c.phase.isSchedulable
  heard := c.lastReceived.isSome
  window := c.window
  inFlight := c.inFlightPackets
  log := c.packetLog
  probeLog := c.probeLog
  naks := c.congestion.nakCount
  queue := c.batchSender.queue
  sent := c.bitrate.bytesSentTotal
  delivered := c.deliveredBitrate.bytesSentTotal

namespace Link

def fresh (connId : UInt64) (localIp : A) : Link A where
  connId
  localIp
  adminEnabled := true
  connected := false
  schedulable := false
  heard := false
  window := windowDef * windowMult
  inFlight := 0
  log := ∅
  probeLog := ∅
  naks := 0
  queue := []
  sent := 0
  delivered := 0

def setLog (l : Link A) (log : PacketLog) : Link A :=
  { l with log, inFlight := log.entries.length }

def offer (l : Link A) (p : DrainedPacket) : Link A :=
  { l with sent := saturatingAdd l.sent p.data.length, queue := l.queue ++ [p] }

def probe (l : Link A) (seq : UInt32) (data : List UInt8) (now : ℕ) : Link A :=
  { l with probeLog := l.probeLog.recordProbe seq.toInt32 now }.offer ⟨data, none, now⟩

def register (l : Link A) (p : DrainedPacket) : Link A :=
  match p.seq with
  | some s => l.setLog (l.log.insert s.toInt32 p.timeMs)
  | none => l

def flush (l : Link A) : Link A := l.queue.foldl register { l with queue := [] }

def credit (l : Link A) (bytes : ℕ) : Link A :=
  { l with delivered := saturatingAdd l.delivered bytes }

def reopen (l : Link A) : Link A :=
  { fresh l.connId l.localIp with adminEnabled := l.adminEnabled }

def recover (l : Link A) : Link A :=
  { l.reopen with naks := l.naks, sent := l.sent, delivered := l.delivered }

def join (l : Link A) : Link A :=
  { l.reopen with
    connected := true, schedulable := true, heard := true, window := l.window, sent := l.sent }

def admin (l : Link A) (enabled : Bool) : Link A :=
  { l with adminEnabled := enabled, schedulable := enabled || l.schedulable }

def grow (l : Link A) (n : ℕ) : Link A :=
  { l with window := min (l.window + n) (windowMax * windowMult) }

/-- The steps of an uplink on its own. What it does with packets of the caller is not among them,
nor are registrations, credits and resets: those are entered elsewhere, too. -/
inductive Step : Link A → Link A → Prop
  | answer (l : Link A) (seq : Int32) : Step l { l with probeLog := l.probeLog.erase seq }
  | refuse (l : Link A) : Step l { l with connected := false, heard := false }
  | hear (l : Link A) : Step l { l with heard := true }
  | acknowledge (l : Link A) (log : PacketLog) (h : log.entries.Sublist l.log.entries) :
      Step l (l.setLog log)
  | lose (l : Link A) (seq : Int32) (h : seq ∈ l.log) :
      Step l { l.setLog (l.log.erase seq) with
        window := max (l.window - windowDecr) (windowMin * windowMult)
        naks := min (l.naks + 1) i32Max }
  | grow (l : Link A) (n : ℕ) : Step l (l.grow n)

abbrev Steps : Link A → Link A → Prop := ReflTransGen Step

theorem Steps.of_eq {l l' : Link A} (h : l' = l) : Steps l l' := h ▸ .refl

theorem foldl_register {β : Type} (g : Link A → β) (h : ∀ l p, g (register l p) = g l)
    (ps : List DrainedPacket) (l : Link A) : g (ps.foldl register l) = g l := by
  induction ps generalizing l with
  | nil => rfl
  | cons p ps ih => rw [List.foldl_cons, ih, h]

section Flush
variable (l : Link A)

@[simp] theorem flush_connId : l.flush.connId = l.connId :=
  foldl_register connId (fun l p => by rw [register]; split <;> rfl) _ _

@[simp] theorem flush_sent : l.flush.sent = l.sent :=
  foldl_register sent (fun l p => by rw [register]; split <;> rfl) _ _

@[simp] theorem flush_delivered : l.flush.delivered = l.delivered :=
  foldl_register delivered (fun l p => by rw [register]; split <;> rfl) _ _

end Flush

end Link

namespace Connection
variable [F64 F]
open Link (Step Steps)

/-! Methods that leave the link as it is. -/

section Scheduling
variable (c : Connection F A) (nowMs staleCeilingMs : ℕ) (minInFlight : ℤ)

@[simp] theorem armRejoinRamp_link (rampMs : ℕ) (fromStallGate : Bool) :
    (c.armRejoinRamp nowMs rampMs fromStallGate).link = c.link := by
  rw [armRejoinRamp]
  split <;> rfl

@[simp] theorem updateSilencePull_link :
    (c.updateSilencePull nowMs minInFlight staleCeilingMs).link = c.link := by
  rw [updateSilencePull]
  split
  · rfl
  · split
    · rfl
    · dsimp only
      split <;> rfl

@[simp] theorem engageLatch_link : (c.engageLatch nowMs staleCeilingMs).link = c.link := by
  rw [engageLatch]
  split <;> rfl

@[simp] theorem startRecovery_link : (c.startRecovery nowMs).link = c.link := by
  rw [startRecovery]
  split <;> rfl

@[simp] theorem releaseLatch_link : (c.releaseLatch nowMs staleCeilingMs).link = c.link := by
  rw [releaseLatch, armRejoinRamp_link]
  rfl

@[simp] theorem updateStallLatch_link :
    (c.updateStallLatch nowMs minInFlight staleCeilingMs).link = c.link := by
  rw [updateStallLatch]
  split
  · exact engageLatch_link ..
  · split
    · rfl
    · split
      · rfl
      · dsimp only
        split
        · rw [releaseLatch_link, startRecovery_link]
        · exact startRecovery_link ..

@[simp] theorem clearStallLatch_link : c.clearStallLatch.link = c.link := by
  rw [clearStallLatch]
  split <;> rfl

@[simp] theorem clearQualityGateState_link : c.clearQualityGateState.link = c.link := rfl

@[simp] theorem stallProbeDue_link : c.stallProbeDue.1.link = c.link := by
  rw [stallProbeDue]
  split <;> rfl

@[simp] theorem calculateBitrate_link : (c.calculateBitrate nowMs).link = c.link := by
  have htotal : ∀ t : BitrateTracker F, (t.calculate nowMs).bytesSentTotal = t.bytesSentTotal := by
    intro t
    rw [BitrateTracker.calculate]
    dsimp only
    split <;> rfl
  simp only [link, calculateBitrate, htotal]

@[simp] theorem updatePhase_link : (c.updatePhase nowMs).link = c.link := by
  rw [updatePhase]
  split <;> rename_i hphase
  · split
    · simp only [link, hphase]
      rfl
    · rfl
  · split
    · simp only [link, hphase]
      rfl
    · rfl
  · split
    · simp only [link, hphase]
      rfl
    · rfl
  · rfl

@[simp] theorem recomputeBatchRegime_link : c.recomputeBatchRegime.link = c.link := rfl

@[simp] theorem recordRttProbe_link : c.recordRttProbe.link = c.link := by
  rw [recordRttProbe]
  split <;> rename_i hphase
  · split <;> simp only [link, hphase] <;> rfl
  · rfl

@[simp] theorem probeReg2Packet_link (probeId : Wire.SrtlaId) :
    (c.probeReg2Packet probeId nowMs).1.link = c.link := rfl

@[simp] theorem keepalivePacket_link : (c.keepalivePacket nowMs).1.link = c.link := rfl

end Scheduling

/-! Methods that move it. -/

section Moves
variable (c : Connection F A)

theorem setAdminEnabled_link (enabled : Bool) (nowMs : ℕ) :
    (c.setAdminEnabled enabled nowMs).link = c.link.admin enabled := by
  cases enabled <;> rfl

theorem queueProbePacket_link (data : List UInt8) (seq : UInt32) (nowMs : ℕ) :
    (c.queueProbePacket data seq nowMs).1.link = c.link.probe seq data nowMs := rfl

theorem takeBatch_link (now : ℕ) : (c.takeBatch now).1.link = c.link.flush := by
  have hfold : ∀ (ps : List DrainedPacket) (c : Connection F A),
      (ps.foldl (fun c p => match p.seq with
        | some s => c.registerPacket s.toInt32 p.timeMs
        | none => c) c).link = ps.foldl Link.register c.link := by
    intro ps
    induction ps with
    | nil => exact fun _ => rfl
    | cons p ps ih =>
      intro c
      rw [List.foldl_cons, List.foldl_cons, ih]
      rw [Link.register]
      split <;> rfl
  exact hfold _ _

theorem removeRange_sublist (n : ℕ) (seq : Int32) (log : PacketLog) :
    (removeRange n seq log).entries.Sublist log.entries := by
  induction n generalizing seq log with
  | zero => exact .refl _
  | succ n ih => exact (ih _ _).trans (List.kerase_sublist _ _)

theorem handleSrtAck_steps (ack : Int32) (nowMs : ℕ) (ownsAckedSeq : Bool) :
    Steps c.link (c.handleSrtAck ack nowMs ownsAckedSeq).link := by
  rw [handleSrtAck]
  dsimp only
  split
  · exact .of_eq rfl
  · refine .single (.acknowledge c.link _ ?_)
    have hremoved : ∀ (p : Prop) [Decidable p] (n : ℕ) (keep : Int32 → ℕ → Bool),
        (if p then removeRange n c.highestAckedSeq c.packetLog
          else c.packetLog.retain keep).entries.Sublist c.packetLog.entries := by
      intro p _ n keep
      split
      · exact removeRange_sublist _ _ _
      · exact List.filter_sublist
    exact hremoved _ _ _

theorem handleNak_step {seq : Int32} {nowMs : ℕ} (h : (c.handleNak seq nowMs).2 = true) :
    Step c.link (c.handleNak seq nowMs).1.link := by
  by_cases hseq : (c.packetLog.lookup seq).isSome
  · rw [handleNak, if_pos hseq]
    exact .lose c.link seq (AList.lookup_isSome.mp hseq)
  · rw [handleNak, if_neg hseq] at h
    exact absurd h Bool.false_ne_true

omit [F64 F] in
theorem handleNak_of_not_found {seq : Int32} {nowMs : ℕ} (h : (c.handleNak seq nowMs).2 = false) :
    (c.handleNak seq nowMs).1 = c := by
  by_cases hseq : (c.packetLog.lookup seq).isSome
  · rw [handleNak, if_pos hseq] at h
    exact absurd h.symm Bool.false_ne_true
  · rw [handleNak, if_neg hseq]

theorem handleNak_steps (seq : Int32) (nowMs : ℕ) :
    Steps c.link (c.handleNak seq nowMs).1.link := by
  cases h : (c.handleNak seq nowMs).2 with
  | true => exact .single (c.handleNak_step h)
  | false => exact .of_eq (by rw [c.handleNak_of_not_found h])

theorem growth_eq (window inFlight : ℤ) :
    CongestionControl.handleSrtlaAckSpecificClassic window inFlight = window ∨
      CongestionControl.handleSrtlaAckSpecificClassic window inFlight =
        min (window + (29 : ℕ)) (windowMax * windowMult) := by
  rw [CongestionControl.handleSrtlaAckSpecificClassic]
  split
  · exact .inr (by rw [windowIncr]; congr 1; push_cast; ring)
  · exact .inl rfl

theorem handleSrtlaAckSpecific_steps (seq : Int32) (classicMode : Bool) (nowMs : ℕ) :
    Steps c.link (c.handleSrtlaAckSpecific seq classicMode nowMs).1.link := by
  rw [handleSrtlaAckSpecific]
  split
  · exact .single (.answer c.link seq)
  · split
    · have hlog : Step c.link (c.link.setLog (c.packetLog.erase seq)) :=
        .acknowledge c.link _ (List.kerase_sublist _ _)
      refine .head hlog ?_
      have hgrow := Step.grow (c.link.setLog (c.packetLog.erase seq)) 29
      rcases growth_eq c.window (c.packetLog.erase seq).entries.length with h | h
      · refine Steps.of_eq ?_
        cases classicMode <;> simp [link, Link.setLog, CongestionControl.handleSrtlaAckEnhanced, h]
      · refine .single ?_
        cases classicMode <;>
          simpa [link, Link.setLog, Link.grow, CongestionControl.handleSrtlaAckEnhanced, h] using hgrow
    · exact .of_eq rfl

theorem handleSrtlaAckGlobal_steps : Steps c.link c.handleSrtlaAckGlobal.link := by
  rw [handleSrtlaAckGlobal]
  split
  · exact .single (.grow c.link 1)
  · exact .of_eq rfl

theorem recovery_cases (cc : CongestionControl) (window : ℤ) (connected : Bool) (velocity : F)
    (nowMs : ℕ) :
    (cc.performWindowRecovery window connected velocity nowMs).1.nakCount = cc.nakCount ∧
      ((cc.performWindowRecovery window connected velocity nowMs).2 = window ∨
        ∃ n : ℕ, (cc.performWindowRecovery window connected velocity nowMs).2 =
          min (window + n) (windowMax * windowMult)) := by
  have hburst : (cc.endBurst nowMs).nakCount = cc.nakCount := by
    rw [CongestionControl.endBurst]
    split <;> rfl
  rw [CongestionControl.performWindowRecovery]
  split
  · exact ⟨rfl, .inl rfl⟩
  · dsimp only
    split
    · exact ⟨hburst, .inr ⟨_, rfl⟩⟩
    · exact ⟨hburst, .inl rfl⟩

theorem performWindowRecovery_steps (nowMs : ℕ) :
    Steps c.link (c.performWindowRecovery nowMs).link := by
  obtain ⟨hnaks, hwindow⟩ :=
    recovery_cases c.congestion c.window c.connected c.rtt.kalmanRtt.v nowMs
  have hlink : (c.performWindowRecovery nowMs).link = { c.link with
      window := (c.congestion.performWindowRecovery c.window c.connected c.rtt.kalmanRtt.v nowMs).2 } := by
    rw [performWindowRecovery, link, link]
    dsimp only
    rw [hnaks]
  rcases hwindow with h | ⟨n, h⟩
  · exact .of_eq (by rw [hlink, h]; rfl)
  · rw [hlink, h]
    exact .single (.grow c.link n)

theorem markForRecovery_link : c.markForRecovery.link = c.link.recover := rfl

end Moves

section Quality

theorem getCachedQualityMultiplier_link {F : Type} [F64Exp F] (c : Connection F A) (nowMs : ℕ) :
    (c.getCachedQualityMultiplier nowMs).1.link = c.link := by
  rw [getCachedQualityMultiplier]
  dsimp only
  split <;> rfl

end Quality

end Connection

end Srtla.Uplink
