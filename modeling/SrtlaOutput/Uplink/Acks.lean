import SrtlaOutput.Uplink.Connection
import SrtlaOutput.Lib.Reactive
import SrtlaOutput.Lib.Serial
import Mathlib.Data.List.Iterate
import Mathlib.Tactic.NormNum

/-! Cumulative acknowledgements. While the packets that go out on a link are ahead of what was
acknowledged on it, the short walk and the sweep leave the same packets in the log. -/

namespace Srtla.Uplink
open Serial
variable {F A : Type}

/-! The numbers of the packets, as points of a circle. -/

/-- The number fits the 31 bits of the wire. -/
def InSpace (s : Int32) : Prop := s.toUInt32.toNat < 2 ^ 31

instance : DecidablePred InSpace := fun s => Nat.decLt s.toUInt32.toNat (2 ^ 31)

def serial (s : Int32) : ZMod (2 ^ 31) := (s.toUInt32.toNat : ZMod (2 ^ 31))

theorem toNat_and_mask (u : UInt32) : (u &&& seqMask.toUInt32).toNat = u.toNat % 2 ^ 31 := by
  rw [UInt32.toNat_and]
  exact Nat.and_two_pow_sub_one_eq_mod u.toNat 31

theorem val_serial {s : Int32} (hs : InSpace s) : (serial s).val = s.toUInt32.toNat :=
  ZMod.val_natCast_of_lt hs

theorem serial_injOn {s t : Int32} (hs : InSpace s) (ht : InSpace t) (h : serial s = serial t) :
    s = t := by
  have hval : s.toUInt32.toNat = t.toUInt32.toNat := by
    rw [← val_serial hs, ← val_serial ht, h]
  rw [← Int32.toInt32_toUInt32 s, ← Int32.toInt32_toUInt32 t, UInt32.toNat_inj.mp hval]

theorem inSpace_masked (u : UInt32) : InSpace (u &&& seqMask.toUInt32).toInt32 := by
  rw [InSpace, UInt32.toUInt32_toInt32, toNat_and_mask]
  exact Nat.mod_lt _ (by decide)

theorem inSpace_next (s : Int32) : InSpace (seqNext s) := inSpace_masked _

theorem serial_next (s : Int32) : serial (seqNext s) = serial s + 1 := by
  have hcycle : 2 ^ 31 ∣ 2 ^ 32 := by decide
  rw [serial, seqNext, UInt32.toUInt32_toInt32, toNat_and_mask, UInt32.toNat_add,
    Nat.mod_mod_of_dvd _ hcycle, ZMod.natCast_mod, Nat.cast_add]
  rfl

theorem gap_serial (a b : Int32) :
    gap (serial b) (serial a) = ((a.toUInt32 - b.toUInt32) &&& seqMask.toUInt32).toNat := by
  have hb : b.toUInt32.toNat ≤ 2 ^ 32 := b.toUInt32.toNat_lt.le
  have hcycle : 2 ^ 31 ∣ 2 ^ 32 := by decide
  have hsub : serial a - serial b = ((2 ^ 32 - b.toUInt32.toNat + a.toUInt32.toNat : ℕ) : ZMod (2 ^ 31)) := by
    have hzero : ((2 ^ 32 : ℕ) : ZMod (2 ^ 31)) = 0 := (ZMod.natCast_eq_zero_iff _ _).mpr hcycle
    rw [Nat.cast_add, Nat.cast_sub hb, hzero, zero_sub, neg_add_eq_sub]
    rfl
  rw [gap, hsub, ZMod.val_natCast, toNat_and_mask, UInt32.toNat_sub, Nat.mod_mod_of_dvd _ hcycle]

theorem toInt_toInt32 (u : UInt32) :
    u.toInt32.toInt = if 2 * u.toNat < 2 ^ 32 then (u.toNat : ℤ) else (u.toNat : ℤ) - 2 ^ 32 :=
  BitVec.toInt_eq_toNat_cond _

theorem seqDiff_eq (a b : Int32) :
    seqDiff a b = if 2 ^ 30 ≤ gap (serial b) (serial a) then
        (gap (serial b) (serial a) : ℤ) - 2 ^ 31
      else (gap (serial b) (serial a) : ℤ) := by
  have hlt := gap_lt (serial b) (serial a)
  rw [seqDiff]
  rw [gap_serial] at hlt ⊢
  generalize (a.toUInt32 - b.toUInt32) &&& seqMask.toUInt32 = d at hlt ⊢
  have hhalf : seqHalf ≤ d ↔ 2 ^ 30 ≤ d.toNat := UInt32.le_iff_toNat_le
  have hback : (d - seqSpace).toNat = (2 ^ 32 - 2 ^ 31 + d.toNat) % 2 ^ 32 := UInt32.toNat_sub _ _
  rw [toInt_toInt32, toInt_toInt32, hback]
  by_cases hd : 2 ^ 30 ≤ d.toNat
  · rw [if_pos (hhalf.mpr hd), if_pos hd]
    split <;> omega
  · rw [if_neg fun h => hd (hhalf.mp h), if_neg hd]
    split <;> omega

theorem seqAfter_iff (a b : Int32) : seqAfter a b = true ↔ After (serial a) (serial b) := by
  have hlt := gap_lt (serial b) (serial a)
  rw [seqAfter, decide_eq_true_iff, seqDiff_eq, After]
  split <;> omega

theorem mem_iterate_iff {b s : Int32} {k : ℕ} (hs : InSpace s) :
    s ∈ List.iterate seqNext (seqNext b) k ↔ Follows (serial b) k (serial s) := by
  -- the walk visits the numbers that follow its start
  induction k generalizing b with
  | zero => exact iff_of_false List.not_mem_nil (follows_zero _ _)
  | succ k ih =>
    have hhead : s = seqNext b ↔ serial s = serial b + 1 := by
      rw [← serial_next]
      exact ⟨congrArg serial, serial_injOn hs (inSpace_next b)⟩
    rw [List.iterate, List.mem_cons, ih, follows_succ, hhead, serial_next]

/-! The log. -/

namespace PacketLog

theorem erase_eq_retain (log : PacketLog) (seq : Int32) :
    log.erase seq = log.retain fun s _ => decide (s ≠ seq) := by
  refine AList.ext ?_
  have hfilter : ∀ es : List (Sigma fun _ : Int32 => ℕ), es.NodupKeys →
      es.kerase seq = es.filter fun e => decide (e.1 ≠ seq) := by
    intro es
    induction es with
    | nil => exact fun _ => rfl
    | cons e es ih =>
      intro hnodup
      obtain ⟨hnotMem, hnodup⟩ := List.nodupKeys_cons.mp hnodup
      rw [List.filter_cons, ← ih hnodup]
      by_cases he : seq = e.1
      · rw [List.kerase_cons_eq he, if_neg (by rw [he, decide_not]; simp),
          List.kerase_of_notMem_keys (he ▸ hnotMem)]
      · rw [List.kerase_cons_ne he, if_pos (decide_eq_true (Ne.symm he))]
  exact hfilter _ log.nodupKeys

theorem retain_retain (p q : Int32 → ℕ → Bool) (log : PacketLog) :
    (log.retain p).retain q = log.retain fun s t => p s t && q s t := by
  refine AList.ext ?_
  simp only [retain, List.filter_filter, Bool.and_comm]

theorem retain_congr {p q : Int32 → ℕ → Bool} {log : PacketLog}
    (h : ∀ e ∈ log.entries, p e.1 e.2 = q e.1 e.2) : log.retain p = log.retain q :=
  AList.ext (List.filter_congr h)

end PacketLog

namespace Connection

theorem removeRange_eq_retain (k : ℕ) (seq : Int32) (log : PacketLog) :
    removeRange k seq log =
      log.retain fun s _ => decide (s ∉ List.iterate seqNext (seqNext seq) k) := by
  induction k generalizing seq log with
  | zero => exact AList.ext (List.filter_eq_self.mpr fun _ _ => rfl).symm
  | succ k ih =>
    rw [removeRange, ih, PacketLog.erase_eq_retain, PacketLog.retain_retain]
    refine PacketLog.retain_congr fun e _ => ?_
    rw [Bool.eq_iff_iff]
    simp only [List.iterate, List.mem_cons, not_or, Bool.and_eq_true, decide_eq_true_eq]

end Connection

/-- What is logged and what was acknowledged are numbers of the wire, the former ahead. -/
def Ahead (highest seq : Int32) : Prop :=
  InSpace seq ∧ (highest = noAckYet ∨ seqAfter seq highest = true)

theorem Connection.removeRange_eq_sweep {log : PacketLog} {highest ack : Int32}
    (hlog : ∀ e ∈ log.entries, Ahead highest e.1) (hfirst : highest ≠ noAckYet)
    (hack : seqAfter ack highest = true) :
    removeRange (seqDiff ack highest).toNat highest log = log.retain fun s _ => seqAfter s ack := by
  rw [removeRange_eq_retain]
  refine PacketLog.retain_congr fun e he => ?_
  obtain ⟨hspace, hahead⟩ := hlog e he
  have hafter := (seqAfter_iff _ _).mp (hahead.resolve_left hfirst)
  obtain ⟨hpos, hhalf⟩ := (seqAfter_iff _ _).mp hack
  have hwidth : (seqDiff ack highest).toNat = gap (serial highest) (serial ack) := by
    rw [seqDiff_eq]
    split <;> omega
  rw [Bool.eq_iff_iff, decide_eq_true_iff, mem_iterate_iff hspace, hwidth, seqAfter_iff,
    ← after_add_iff hhalf hafter, add_gap]

def Trim (c : Connection F A) : Prop := ∀ e ∈ c.packetLog.entries, Ahead c.highestAckedSeq e.1

namespace Trim
variable {c c' : Connection F A}

theorem of_sublist (h : Trim c) (hlog : c'.packetLog.entries.Sublist c.packetLog.entries)
    (hhighest : c'.highestAckedSeq = c.highestAckedSeq) : Trim c' := fun e he => by
  rw [hhighest]
  exact h e (hlog.subset he)

theorem of_empty (hlog : c'.packetLog = ∅) : Trim c' := fun e he => by
  rw [hlog] at he
  exact absurd he List.not_mem_nil

theorem clear_eq (h : Trim c) {ack : Int32}
    (hack : c.highestAckedSeq = noAckYet ∨ seqAfter ack c.highestAckedSeq = true) :
    (if (if (c.highestAckedSeq == noAckYet) = true then i32Max else seqDiff ack c.highestAckedSeq) ≤
          Connection.targetedRemovalLimit then
        Connection.removeRange
          (if (c.highestAckedSeq == noAckYet) = true then i32Max
            else seqDiff ack c.highestAckedSeq).toNat c.highestAckedSeq c.packetLog
      else c.packetLog.retain fun seq _ => seqAfter seq ack) =
      c.packetLog.retain fun seq _ => seqAfter seq ack := by
  by_cases hfirst : c.highestAckedSeq = noAckYet
  · -- There is nowhere to walk from.
    have hwide : ¬ i32Max ≤ Connection.targetedRemovalLimit := by decide
    rw [if_pos (beq_iff_eq.mpr hfirst), if_neg hwide]
  · have hbeq : ¬ (c.highestAckedSeq == noAckYet) = true := fun he => hfirst (beq_iff_eq.mp he)
    rw [if_neg hbeq, Connection.removeRange_eq_sweep h hfirst (hack.resolve_left hfirst)]
    exact ite_self _

theorem registerPacket (h : Trim c) {seq : Int32} (hseq : Ahead c.highestAckedSeq seq) (sendTimeMs : ℕ) :
    Trim (c.registerPacket seq sendTimeMs) := fun e he => by
  rcases List.mem_cons.mp he with rfl | he
  · exact hseq
  · exact h e ((List.kerase_sublist _ _).subset he)

theorem takeBatch (h : Trim c) (now : ℕ)
    (hqueue : ∀ p ∈ c.batchSender.queue, ∀ seq, p.seq = some seq →
      Ahead c.highestAckedSeq seq.toInt32) : Trim (c.takeBatch now).1 := by
  refine (Connection.takeBatch_induction (motive := fun c' : Connection F A =>
    Trim c' ∧ c'.highestAckedSeq = c.highestAckedSeq) ?_ ?_).1
  · exact ⟨h.of_sublist (List.Sublist.refl _) rfl, rfl⟩
  · rintro c' p s ⟨htrim, hhighest⟩ hp hs
    exact ⟨htrim.registerPacket (hhighest ▸ hqueue p hp s hs) _, hhighest⟩

end Trim

section Histories
variable [F64 F]

/-- A cumulative acknowledgement that sweeps the whole log each time. -/
def Connection.sweepSrtAck (c : Connection F A) (ack : Int32) (nowMs : ℕ) (ownsAckedSeq : Bool) :
    Connection F A :=
  let ack := seqNormalize ack
  let oldHighest := c.highestAckedSeq
  let firstAck := oldHighest == noAckYet
  if !firstAck && !seqAfter ack oldHighest then c
  else
    let ackSendTimeMs := c.packetLog.lookup ack
    let log := c.packetLog.retain fun seq _ => seqAfter seq ack
    { c with
      highestAckedSeq := ack
      packetLog := log
      inFlightPackets := log.entries.length
      rtt := match ackSendTimeMs with
        | some sentMs => if ownsAckedSeq then (c.rtt.recordRoundTrip sentMs nowMs).1 else c.rtt
        | none => c.rtt }

inductive LogOp
  | queue (data : List UInt8) (seq : Option UInt32) (nowMs : ℕ)
  | probe (data : List UInt8) (seq : UInt32) (nowMs : ℕ)
  | flush (nowMs : ℕ)
  | srtAck (ack : Int32) (nowMs : ℕ) (ownsAckedSeq : Bool)
  | nak (seq : Int32) (nowMs : ℕ)
  | srtlaAck (seq : Int32) (classicMode : Bool) (nowMs : ℕ)
  | register (nowMs : ℕ)
  | recover
  | reconnect (nowMs : ℕ)

namespace LogOp

def apply (srtAck : Connection F A → Int32 → ℕ → Bool → Connection F A) (c : Connection F A) :
    LogOp → Connection F A
  | queue data seq nowMs => (c.queueDataPacket data seq nowMs).1
  | probe data seq nowMs => (c.queueProbePacket data seq nowMs).1
  | flush nowMs => (c.takeBatch nowMs).1
  | .srtAck ack nowMs ownsAckedSeq => srtAck c ack nowMs ownsAckedSeq
  | nak seq nowMs => (c.handleNak seq nowMs).1
  | srtlaAck seq classicMode nowMs => (c.handleSrtlaAckSpecific seq classicMode nowMs).1
  | register nowMs => c.clearPreRegistrationState nowMs
  | recover => c.markForRecovery
  | reconnect nowMs => c.resetForReconnect nowMs

def Advances (c : Connection F A) : LogOp → Prop
  | flush _ => ∀ p ∈ c.batchSender.queue, ∀ seq, p.seq = some seq → Ahead c.highestAckedSeq seq.toInt32
  | _ => True

end LogOp

def Advancing (c : Connection F A) : List LogOp → Prop
  | [] => True
  | op :: ops => op.Advances c ∧ Advancing (op.apply Connection.handleSrtAck c) ops

namespace Trim
variable {c : Connection F A}

theorem handleSrtAck_eq (h : Trim c) (ack : Int32) (nowMs : ℕ) (ownsAckedSeq : Bool) :
    c.handleSrtAck ack nowMs ownsAckedSeq = c.sweepSrtAck ack nowMs ownsAckedSeq := by
  rw [Connection.handleSrtAck, Connection.sweepSrtAck]
  dsimp only
  split
  · rfl
  next hskip =>
    have hack : c.highestAckedSeq = noAckYet ∨
        seqAfter (seqNormalize ack) c.highestAckedSeq = true := by
      simpa [imp_iff_not_or] using hskip
    cases c.packetLog.lookup (seqNormalize ack) <;> rw [h.clear_eq hack]

theorem srtAck (h : Trim c) (ack : Int32) (nowMs : ℕ) (ownsAckedSeq : Bool) :
    Trim (c.sweepSrtAck ack nowMs ownsAckedSeq) := by
  rw [Connection.sweepSrtAck]
  dsimp only
  split
  · exact h
  · intro e he
    obtain ⟨hlogged, hafter⟩ := List.mem_filter.mp he
    exact ⟨(h e hlogged).1, .inr hafter⟩

theorem step (h : Trim c) {op : LogOp} (hop : op.Advances c) :
    Trim (op.apply Connection.handleSrtAck c) := by
  cases op with
  | queue data seq nowMs => exact h.of_sublist (List.Sublist.refl _) rfl
  | probe data seq nowMs => exact h.of_sublist (List.Sublist.refl _) rfl
  | flush nowMs => exact h.takeBatch nowMs hop
  | srtAck ack nowMs ownsAckedSeq =>
    rw [LogOp.apply, h.handleSrtAck_eq]
    exact h.srtAck ack nowMs ownsAckedSeq
  | nak seq nowMs =>
    rw [LogOp.apply, Connection.handleNak]
    split
    · exact h.of_sublist (List.kerase_sublist _ _) rfl
    · exact h
  | srtlaAck seq classicMode nowMs =>
    rw [LogOp.apply, Connection.handleSrtlaAckSpecific]
    split
    · exact h.of_sublist (List.Sublist.refl _) rfl
    · split
      · exact h.of_sublist (List.kerase_sublist _ _) rfl
      · exact h
  | register nowMs => exact of_empty rfl
  | recover => exact of_empty rfl
  | reconnect nowMs => exact of_empty rfl

end Trim

/-- On every link whose packets go out ahead of what was acknowledged on it, the walk and the
sweep do the same from the first packet on. -/
theorem acks_walk_as_sweep (connId : UInt64) (localIp : A) (now : ℕ) (ops : List LogOp)
    (hops : Advancing (.newRegistering connId localIp now : Connection F A) ops) :
    ops.foldl (LogOp.apply Connection.handleSrtAck) (.newRegistering connId localIp now) =
      ops.foldl (LogOp.apply Connection.sweepSrtAck)
        (.newRegistering connId localIp now : Connection F A) := by
  have hrun : ∀ (ops : List LogOp) (c : Connection F A), Trim c → Advancing c ops →
      ops.foldl (LogOp.apply Connection.handleSrtAck) c =
        ops.foldl (LogOp.apply Connection.sweepSrtAck) c := by
    intro ops
    induction ops with
    | nil => exact fun _ _ _ => rfl
    | cons op ops ih =>
      rintro c h ⟨hop, hops⟩
      have hsame : op.apply Connection.sweepSrtAck c = op.apply Connection.handleSrtAck c := by
        cases op with
        | srtAck ack nowMs ownsAckedSeq => exact (h.handleSrtAck_eq ack nowMs ownsAckedSeq).symm
        | _ => rfl
      rw [List.foldl_cons, List.foldl_cons, hsame]
      exact ih _ (h.step hop) hops
  exact hrun ops _ (Trim.of_empty rfl) hops

end Histories

def twoPackets : List LogOp :=
  [.queue [0, 0, 0, 5] (some 5) 10, .flush 12, .srtAck 5 30 true,
    .queue [0, 0, 0, 6] (some 6) 40, .flush 41, .srtAck 6 60 true]

theorem acks_walk_as_sweep_two_packets :
    twoPackets.foldl (LogOp.apply Connection.handleSrtAck) (.newRegistering 7 () 1) =
      twoPackets.foldl (LogOp.apply Connection.sweepSrtAck)
        (.newRegistering 7 () 1 : Connection ℚ Unit) := by
  refine acks_walk_as_sweep 7 () 1 twoPackets
    ⟨trivial, fun p hp seq hseq => ?_, trivial, trivial, fun p hp seq hseq => ?_, trivial, trivial⟩
  · obtain rfl := List.mem_singleton.mp hp
    obtain rfl := Option.some_inj.mp hseq
    exact ⟨by decide, .inl rfl⟩
  · obtain rfl := List.mem_singleton.mp hp
    obtain rfl := Option.some_inj.mp hseq
    exact ⟨by decide, .inr (by decide +kernel)⟩

end Srtla.Uplink
