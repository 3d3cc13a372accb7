import Mathlib.Algebra.GroupWithZero.Nat
import SrtlaOutput.Media.Sink

/-! What the sink emits for one packet. The bytes come in three phases, the header, the
frame and the flush, and only a datagram that fills up in the frame phase gets the stamp of
the packet. -/

namespace Srtla
open Blocks

namespace MpegTsAvformatSink

theorem size_pos : 0 < tsDatagramSize := by decide

/-- Between two packets less than a datagram is pending, and no stamp is set. -/
structure Settled (s : MpegTsAvformatSink) : Prop where
  short : s.pending.length < tsDatagramSize
  unstamped : s.currentKeyframe = false

theorem filterMap_datagram (s : MpegTsAvformatSink) {blocks : List (List UInt8)}
    (h : ∀ b ∈ blocks, b ≠ []) : (blocks.filterMap s.datagram).map (·.bytes) = blocks := by
  induction blocks with
  | nil => rfl
  | cons b blocks ih =>
    have hb : s.datagram b =
        some
          { bytes := b
            keyframe := s.currentKeyframe
            pts90k := s.currentPts90k
            nonempty := h b List.mem_cons_self } := dif_neg _
    rw [List.filterMap_cons_some hb, List.map_cons, ih fun c hc => h c (List.mem_cons_of_mem b hc)]

theorem emitFull_bytes (s : MpegTsAvformatSink) :
    s.emitFull.2.map (·.bytes) = (cut tsDatagramSize s.pending).1 := by
  apply s.filterMap_datagram
  rintro b hb rfl
  exact absurd (length_of_mem_cut size_pos hb) (by decide)

theorem datagram_stamp {s : MpegTsAvformatSink} {bytes : List UInt8} {d : TsDatagram}
    (h : s.datagram bytes = some d) :
    d.bytes = bytes ∧ d.keyframe = s.currentKeyframe ∧ d.pts90k = s.currentPts90k := by
  unfold datagram at h
  split_ifs at h
  obtain rfl := Option.some.inj h
  exact ⟨rfl, rfl, rfl⟩

theorem of_mem_emitFull {s : MpegTsAvformatSink} {d : TsDatagram} (h : d ∈ s.emitFull.2) :
    d.bytes.length = tsDatagramSize ∧ d.keyframe = s.currentKeyframe ∧
      d.pts90k = s.currentPts90k := by
  obtain ⟨b, hb, hd⟩ := List.mem_filterMap.mp h
  obtain ⟨hbytes, hstamp⟩ := datagram_stamp hd
  refine ⟨?_, hstamp⟩
  rw [hbytes]
  exact length_of_mem_cut size_pos hb

theorem length_emitFull (s : MpegTsAvformatSink) :
    s.emitFull.2.length = s.pending.length / tsDatagramSize ∧
      s.emitFull.1.pending.length = s.pending.length % tsDatagramSize := by
  obtain ⟨hblocks, hrest⟩ := length_cut size_pos s.pending
  have hlength := congrArg List.length s.emitFull_bytes
  rw [List.length_map] at hlength
  exact ⟨hlength.trans hblocks, hrest⟩

theorem of_mem_emitAll {s : MpegTsAvformatSink} {d : TsDatagram} (h : d ∈ s.emitAll.2) :
    d.bytes.length ≤ tsDatagramSize ∧ d.keyframe = s.currentKeyframe ∧
      d.pts90k = s.currentPts90k := by
  rcases List.mem_append.mp h with hfull | hlast
  · obtain ⟨hsize, hstamp⟩ := of_mem_emitFull hfull
    exact ⟨Nat.le_of_eq hsize, hstamp⟩
  · obtain ⟨hbytes, hstamp⟩ := datagram_stamp (Option.mem_toList.mp hlast)
    refine ⟨?_, hstamp⟩
    rw [hbytes, (length_emitFull s).2]
    exact Nat.le_of_lt (Nat.mod_lt _ size_pos)

theorem emitAll_bytes (s : MpegTsAvformatSink) :
    (s.emitAll.2.map (·.bytes)).flatten = s.pending := by
  have hlast : ((s.datagram s.emitFull.1.pending).toList.map (·.bytes)).flatten =
      s.emitFull.1.pending := by
    unfold datagram
    split_ifs with h
    · rw [h]
      rfl
    · simp
  rw [emitAll, List.map_append, List.flatten_append, emitFull_bytes, hlast]
  exact flatten_cut size_pos s.pending

theorem emitFull_of_short {s : MpegTsAvformatSink} (h : s.pending.length < tsDatagramSize) :
    s.emitFull = (s, []) := by
  rw [emitFull, cut_of_lt h]
  rfl

theorem writeCallbacks_eq {s : MpegTsAvformatSink} (h : s.pending.length < tsDatagramSize)
    (buffers : List (List UInt8)) :
    s.writeCallbacks buffers = { s with pending := s.pending ++ buffers.flatten }.emitFull := by
  -- what one buffer leaves pending is short again, so the rest is cut from there
  induction buffers generalizing s with
  | nil =>
    rw [writeCallbacks, List.flatten_nil, List.append_nil]
    exact (emitFull_of_short h).symm
  | cons buffer buffers ih =>
    have hone : s.writeCallback buffer = { s with pending := s.pending ++ buffer }.emitFull := by
      unfold writeCallback
      split_ifs with hempty
      · rw [List.isEmpty_iff.mp hempty, List.append_nil]
        exact (emitFull_of_short h).symm
      · rfl
    have hshort : ({ s with pending := s.pending ++ buffer }.emitFull).1.pending.length <
        tsDatagramSize := by
      rw [(length_emitFull _).2]
      exact Nat.mod_lt _ size_pos
    rw [writeCallbacks, hone, ih hshort, List.flatten_cons, ← List.append_assoc]
    simp only [emitFull]
    rw [cut_append size_pos (s.pending ++ buffer) buffers.flatten, List.filterMap_append]
    rfl

theorem flush_eq {s : MpegTsAvformatSink} (h : s.pending.length < tsDatagramSize) (av : AvTrace)
    (hheader : s.headerWritten = true) (hhealthy : s.healthy = true) :
    s.flush av = { s with pending := s.pending ++ av.flush.flatten }.emitAll := by
  have hopen : (!s.headerWritten || !s.healthy) = false := by
    rw [hheader, hhealthy]
    rfl
  have hrest : ({ s with pending := s.pending ++ av.flush.flatten }.emitFull).1.pending.length <
      tsDatagramSize := by
    rw [(length_emitFull _).2]
    exact Nat.mod_lt _ size_pos
  rw [flush, hopen, writeCallbacks_eq h]
  show (_, _ ++ (_ ++ _)) = _
  rw [emitFull_of_short hrest]
  rfl

theorem writeCallbacks_settled {s : MpegTsAvformatSink} (h : s.Settled)
    (buffers : List (List UInt8)) : (s.writeCallbacks buffers).1.Settled := by
  rw [writeCallbacks_eq h.short]
  refine ⟨?_, h.unstamped⟩
  rw [(length_emitFull _).2]
  exact Nat.mod_lt _ size_pos

def carried (s : MpegTsAvformatSink) (av : AvTrace) : Nat :=
  if s.headerWritten then s.pending.length else av.header.flatten.length % tsDatagramSize

theorem reset_settled (s : MpegTsAvformatSink) : s.reset.Settled := ⟨size_pos, rfl⟩

theorem destroyContext_settled {s : MpegTsAvformatSink} (h : s.Settled) :
    s.destroyContext.Settled := ⟨size_pos, h.unstamped⟩

section Phases
variable {s : MpegTsAvformatSink} (h : s.Settled) (packet : EncoderPacket) (av : AvTrace)
include h

theorem ensureStarted_spec :
    (s.ensureStarted av).1.Settled ∧ (∀ d ∈ (s.ensureStarted av).2.1, d.keyframe = false) ∧
      (av.header.flatten.length < tsDatagramSize → (s.ensureStarted av).2.1 = []) := by
  have hdestroyed := destroyContext_settled h
  have hwritten := writeCallbacks_settled hdestroyed av.header
  have heq := writeCallbacks_eq hdestroyed.short av.header
  have hstamp : ∀ d ∈ (s.destroyContext.writeCallbacks av.header).2, d.keyframe = false := by
    rw [heq]
    intro d hd
    exact (of_mem_emitFull hd).2.1.trans h.unstamped
  have hshort : av.header.flatten.length < tsDatagramSize →
      (s.destroyContext.writeCallbacks av.header).2 = [] := by
    intro hlt
    have hlength : (s.destroyContext.writeCallbacks av.header).2.length = 0 := by
      rw [heq, (length_emitFull _).1]
      exact Nat.div_eq_of_lt hlt
    exact List.length_eq_zero_iff.mp hlength
  unfold ensureStarted
  split_ifs
  · exact ⟨h, by simp, fun _ => rfl⟩
  · dsimp only
    cases av.startError with
    | none => exact ⟨⟨hwritten.short, hwritten.unstamped⟩, hstamp, hshort⟩
    | some error => exact ⟨⟨size_pos, hwritten.unstamped⟩, hstamp, hshort⟩

theorem writePacket_spec :
    (s.writePacket packet av).1.Settled ∧
      ∀ d ∈ (s.writePacket packet av).2.1, d.keyframe = packet.keyframe ∧
        d.pts90k = av.pts90k ∧ d.bytes.length = tsDatagramSize := by
  unfold writePacket
  split_ifs
  · exact ⟨h, by simp⟩
  · exact ⟨⟨h.short, h.unstamped⟩, by simp⟩
  · exact ⟨h, by simp⟩
  · dsimp only
    rw [writeCallbacks_eq
      (s := { s with currentKeyframe := packet.keyframe, currentPts90k := av.pts90k }) h.short]
    have hrest : ∀ t : MpegTsAvformatSink, t.emitFull.1.pending.length < tsDatagramSize := by
      intro t
      rw [(length_emitFull t).2]
      exact Nat.mod_lt _ size_pos
    cases av.frameError <;>
    · refine ⟨⟨hrest _, rfl⟩, ?_⟩
      intro d hd
      obtain ⟨hsize, hkeyframe, hpts⟩ := of_mem_emitFull hd
      exact ⟨hkeyframe, hpts, hsize⟩

theorem flush_spec :
    (s.flush av).1.Settled ∧ ∀ d ∈ (s.flush av).2, d.keyframe = false ∧
      d.pts90k = s.currentPts90k ∧ d.bytes.length ≤ tsDatagramSize := by
  unfold flush
  split_ifs
  · exact ⟨h, by simp⟩
  · dsimp only
    rw [writeCallbacks_eq h.short]
    refine ⟨⟨size_pos, h.unstamped⟩, ?_⟩
    intro d hd
    rcases List.mem_append.mp hd with hfull | hall
    · obtain ⟨hsize, hkeyframe, hpts⟩ := of_mem_emitFull hfull
      exact ⟨hkeyframe.trans h.unstamped, hpts, Nat.le_of_eq hsize⟩
    · obtain ⟨hsize, hkeyframe, hpts⟩ := of_mem_emitAll hall
      exact ⟨hkeyframe.trans h.unstamped, hpts, hsize⟩

theorem ensureStarted_ok (hok : (s.ensureStarted av).2.2 = true) :
    (s.ensureStarted av).1.headerWritten = true ∧
      (s.ensureStarted av).1.healthy = s.healthy ∧
      (s.ensureStarted av).1.pending.length = s.carried av := by
  have heq := writeCallbacks_eq (destroyContext_settled h).short av.header
  unfold ensureStarted at hok ⊢
  unfold carried
  split_ifs at hok ⊢ with hheader
  · exact ⟨hheader, rfl, rfl⟩
  · dsimp only at hok ⊢
    cases hstart : av.startError with
    | some error => simp [hstart] at hok
    | none =>
      show true = true ∧ (s.destroyContext.writeCallbacks av.header).1.healthy = s.healthy ∧
        (s.destroyContext.writeCallbacks av.header).1.pending.length = _
      rw [heq, (length_emitFull _).2]
      exact ⟨rfl, rfl, rfl⟩

theorem writePacket_ok (hok : (s.writePacket packet av).2.2 = true) :
    (s.writePacket packet av).1.headerWritten = s.headerWritten ∧
      (s.writePacket packet av).1.healthy = s.healthy ∧
      (s.writePacket packet av).1.currentPts90k = av.pts90k ∧
      (s.writePacket packet av).2.1.length =
        (s.pending.length + av.frame.flatten.length) / tsDatagramSize ∧
      (s.writePacket packet av).1.pending.length =
        (s.pending.length + av.frame.flatten.length) % tsDatagramSize := by
  have heq := writeCallbacks_eq
    (s := { s with currentKeyframe := packet.keyframe, currentPts90k := av.pts90k })
    h.short av.frame
  unfold writePacket at hok ⊢
  split_ifs at hok ⊢
  dsimp only at hok ⊢
  rw [heq]
  cases hframe : av.frameError with
  | some error => simp [hframe] at hok
  | none =>
    refine ⟨rfl, rfl, rfl, ?_, ?_⟩
    · show (emitFull _).2.length = _
      rw [(length_emitFull _).1, List.length_append]
    · show (emitFull _).1.pending.length = _
      rw [(length_emitFull _).2, List.length_append]

theorem flush_ok (hheader : s.headerWritten = true) (hhealthy : s.healthy = true) :
    ((s.flush av).2.map (·.bytes.length)).sum = s.pending.length + av.flush.flatten.length := by
  have hlength := congrArg List.length (emitAll_bytes
    { s with pending := s.pending ++ av.flush.flatten })
  rw [← flush_eq h.short av hheader hhealthy] at hlength
  rwa [List.length_flatten, List.length_append, List.map_map] at hlength

end Phases

section Packet
variable (s : MpegTsAvformatSink) (packet : EncoderPacket) (av : AvTrace)

theorem size_of_written {s : MpegTsAvformatSink} {packet : EncoderPacket} {av : AvTrace}
    (hok : (s.write packet av).2.2 = true) : packet.size ≠ 0 := by
  intro hsize
  simp [write, hsize] at hok

theorem mux_of_written (hok : (s.write packet av).2.2 = true) :
    (s.ensureStarted av).2.2 = true ∧
      ((s.ensureStarted av).1.writePacket packet av).2.2 = true ∧ s.healthy = true ∧
      s.mux packet av = ((((s.ensureStarted av).1.writePacket packet av).1.flush av).1,
        (s.ensureStarted av).2.1 ++ ((s.ensureStarted av).1.writePacket packet av).2.1 ++
          (((s.ensureStarted av).1.writePacket packet av).1.flush av).2) := by
  unfold mux
  simp only [hok]
  unfold write at hok ⊢
  cases hskip : (decide (packet.size = 0) || !s.healthy) with
  | true => simp [hskip] at hok
  | false =>
    have hhealthy : s.healthy = true := by
      rw [Bool.or_eq_false_iff, Bool.not_eq_false'] at hskip
      exact hskip.2
    cases hstarted : (s.ensureStarted av).2.2 with
    | false => simp [hskip, hstarted] at hok
    | true =>
      simp only [hskip, hstarted] at hok
      exact ⟨rfl, hok, hhealthy, by simp [hstarted]⟩

theorem mux_of_not_written (hok : (s.write packet av).2.2 = false) :
    s.mux packet av = (s, []) ∨
      s.mux packet av = ((s.ensureStarted av).1, (s.ensureStarted av).2.1) ∨
      s.mux packet av = (((s.ensureStarted av).1.writePacket packet av).1,
        (s.ensureStarted av).2.1 ++ ((s.ensureStarted av).1.writePacket packet av).2.1) := by
  unfold mux
  simp only [hok]
  unfold write
  cases hskip : (decide (packet.size = 0) || !s.healthy) with
  | true => exact .inl (by simp)
  | false =>
    cases hstarted : (s.ensureStarted av).2.2 with
    | false => exact .inr (.inl (by simp [hstarted]))
    | true => exact .inr (.inr (by simp [hstarted]))

variable {s}

theorem mux_spec (h : s.Settled) :
    (s.mux packet av).1.Settled ∧ ∃ head body tail, (s.mux packet av).2 = head ++ body ++ tail ∧
      (∀ d ∈ head, d.keyframe = false) ∧
      (av.header.flatten.length < tsDatagramSize → head = []) ∧
      (∀ d ∈ body, d.keyframe = packet.keyframe) ∧ ∀ d ∈ tail, d.keyframe = false := by
  obtain ⟨hstarted, hhead, hshort⟩ := ensureStarted_spec h av
  obtain ⟨hpacket, hbody⟩ := writePacket_spec hstarted packet av
  obtain ⟨hflush, htail⟩ := flush_spec hpacket av
  have hstamp := fun d hd => (hbody d hd).1
  cases hok : (s.write packet av).2.2 with
  | true =>
    obtain ⟨-, -, -, hmux⟩ := mux_of_written s packet av hok
    rw [hmux]
    exact ⟨hflush, _, _, _, rfl, hhead, hshort, hstamp, fun d hd => (htail d hd).1⟩
  | false =>
    -- the packet is refused, the start fails, or the frame does
    rcases mux_of_not_written s packet av hok with hmux | hmux | hmux
    · rw [hmux]
      exact ⟨h, [], [], [], by simp, by simp, fun _ => rfl, by simp, by simp⟩
    · rw [hmux]
      exact ⟨hstarted, _, [], [], by simp, hhead, hshort, by simp, by simp⟩
    · rw [hmux]
      exact ⟨hpacket, _, _, [], by simp, hhead, hshort, hstamp, by simp⟩

theorem mux_written (h : s.Settled) (hok : (s.write packet av).2.2 = true) :
    ∃ head body tail, (s.mux packet av).2 = head ++ body ++ tail ∧
      (∀ d ∈ head, d.keyframe = false) ∧
      (∀ d ∈ body, d.keyframe = packet.keyframe ∧ d.pts90k = av.pts90k ∧
        d.bytes.length = tsDatagramSize) ∧
      body.length = (s.carried av + av.frame.flatten.length) / tsDatagramSize ∧
      (∀ d ∈ tail, d.keyframe = false ∧ d.pts90k = av.pts90k ∧
        d.bytes.length ≤ tsDatagramSize) ∧
      (tail.map (·.bytes.length)).sum =
        (s.carried av + av.frame.flatten.length) % tsDatagramSize + av.flush.flatten.length := by
  obtain ⟨hstarted, hhead, -⟩ := ensureStarted_spec h av
  obtain ⟨hpacket, hbody⟩ := writePacket_spec hstarted packet av
  obtain ⟨-, htail⟩ := flush_spec hpacket av
  obtain ⟨hstart, hwrite, hhealthy, hmux⟩ := mux_of_written s packet av hok
  obtain ⟨hheader, hstill, hcarried⟩ := ensureStarted_ok h av hstart
  obtain ⟨hheader', hhealthy', hpts, hcount, hrest⟩ := writePacket_ok hstarted packet av hwrite
  rw [hcarried] at hcount hrest
  rw [hmux]
  refine ⟨_, _, _, rfl, hhead, hbody, hcount, ?_, ?_⟩
  · intro d hd
    obtain ⟨hkeyframe, hstamp, hsize⟩ := htail d hd
    exact ⟨hkeyframe, hstamp.trans hpts, hsize⟩
  · rw [flush_ok hpacket av (hheader'.trans hheader) (hhealthy'.trans (hstill.trans hhealthy)), hrest]

end Packet

end MpegTsAvformatSink

structure IdleSink where
  sink : MpegTsAvformatSink
  settled : sink.Settled
  deriving DecidableEq

namespace IdleSink

def fresh : IdleSink := ⟨{}, MpegTsAvformatSink.size_pos, rfl⟩

def reset (s : IdleSink) : IdleSink := ⟨s.sink.reset, s.sink.reset_settled⟩

def mux (s : IdleSink) (packet : EncoderPacket) (av : AvTrace) : IdleSink × List TsDatagram :=
  (⟨(s.sink.mux packet av).1, (MpegTsAvformatSink.mux_spec packet av s.settled).1⟩,
    (s.sink.mux packet av).2)

theorem mux_stamped {s : IdleSink} {packet : EncoderPacket} {av : AvTrace}
    (h : ∃ d ∈ (s.mux packet av).2, d.keyframe = true) :
    packet.keyframe = true ∧ (av.header.flatten.length < tsDatagramSize →
      ∀ d ∈ (s.mux packet av).2.head?, d.keyframe = true) := by
  obtain ⟨-, head, body, tail, hmux, hhead, hheader, hbody, htail⟩ :=
    MpegTsAvformatSink.mux_spec packet av s.settled
  rw [show (s.mux packet av).2 = head ++ body ++ tail from hmux] at h ⊢
  obtain ⟨d, hd, hkey⟩ := h
  have hin : d ∈ body := by
    rcases List.mem_append.mp hd with hd | hd
    · rcases List.mem_append.mp hd with hd | hd
      · rw [hhead d hd] at hkey
        cases hkey
      · exact hd
    · rw [htail d hd] at hkey
      cases hkey
  have hpacket : packet.keyframe = true := (hbody d hin).symm.trans hkey
  refine ⟨hpacket, fun hshort => ?_⟩
  obtain ⟨first, rest, rfl⟩ := List.exists_cons_of_ne_nil (List.ne_nil_of_mem hin)
  rw [hheader hshort]
  rintro e ⟨⟩
  exact (hbody first List.mem_cons_self).trans hpacket

end IdleSink
end Srtla
