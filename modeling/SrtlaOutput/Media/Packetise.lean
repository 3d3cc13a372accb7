import SrtlaOutput.Lib.Schedule
import SrtlaOutput.Media.Phases

/-! The bytes that libavformat writes and the datagrams that the sink makes of them, over any
calls on the sink. Only the rest that is pending when a context is destroyed gets lost. -/

namespace Srtla
open Blocks

/-- What one context wrote, and what was pending when it was destroyed. -/
structure SinkContext where
  written : List UInt8
  lost : List UInt8
  deriving DecidableEq, Repr

def SinkContext.kept (c : SinkContext) : List UInt8 :=
  c.written.take (c.written.length - c.lost.length)

/-- The sink with its history: the destroyed contexts, the bytes written by the present one, and
the datagrams, with a mark for the last one of a flush. `whole` says that every flush found
whole transport packets written, `failed` that libavformat refused a packet of the context. -/
structure SinkHistory where
  sink : MpegTsAvformatSink := {}
  contexts : List SinkContext := []
  written : List UInt8 := []
  emitted : List (TsDatagram × Bool) := []
  whole : Bool := true
  failed : Bool := false

def tsPacketSize : Nat := 188

/-- A call on the sink, or what libavformat does through its context. -/
inductive SinkStep
  | ensureStarted (av : AvTrace)
  | stamp (keyframe : Bool) (pts90k : Int)
  | writeCallback (buffer : List UInt8)
  | fail (message : String)
  | flush (av : AvTrace)
  | reset

namespace SinkHistory

def markLast (ds : List TsDatagram) : List (TsDatagram × Bool) :=
  ds.dropLast.map (·, false) ++ ds.getLast?.toList.map (·, true)

def wrote (t : SinkHistory) (sink : MpegTsAvformatSink) (bytes : List UInt8)
    (ds : List TsDatagram) : SinkHistory :=
  { t with sink, written := t.written ++ bytes, emitted := t.emitted ++ ds.map (·, false) }

def destroyed (t : SinkHistory) (sink : MpegTsAvformatSink) : SinkHistory :=
  { t with sink, contexts := t.contexts ++ [⟨t.written, t.sink.pending⟩], written := [] }

def opened (t : SinkHistory) (av : AvTrace) : SinkHistory :=
  (t.destroyed t.sink.destroyContext).wrote (t.sink.destroyContext.writeCallbacks av.header).1
    av.header.flatten (t.sink.destroyContext.writeCallbacks av.header).2

/-- libavformat writes only through a context that is there, and `write` refuses an unhealthy
sink before it looks for one. -/
def next (t : SinkHistory) : SinkStep → Option SinkHistory
  | .ensureStarted av =>
    if !t.sink.healthy then none
    else if t.sink.headerWritten then some t
    else if av.startError.isSome then some ((t.opened av).destroyed (t.sink.ensureStarted av).1)
    else some { t.opened av with sink := (t.sink.ensureStarted av).1 }
  | .stamp keyframe pts90k =>
    some { t with sink := { t.sink with currentKeyframe := keyframe, currentPts90k := pts90k } }
  | .writeCallback buffer =>
    if t.sink.headerWritten then
      some (t.wrote (t.sink.writeCallback buffer).1 buffer (t.sink.writeCallback buffer).2)
    else none
  | .fail message => some { t with sink := t.sink.setError message, failed := true }
  | .flush av =>
    if !t.sink.headerWritten || !t.sink.healthy then some t
    else
      some
        { t with
          sink := (t.sink.flush av).1
          written := t.written ++ av.flush.flatten
          emitted := t.emitted ++ markLast (t.sink.flush av).2
          whole := t.whole && decide (tsPacketSize ∣ (t.written ++ av.flush.flatten).length) }
  | .reset => some { t.destroyed t.sink.reset with failed := false }

def emittedBytes (t : SinkHistory) : List UInt8 := (t.emitted.map (·.1.bytes)).flatten

/-- The datagrams and what is pending are what was written, without the ends of the destroyed
contexts. -/
structure Packetised (t : SinkHistory) : Prop where
  conserved : t.emittedBytes ++ t.sink.pending = t.contexts.flatMap (·.kept) ++ t.written
  lost : ∀ c ∈ t.contexts, c.kept ++ c.lost = c.written
  sized : ∀ d ∈ t.emitted, d.1.bytes ≠ [] ∧ d.1.bytes.length ≤ tsDatagramSize ∧
    (d.2 = false → d.1.bytes.length = tsDatagramSize)
  flushed : t.failed = false → ∀ av t', t.next (.flush av) = some t' → t'.sink.pending = []
  aligned : t.whole = true → ∀ d ∈ t.emitted, tsPacketSize ∣ d.1.bytes.length

theorem markLast_fst (ds : List TsDatagram) : (markLast ds).map Prod.fst = ds := by
  rcases ds.eq_nil_or_concat with rfl | ⟨ds, d, rfl⟩
  · rfl
  · simp [markLast, Function.comp_def]

theorem emittedBytes_append {t : SinkHistory} (ds : List (TsDatagram × Bool)) :
    ((t.emitted ++ ds).map (·.1.bytes)).flatten =
      t.emittedBytes ++ ((ds.map Prod.fst).map (·.bytes)).flatten := by
  rw [List.map_append, List.flatten_append, List.map_map]
  rfl

structure Accounted (t : SinkHistory) : Prop where
  short : t.sink.pending.length < tsDatagramSize
  sent : ∃ sent, sent ++ t.sink.pending = t.written ∧
    t.emittedBytes = t.contexts.flatMap (·.kept) ++ sent
  lost : ∀ c ∈ t.contexts, c.kept ++ c.lost = c.written
  sized : ∀ d ∈ t.emitted, d.1.bytes.length ≤ tsDatagramSize ∧
    (d.2 = false → d.1.bytes.length = tsDatagramSize)
  aligned : t.whole = true → (∀ d ∈ t.emitted, tsPacketSize ∣ d.1.bytes.length) ∧
    t.sink.pending.length % tsPacketSize = t.written.length % tsPacketSize

theorem kept_of_suffix {sent lost : List UInt8} :
    (⟨sent ++ lost, lost⟩ : SinkContext).kept = sent := by
  simp [SinkContext.kept]

theorem packet_dvd_datagram : tsPacketSize ∣ tsDatagramSize := by decide

theorem Accounted.of_pending {t : SinkHistory} (h : t.Accounted) {sink : MpegTsAvformatSink}
    (hpending : sink.pending = t.sink.pending) (failed : Bool) :
    { t with sink, failed }.Accounted := by
  refine ⟨?_, ?_, h.lost, h.sized, ?_⟩
  · rw [hpending]
    exact h.short
  · rw [hpending]
    exact h.sent
  · rw [hpending]
    exact h.aligned

theorem Accounted.destroyed {t : SinkHistory} (h : t.Accounted) {sink : MpegTsAvformatSink}
    (hpending : sink.pending = []) : (t.destroyed sink).Accounted := by
  obtain ⟨sent, hwritten, hemitted⟩ := h.sent
  have hkept : (⟨t.written, t.sink.pending⟩ : SinkContext).kept = sent := by
    rw [← hwritten]
    exact kept_of_suffix
  refine ⟨?_, ⟨[], hpending, ?_⟩, ?_, h.sized, ?_⟩
  · rw [SinkHistory.destroyed, hpending]
    exact MpegTsAvformatSink.size_pos
  · show t.emittedBytes = (t.contexts ++ [_]).flatMap _ ++ []
    rw [hemitted, List.flatMap_append, List.flatMap_singleton, hkept, List.append_nil]
  · intro c hc
    rcases List.mem_append.mp hc with hold | hnew
    · exact h.lost c hold
    · rw [List.mem_singleton] at hnew
      subst hnew
      rw [hkept]
      exact hwritten
  · intro hwhole
    refine ⟨(h.aligned hwhole).1, ?_⟩
    rw [SinkHistory.destroyed, hpending]

theorem Accounted.wrote {t : SinkHistory} (h : t.Accounted) {s : MpegTsAvformatSink}
    {bytes : List UInt8} (hpending : s.pending = t.sink.pending ++ bytes) :
    (t.wrote s.emitFull.1 bytes s.emitFull.2).Accounted := by
  obtain ⟨sent, hwritten, hemitted⟩ := h.sent
  have hlength := (MpegTsAvformatSink.length_emitFull s).2
  have hcut : (s.emitFull.2.map (·.bytes)).flatten ++ s.emitFull.1.pending =
      t.sink.pending ++ bytes := by
    rw [s.emitFull_bytes, ← hpending]
    exact flatten_cut MpegTsAvformatSink.size_pos s.pending
  have hfull : ∀ d ∈ s.emitFull.2.map (·, false), d.1.bytes.length = tsDatagramSize := by
    intro d hd
    obtain ⟨d', hd', rfl⟩ := List.mem_map.mp hd
    exact (MpegTsAvformatSink.of_mem_emitFull hd').1
  have hfst : (s.emitFull.2.map (·, false)).map Prod.fst = s.emitFull.2 := by
    rw [List.map_map]
    exact List.map_id _
  refine ⟨?_, ⟨sent ++ (s.emitFull.2.map (·.bytes)).flatten, ?_, ?_⟩, h.lost, ?_, ?_⟩
  · rw [SinkHistory.wrote, hlength]
    exact Nat.mod_lt _ MpegTsAvformatSink.size_pos
  · rw [SinkHistory.wrote, List.append_assoc, hcut, ← List.append_assoc, hwritten]
  · rw [emittedBytes, SinkHistory.wrote, emittedBytes_append, hfst, hemitted, List.append_assoc]
  · intro d hd
    rcases List.mem_append.mp hd with hold | hnew
    · exact h.sized d hold
    · exact ⟨Nat.le_of_eq (hfull d hnew), fun _ => hfull d hnew⟩
  · intro hwhole
    obtain ⟨haligned, hrest⟩ := h.aligned hwhole
    constructor
    · intro d hd
      rcases List.mem_append.mp hd with hold | hnew
      · exact haligned d hold
      · rw [hfull d hnew]
        exact packet_dvd_datagram
    · rw [SinkHistory.wrote, hlength, Nat.mod_mod_of_dvd _ packet_dvd_datagram, hpending,
        List.length_append, List.length_append, Nat.add_mod, hrest, ← Nat.add_mod]

theorem of_mem_markLast {ds : List TsDatagram} {d : TsDatagram × Bool} (h : d ∈ markLast ds) :
    d.1 ∈ ds ∧ (d.2 = false → d.1 ∈ ds.dropLast) := by
  rcases List.mem_append.mp h with hd | hd
  · obtain ⟨e, he, rfl⟩ := List.mem_map.mp hd
    exact ⟨List.dropLast_subset _ he, fun _ => he⟩
  · obtain ⟨e, he, rfl⟩ := List.mem_map.mp hd
    exact ⟨List.mem_of_getLast? (Option.mem_toList.mp he), fun hmark => by cases hmark⟩

theorem emitAll_sized (s : MpegTsAvformatSink) :
    ∀ d ∈ markLast s.emitAll.2, d.1.bytes.length ≤ tsDatagramSize ∧
      (d.2 = false → d.1.bytes.length = tsDatagramSize) := by
  intro d hd
  obtain ⟨hmem, hinit⟩ := of_mem_markLast hd
  refine ⟨(MpegTsAvformatSink.of_mem_emitAll hmem).1, fun hmark => ?_⟩
  have hfull : d.1 ∈ s.emitFull.2 := by
    have hdrop := hinit hmark
    unfold MpegTsAvformatSink.emitAll at hdrop
    cases hlast : s.datagram s.emitFull.1.pending with
    | none =>
      rw [hlast, Option.toList_none, List.append_nil] at hdrop
      exact List.dropLast_subset _ hdrop
    | some last =>
      rw [hlast, Option.toList_some, List.dropLast_concat] at hdrop
      exact hdrop
  exact (MpegTsAvformatSink.of_mem_emitFull hfull).1

theorem emitAll_aligned {s : MpegTsAvformatSink} (h : tsPacketSize ∣ s.pending.length)
    {d : TsDatagram} (hd : d ∈ s.emitAll.2) : tsPacketSize ∣ d.bytes.length := by
  rcases List.mem_append.mp hd with hfull | hlast
  · rw [(MpegTsAvformatSink.of_mem_emitFull hfull).1]
    exact packet_dvd_datagram
  · obtain ⟨hbytes, -⟩ := MpegTsAvformatSink.datagram_stamp (Option.mem_toList.mp hlast)
    rw [hbytes, (MpegTsAvformatSink.length_emitFull s).2]
    exact (Nat.dvd_mod_iff packet_dvd_datagram).mpr h

theorem Accounted.flushed {t : SinkHistory} (h : t.Accounted) {av : AvTrace}
    (hheader : t.sink.headerWritten = true) (hhealthy : t.sink.healthy = true) :
    ({ t with
        sink := (t.sink.flush av).1
        written := t.written ++ av.flush.flatten
        emitted := t.emitted ++ markLast (t.sink.flush av).2
        whole := t.whole &&
          decide (tsPacketSize ∣ (t.written ++ av.flush.flatten).length) } : SinkHistory).Accounted := by
  obtain ⟨sent, hwritten, hemitted⟩ := h.sent
  rw [MpegTsAvformatSink.flush_eq h.short av hheader hhealthy]
  have hbytes := MpegTsAvformatSink.emitAll_bytes
    { t.sink with pending := t.sink.pending ++ av.flush.flatten }
  have hsized := emitAll_sized { t.sink with pending := t.sink.pending ++ av.flush.flatten }
  refine ⟨MpegTsAvformatSink.size_pos, ⟨t.written ++ av.flush.flatten, List.append_nil _, ?_⟩,
    h.lost, ?_, ?_⟩
  · rw [emittedBytes, emittedBytes_append, markLast_fst, hbytes, hemitted, ← hwritten]
    simp only [List.append_assoc]
  · intro d hd
    rcases List.mem_append.mp hd with hold | hnew
    · exact h.sized d hold
    · exact hsized d hnew
  · intro hwhole
    obtain ⟨hbefore, hnow⟩ := Bool.and_eq_true_iff.mp hwhole
    obtain ⟨haligned, hrest⟩ := h.aligned hbefore
    have hmultiple : tsPacketSize ∣ (t.sink.pending ++ av.flush.flatten).length := by
      have hdvd := of_decide_eq_true hnow
      rw [List.length_append, Nat.dvd_iff_mod_eq_zero] at hdvd ⊢
      rw [Nat.add_mod, hrest, ← Nat.add_mod]
      exact hdvd
    constructor
    · intro d hd
      rcases List.mem_append.mp hd with hold | hnew
      · exact haligned d hold
      · exact emitAll_aligned hmultiple (of_mem_markLast hnew).1
    · exact (Nat.mod_eq_zero_of_dvd (of_decide_eq_true hnow)).symm

theorem Accounted.opened {t : SinkHistory} (h : t.Accounted) (av : AvTrace) :
    (t.opened av).Accounted := by
  have heq := MpegTsAvformatSink.writeCallbacks_eq (s := t.sink.destroyContext)
    MpegTsAvformatSink.size_pos av.header
  rw [SinkHistory.opened, heq]
  exact (h.destroyed rfl).wrote rfl

theorem ensureStarted_pending {t : SinkHistory} {av : AvTrace}
    (hclosed : t.sink.headerWritten = false) :
    (av.startError.isSome = true → (t.sink.ensureStarted av).1.pending = [] ∧
      (t.sink.ensureStarted av).1.headerWritten = false) ∧
    (av.startError.isSome = false →
      (t.sink.ensureStarted av).1.pending = (t.opened av).sink.pending ∧
        (t.sink.ensureStarted av).1.headerWritten = true ∧
        (t.sink.ensureStarted av).1.healthy = t.sink.healthy) := by
  have heq := MpegTsAvformatSink.writeCallbacks_eq (s := t.sink.destroyContext)
    MpegTsAvformatSink.size_pos av.header
  have hhealthy : (t.sink.destroyContext.writeCallbacks av.header).1.healthy = t.sink.healthy := by
    rw [heq]
    rfl
  unfold MpegTsAvformatSink.ensureStarted
  rw [hclosed]
  cases av.startError with
  | some error => exact ⟨fun _ => ⟨rfl, rfl⟩, fun h => by cases h⟩
  | none =>
    refine ⟨fun h => ?_, fun _ => ⟨rfl, rfl, hhealthy⟩⟩
    cases h

/-- Between two steps: a closed sink has nothing pending, and an open one is healthy until a
packet fails. -/
structure Sound (t : SinkHistory) : Prop where
  accounted : t.Accounted
  closed : t.sink.headerWritten = false → t.sink.pending = []
  healthy : t.failed = false → t.sink.headerWritten = true → t.sink.healthy = true

theorem sound_empty : Sound {} := by
  refine ⟨⟨MpegTsAvformatSink.size_pos, ⟨[], rfl, rfl⟩, ?_, ?_, fun _ => ⟨?_, rfl⟩⟩,
    fun _ => rfl, fun _ h => ?_⟩
  · simp
  · simp
  · simp
  · cases h

theorem Sound.next {t t' : SinkHistory} {l : SinkStep} (h : t.Sound)
    (hstep : t.next l = some t') : t'.Sound := by
  cases l with
  | ensureStarted av =>
    simp only [SinkHistory.next] at hstep
    split_ifs at hstep with hhealthy hheader hfails <;> obtain rfl := Option.some.inj hstep
    · exact h
    · have hpending := (ensureStarted_pending (eq_false_of_ne_true hheader)).1 hfails
      refine ⟨(h.accounted.opened av).destroyed hpending.1, fun _ => hpending.1, ?_⟩
      intro _ hopen
      exact absurd hopen (Bool.eq_false_iff.mp hpending.2)
    · obtain ⟨hpending, hopen, hstill⟩ := (ensureStarted_pending
        (eq_false_of_ne_true hheader)).2 (eq_false_of_ne_true hfails)
      refine ⟨(h.accounted.opened av).of_pending hpending _, fun hclosed => ?_, fun _ _ => ?_⟩
      · exact absurd hopen (Bool.eq_false_iff.mp hclosed)
      · exact hstill.trans (by simpa using hhealthy)
  | stamp keyframe pts90k =>
    obtain rfl := Option.some.inj hstep
    refine ⟨?_, h.closed, h.healthy⟩
    apply h.accounted.of_pending
    rfl
  | writeCallback buffer =>
    simp only [SinkHistory.next] at hstep
    split_ifs at hstep with hheader
    obtain rfl := Option.some.inj hstep
    have hone : t.sink.writeCallback buffer = { t.sink with
        pending := t.sink.pending ++ buffer }.emitFull := by
      have heq := MpegTsAvformatSink.writeCallbacks_eq h.accounted.short [buffer]
      simpa [MpegTsAvformatSink.writeCallbacks] using heq
    rw [hone]
    refine ⟨h.accounted.wrote rfl, fun hclosed => ?_, h.healthy⟩
    exact absurd hheader (Bool.eq_false_iff.mp hclosed)
  | fail message =>
    obtain rfl := Option.some.inj hstep
    refine ⟨?_, h.closed, fun hfailed => by cases hfailed⟩
    apply h.accounted.of_pending
    rfl
  | flush av =>
    simp only [SinkHistory.next] at hstep
    split_ifs at hstep with hrefused <;> obtain rfl := Option.some.inj hstep
    · exact h
    · obtain ⟨hheader, hhealthy⟩ : t.sink.headerWritten = true ∧ t.sink.healthy = true := by
        simpa using hrefused
      have hflush := MpegTsAvformatSink.flush_eq h.accounted.short av hheader hhealthy
      refine ⟨h.accounted.flushed hheader hhealthy, fun _ => ?_, fun _ _ => ?_⟩
      · exact congrArg (·.1.pending) hflush
      · exact (congrArg (·.1.healthy) hflush).trans hhealthy
  | reset =>
    obtain rfl := Option.some.inj hstep
    have hdestroyed : (t.destroyed t.sink.reset).Accounted := h.accounted.destroyed rfl
    exact ⟨hdestroyed.of_pending rfl _, fun _ => rfl, fun _ hopen => by cases hopen⟩

theorem Sound.accounts {t : SinkHistory} (h : t.Sound) : t.Packetised := by
  obtain ⟨sent, hwritten, hemitted⟩ := h.accounted.sent
  refine ⟨?_, h.accounted.lost, ?_, ?_, fun hwhole => (h.accounted.aligned hwhole).1⟩
  · rw [hemitted, List.append_assoc, hwritten]
  · intro d hd
    exact ⟨d.1.nonempty, h.accounted.sized d hd⟩
  · intro hfailed av t' hflush
    simp only [SinkHistory.next] at hflush
    split_ifs at hflush with hrefused <;> obtain rfl := Option.some.inj hflush
    · apply h.closed
      by_contra hopen
      rw [Bool.not_eq_false] at hopen
      rw [hopen, h.healthy hfailed hopen] at hrefused
      cases hrefused
    · obtain ⟨hheader, hhealthy⟩ : t.sink.headerWritten = true ∧ t.sink.healthy = true := by
        simpa using hrefused
      exact congrArg (·.1.pending)
        (MpegTsAvformatSink.flush_eq h.accounted.short av hheader hhealthy)

theorem packetised {ls : List SinkStep} {t : SinkHistory}
    (hrun : Schedule.Run SinkHistory.next (fun _ _ => True) {} ls t) : t.Packetised := by
  apply Sound.accounts
  apply hrun.invariant (I := Sound) ?_ sound_empty
  intro s l t hs _ hstep
  exact hs.next hstep

def resetSteps : List SinkStep :=
  [.ensureStarted {}, .writeCallback (List.replicate 1318 71), .flush {}, .writeCallback [71, 64],
    .reset]

theorem packetised_resetSteps :
    ((Schedule.exec (Schedule.guard next fun _ _ => True) {} resetSteps).get
      (by decide +kernel)).Packetised :=
  packetised (.of_exec (Option.some_get _).symm)

example : (Schedule.exec next {} resetSteps).map
    (fun t => (t.emitted.map (·.1.bytes.length), t.contexts.map (·.lost))) =
      some ([1316, 2], [[], [71, 64]]) := by decide +kernel

end SinkHistory

end Srtla
