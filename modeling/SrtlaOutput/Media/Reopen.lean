import Mathlib.Data.List.Induction
import SrtlaOutput.Media.Output

/-! When a keyframe ends the dropping. Only the datagrams that fill up in the frame phase are
stamped; the first of them reopens the queue, and those that follow can fill it again. -/

namespace Srtla

namespace SrtlaOutput
variable {τ : Type}

/-- The bytes in the queue, or nothing while it drops: what one datagram does to that. -/
def raise (level : Option Nat) (keyframe : Bool) (size : Nat) : Option Nat :=
  match level with
  | none => if keyframe then some size else none
  | some n => if n + size ≤ maxQueueBytes.toNat then some (n + size) else none

theorem raise_of_fits {n size : Nat} (h : n + size ≤ maxQueueBytes.toNat) (keyframe : Bool) :
    raise (some n) keyframe size = some (n + size) := if_pos h

theorem raise_of_over {n size : Nat} (h : ¬n + size ≤ maxQueueBytes.toNat) (keyframe : Bool) :
    raise (some n) keyframe size = none := if_neg h

def AtLevel (packet : List TsDatagram) (pts : Int) (o : SrtlaOutput τ) : Option Nat → Prop
  | none => o.dropUntilKeyframe = true
  | some n => o.dropUntilKeyframe = false ∧ o.queueBytes.toNat = n ∧ n ≤ maxQueueBytes.toNat ∧
      o.queue ≠ [] ∧ ∀ x ∈ o.queue, x.1 ∈ packet ∧ x.1.pts90k = pts

theorem size_toNat {d : TsDatagram} (h : d.bytes.length ≤ tsDatagramSize) :
    d.size.toNat = d.bytes.length := by
  have hfull : tsDatagramSize = 1316 := rfl
  rw [TsDatagram.size, UInt64.toNat_ofNat']
  exact Nat.mod_eq_of_lt (by omega)

theorem overflows_eq {o : SrtlaOutput τ} {d : TsDatagram} {n : Nat}
    (hn : o.queueBytes.toNat = n) (hle : n ≤ maxQueueBytes.toNat)
    (hsize : d.bytes.length ≤ tsDatagramSize) (hpts : ∀ x ∈ o.queue, x.1.pts90k = d.pts90k) :
    o.overflows d = decide (maxQueueBytes.toNat < n + d.bytes.length) := by
  have hduration : o.duration d = 0 := by
    unfold duration
    split
    · rfl
    · rename_i front _ hqueue
      rw [hpts front (by simp [hqueue])]
      · exact Int.sub_self _
  have hmax : maxQueueBytes.toNat = 8388608 := by decide
  have hsum : (o.queueBytes + d.size).toNat = n + d.bytes.length := by
    have hfull : tsDatagramSize = 1316 := rfl
    rw [UInt64.toNat_add, hn, size_toNat hsize]
    exact Nat.mod_eq_of_lt (by omega)
  rw [overflows, hduration]
  have hbytes : decide (o.queueBytes + d.size > maxQueueBytes) =
      decide (maxQueueBytes.toNat < n + d.bytes.length) := by
    rw [decide_eq_decide, gt_iff_lt, UInt64.lt_iff_toNat_lt, hsum]
  rw [hbytes, show decide ((0 : Int) > maxQueueDuration) = false by decide, Bool.or_false]

theorem push_atLevel {packet : List TsDatagram} {pts : Int} {o : SrtlaOutput τ} {n : Nat}
    (hdrop : o.dropUntilKeyframe = false) (hn : o.queueBytes.toNat = n)
    (hqueue : ∀ x ∈ o.queue, x.1 ∈ packet ∧ x.1.pts90k = pts) {d : TsDatagram} (hd : d ∈ packet)
    (hsize : d.bytes.length ≤ tsDatagramSize) (hpts : d.pts90k = pts)
    (hfits : n + d.bytes.length ≤ maxQueueBytes.toNat) (tag : τ) :
    AtLevel packet pts (o.push d tag) (some (n + d.bytes.length)) := by
  have hmax : maxQueueBytes.toNat = 8388608 := by decide
  have hroom : o.overflows d = false := by
    rw [overflows_eq hn (by omega) hsize fun x hx => (hqueue x hx).2.trans hpts.symm]
    simpa using hfits
  have hword : (o.queueBytes + d.size).toNat = n + d.bytes.length := by
    rw [UInt64.toNat_add, hn, size_toNat hsize]
    exact Nat.mod_eq_of_lt (by omega)
  rw [push_of_room hroom]
  refine ⟨hdrop, hword, hfits, by simp, ?_⟩
  intro x hx
  rcases List.mem_append.mp hx with hold | hnew
  · exact hqueue x hold
  · obtain rfl := List.mem_singleton.mp hnew
    exact ⟨hd, hpts⟩

theorem AtLevel.enqueue {packet : List TsDatagram} {pts : Int} {o : SrtlaOutput τ}
    {level : Option Nat} (h : AtLevel packet pts o level) (hrunning : o.running = true)
    {d : TsDatagram} (hd : d ∈ packet) (hsize : d.bytes.length ≤ tsDatagramSize)
    (hpts : level.isSome ∨ d.keyframe = true → d.pts90k = pts) (tag : τ) :
    AtLevel packet pts (o.enqueueDatagram d tag) (raise level d.keyframe d.bytes.length) := by
  have hmax : maxQueueBytes.toNat = 8388608 := by decide
  have hfull : tsDatagramSize = 1316 := rfl
  rcases level with _ | n
  · have hdrop : o.dropUntilKeyframe = true := h
    rcases enqueueDatagram_cases hrunning d tag with ⟨-, hkey, heq⟩ | ⟨hkey, heq⟩
    · rw [heq, hkey]
      exact hdrop
    · -- the queue is emptied first, so there is room
      have hstamp := hkey hdrop
      have hfits : 0 + d.bytes.length ≤ maxQueueBytes.toNat := by omega
      rw [heq, hstamp, reopen_of_keyframe hdrop hstamp]
      have hlevel : raise none true d.bytes.length = some (0 + d.bytes.length) := by
        rw [Nat.zero_add]
        rfl
      rw [hlevel]
      exact push_atLevel (n := 0) rfl rfl (by simp) hd hsize (hpts (.inr hstamp)) hfits tag
  · obtain ⟨hdrop, hn, hle, hne, hqueue⟩ := h
    have hmine := hpts (.inl rfl)
    have heq : o.enqueueDatagram d tag = o.push d tag := by
      rcases enqueueDatagram_cases hrunning d tag with ⟨hset, -⟩ | ⟨-, heq⟩
      · exact absurd (hdrop.symm.trans hset) (by decide)
      · rw [heq, reopen_of_open hdrop]
    rw [heq]
    by_cases hfits : n + d.bytes.length ≤ maxQueueBytes.toNat
    · rw [raise_of_fits hfits]
      exact push_atLevel hdrop hn hqueue hd hsize hmine hfits tag
    · have hover : o.overflows d = true := by
        rw [overflows_eq hn hle hsize fun x hx => (hqueue x hx).2.trans hmine.symm]
        simpa using hfits
      rw [raise_of_over hfits, push_of_overflow hover]
      exact rfl

theorem foldl_enqueue_running (ds : List TsDatagram) (o : SrtlaOutput τ) (tag : τ) :
    (ds.foldl (fun o d => o.enqueueDatagram d tag) o).running = o.running := by
  induction ds generalizing o with
  | nil => rfl
  | cons d ds ih => exact (ih _).trans (o.enqueueDatagram_running d tag)

theorem foldl_enqueue_dropping {ds : List TsDatagram} (hds : ∀ d ∈ ds, d.keyframe = false)
    {o : SrtlaOutput τ} (hrunning : o.running = true) (hdrop : o.dropUntilKeyframe = true)
    (tag : τ) : (ds.foldl (fun o d => o.enqueueDatagram d tag) o).dropUntilKeyframe = true := by
  induction ds generalizing o with
  | nil => exact hdrop
  | cons d ds ih =>
    have hnext : (o.enqueueDatagram d tag).dropUntilKeyframe = true := by
      rcases enqueueDatagram_cases hrunning d tag with ⟨-, -, heq⟩ | ⟨hkey, -⟩
      · rw [heq]
        exact hdrop
      · exact absurd ((hds d List.mem_cons_self).symm.trans (hkey hdrop)) (by decide)
    exact ih (fun e he => hds e (List.mem_cons_of_mem d he))
      ((o.enqueueDatagram_running d tag).trans hrunning) hnext

theorem AtLevel.foldl {packet : List TsDatagram} {pts : Int} {o : SrtlaOutput τ}
    {level : Option Nat} (h : AtLevel packet pts o level) (hrunning : o.running = true)
    {ds : List TsDatagram}
    (hds : ∀ d ∈ ds, d ∈ packet ∧ d.bytes.length ≤ tsDatagramSize ∧ d.pts90k = pts) (tag : τ) :
    AtLevel packet pts (ds.foldl (fun o d => o.enqueueDatagram d tag) o)
      (ds.foldl (fun level d => raise level d.keyframe d.bytes.length) level) := by
  induction ds generalizing o level with
  | nil => exact h
  | cons d ds ih =>
    obtain ⟨hd, hsize, hpts⟩ := hds d List.mem_cons_self
    exact ih (h.enqueue hrunning hd hsize (fun _ => hpts) tag)
      ((o.enqueueDatagram_running d tag).trans hrunning)
      fun e he => hds e (List.mem_cons_of_mem d he)

/-- The most full datagrams that fit, and one more. -/
def fullCycle : Nat := 6375

theorem fullCycle_succ (k : Nat) :
    (k % fullCycle = 0 → (k + 1) % fullCycle = 1) ∧
      (k % fullCycle ≠ 0 → (k + 1) % fullCycle = 0 →
        maxQueueBytes.toNat < tsDatagramSize * (k % fullCycle) + tsDatagramSize) ∧
      (k % fullCycle ≠ 0 → (k + 1) % fullCycle ≠ 0 →
        (k + 1) % fullCycle = k % fullCycle + 1 ∧
          tsDatagramSize * (k % fullCycle) + tsDatagramSize ≤ maxQueueBytes.toNat) := by
  have hmax : maxQueueBytes.toNat = 8388608 := by decide
  rw [hmax]
  simp only [fullCycle, tsDatagramSize]
  omega

theorem foldl_raise_body {ds : List TsDatagram}
    (hds : ∀ d ∈ ds, d.keyframe = true ∧ d.bytes.length = tsDatagramSize) :
    ds.foldl (fun level d => raise level d.keyframe d.bytes.length) none =
      if ds.length % fullCycle = 0 then none
      else some (tsDatagramSize * (ds.length % fullCycle)) := by
  -- stamped datagrams fill the queue, and the first that does not fit makes it drop until the
  -- next of them
  -- over the length; a full cycle ends with the datagram that does not fit
  induction ds using List.reverseRecOn with
  | nil => rfl
  | append_singleton ds d ih =>
    obtain ⟨hkey, hsize⟩ := hds d (by simp)
    obtain ⟨hfirst, hover, hfits⟩ := fullCycle_succ ds.length
    rw [List.foldl_append, ih fun e he => hds e (List.mem_append_left [d] he), List.foldl_cons,
      List.foldl_nil, hkey, hsize, List.length_append, List.length_singleton]
    by_cases hzero : ds.length % fullCycle = 0
    · rw [if_pos hzero, hfirst hzero]
      rfl
    · rw [if_neg hzero]
      by_cases hlast : (ds.length + 1) % fullCycle = 0
      · rw [if_pos hlast]
        exact raise_of_over (Nat.not_le.mpr (hover hzero hlast)) true
      · obtain ⟨hnext, hle⟩ := hfits hzero hlast
        rw [if_neg hlast, hnext, Nat.mul_add, Nat.mul_one]
        exact raise_of_fits hle true

theorem foldl_raise_none {ds : List TsDatagram} (hds : ∀ d ∈ ds, d.keyframe = false) :
    ds.foldl (fun level d => raise level d.keyframe d.bytes.length) none = none := by
  induction ds with
  | nil => rfl
  | cons d ds ih =>
    rw [List.foldl_cons, hds d List.mem_cons_self]
    exact ih fun e he => hds e (List.mem_cons_of_mem d he)

theorem foldl_raise_tail {ds : List TsDatagram} (hds : ∀ d ∈ ds, d.keyframe = false) {n : Nat}
    (hn : n ≤ maxQueueBytes.toNat) :
    (ds.foldl (fun level d => raise level d.keyframe d.bytes.length) (some n)).isSome ↔
      n + (ds.map (·.bytes.length)).sum ≤ maxQueueBytes.toNat := by
  induction ds generalizing n with
  | nil => simpa using hn
  | cons d ds ih =>
    have hrest : ∀ e ∈ ds, e.keyframe = false := fun e he => hds e (List.mem_cons_of_mem d he)
    rw [List.foldl_cons, List.map_cons, List.sum_cons, ← Nat.add_assoc]
    by_cases hfits : n + d.bytes.length ≤ maxQueueBytes.toNat
    · rw [raise_of_fits hfits]
      exact ih hrest hfits
    · -- without a stamp the queue stays closed
      rw [raise_of_over hfits, foldl_raise_none hrest]
      simp only [Option.isSome_none, Bool.false_eq_true, false_iff]
      omega

theorem reopened_level {o : SrtlaOutput τ} (hrunning : o.running = true)
    (hdrop : o.dropUntilKeyframe = true) {pts : Int} {head body tail : List TsDatagram}
    (hhead : ∀ d ∈ head, d.keyframe = false)
    (hbody : ∀ d ∈ body, d.keyframe = true ∧ d.pts90k = pts ∧ d.bytes.length = tsDatagramSize)
    (htail : ∀ d ∈ tail, d.keyframe = false ∧ d.pts90k = pts ∧ d.bytes.length ≤ tsDatagramSize)
    (tag : τ) :
    AtLevel (head ++ body ++ tail) pts
      ((head ++ body ++ tail).foldl (fun o d => o.enqueueDatagram d tag) o)
      (tail.foldl (fun level d => raise level d.keyframe d.bytes.length)
        (if body.length % fullCycle = 0 then none
          else some (tsDatagramSize * (body.length % fullCycle)))) := by
  have hopen : AtLevel (head ++ body ++ tail) pts
      (head.foldl (fun o d => o.enqueueDatagram d tag) o) none :=
    foldl_enqueue_dropping hhead hrunning hdrop tag
  have hstill := (foldl_enqueue_running head o tag).trans hrunning
  have hfull : ∀ d ∈ body, d ∈ head ++ body ++ tail ∧ d.bytes.length ≤ tsDatagramSize ∧
      d.pts90k = pts :=
    fun d hd => ⟨by simp [hd], Nat.le_of_eq (hbody d hd).2.2, (hbody d hd).2.1⟩
  have hrest : ∀ d ∈ tail, d ∈ head ++ body ++ tail ∧ d.bytes.length ≤ tsDatagramSize ∧
      d.pts90k = pts :=
    fun d hd => ⟨by simp [hd], (htail d hd).2.2, (htail d hd).2.1⟩
  have hfilled := hopen.foldl hstill hfull tag
  rw [foldl_raise_body fun d hd => ⟨(hbody d hd).1, (hbody d hd).2.2⟩] at hfilled
  have hflushed := hfilled.foldl ((foldl_enqueue_running body _ tag).trans hstill) hrest tag
  rwa [← List.foldl_append, ← List.foldl_append, ← List.append_assoc] at hflushed

theorem AtLevel.open_iff {packet : List TsDatagram} {pts : Int} {o : SrtlaOutput τ}
    {level : Option Nat} (h : AtLevel packet pts o level) :
    (o.dropUntilKeyframe = false ∧ ∃ x ∈ o.queue, x.1 ∈ packet) ↔ level.isSome := by
  rcases level with _ | n
  · have hdrop : o.dropUntilKeyframe = true := h
    simp [hdrop]
  · obtain ⟨hdrop, -, -, hne, hqueue⟩ := h
    obtain ⟨x, hx⟩ := List.exists_mem_of_ne_nil o.queue hne
    exact iff_of_true ⟨hdrop, x, hx, (hqueue x hx).1⟩ rfl

/-- The datagrams that fill up in the frame phase of a packet, and what they leave for the
flush. -/
def fullFrames (o : SrtlaOutput τ) (sink : IdleSink) (av : AvTrace) : Nat :=
  ((o.takeReset sink).2.sink.carried av + av.frame.flatten.length) / tsDatagramSize

def leftForFlush (o : SrtlaOutput τ) (sink : IdleSink) (av : AvTrace) : Nat :=
  ((o.takeReset sink).2.sink.carried av + av.frame.flatten.length) % tsDatagramSize +
    av.flush.flatten.length

def Reopened (o : SrtlaOutput τ) (sink : IdleSink) (packet : EncoderPacket) (av : AvTrace)
    (tag : τ) : Prop :=
  (o.encodedPacket sink packet av tag).1.dropUntilKeyframe = false ∧
    ∃ x ∈ (o.encodedPacket sink packet av tag).1.queue,
      x.1 ∈ ((o.takeReset sink).2.mux packet av).2

/-- A keyframe packet that is written ends the dropping exactly if the frame phase fills a
datagram, the last of them is not the one that overflows the queue, and what is left for
the flush still fits. -/
theorem keyframe_reopens_iff {o : SrtlaOutput τ} (hrunning : o.running = true)
    (hdrop : o.dropUntilKeyframe = true) (sink : IdleSink) {packet : EncoderPacket}
    (hkey : packet.keyframe = true) {av : AvTrace}
    (hwritten : ((o.takeReset sink).2.sink.write packet av).2.2 = true) (tag : τ) :
    o.Reopened sink packet av tag ↔
      o.fullFrames sink av % fullCycle ≠ 0 ∧
        tsDatagramSize * (o.fullFrames sink av % fullCycle) + o.leftForFlush sink av ≤
          maxQueueBytes.toNat := by
  obtain ⟨head, body, tail, hmux, hhead, hbody, hcount, htail, hleft⟩ :=
    MpegTsAvformatSink.mux_written packet av (o.takeReset sink).2.settled hwritten
  have hlevel := reopened_level (o := (o.takeReset sink).1) hrunning hdrop hhead
    (fun d hd => ⟨(hbody d hd).1.trans hkey, (hbody d hd).2⟩) htail tag
  rw [← hmux] at hlevel
  have hskips : o.skips packet = false := by
    have hsize : packet.size ≠ 0 := MpegTsAvformatSink.size_of_written hwritten
    simp [skips, hrunning, hkey, hsize]
  have hopen := hlevel.open_iff
  have hcycle : tsDatagramSize * (o.fullFrames sink av % fullCycle) ≤ maxQueueBytes.toNat := by
    have hmax : maxQueueBytes.toNat = 8388608 := by decide
    have hlt := Nat.mod_lt (o.fullFrames sink av) (show 0 < fullCycle by decide)
    have hle := Nat.mul_le_mul_left tsDatagramSize (Nat.le_sub_one_of_lt hlt)
    rw [hmax]
    exact Nat.le_trans hle (by decide)
  have hframes : body.length = o.fullFrames sink av := hcount
  have hflush : (tail.map (·.bytes.length)).sum = o.leftForFlush sink av := hleft
  have hunstamped := fun d hd => (htail d hd).1
  rw [Reopened, encodedPacket, hskips]
  apply hopen.trans
  rw [hframes]
  by_cases hzero : o.fullFrames sink av % fullCycle = 0
  · rw [if_pos hzero, foldl_raise_none hunstamped]
    simp [hzero]
  · rw [if_neg hzero, foldl_raise_tail hunstamped hcycle, hflush]
    exact (and_iff_right hzero).symm

/-! A dropping queue, and keyframes of one transport packet and of seven. -/

def dropping : SrtlaOutput Unit := { dropUntilKeyframe := true, needsMuxerReset := true }

def keyframePacket : EncoderPacket := { type := .video, keyframe := true, size := 100 }

def framed (packets : Nat) : AvTrace := { frame := List.replicate packets (List.replicate 188 71) }

theorem keyframe_reopens_iff_seven :
    dropping.Reopened .fresh keyframePacket (framed 7) () := by
  have hwritten : ((dropping.takeReset .fresh).2.sink.write keyframePacket
      (framed 7)).2.2 = true := by decide +kernel
  exact (keyframe_reopens_iff rfl rfl .fresh rfl hwritten ()).mpr (by decide +kernel)

/-- A keyframe that fits into one datagram is only sent by the flush, and has lost its stamp
by then. -/
theorem small_keyframe_keeps_dropping :
    ((dropping.takeReset .fresh).2.sink.write keyframePacket (framed 1)).2.2 = true ∧
      ((dropping.takeReset .fresh).2.mux keyframePacket (framed 1)).2.map
        (fun d => (d.bytes.length, d.keyframe)) = [(188, false)] ∧
      (dropping.encodedPacket .fresh keyframePacket (framed 1) ()).1.dropUntilKeyframe = true ∧
      (dropping.encodedPacket .fresh keyframePacket (framed 1) ()).1.queue = [] := by
  refine ⟨?_, ?_, ?_, ?_⟩ <;> decide +kernel

end SrtlaOutput
end Srtla
