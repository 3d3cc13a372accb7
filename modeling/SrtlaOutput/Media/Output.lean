import SrtlaOutput.Media.Phases

/-! The queue between the encoder callback and the sender thread. It is bounded in bytes and
in time, and once something is dropped it takes nothing before the next keyframe. -/

namespace Srtla

def maxQueueBytes : UInt64 := 8 * 1024 * 1024
def maxQueueDuration : Int := 2 * 90000

/-- What the media path keeps in `SrtlaOutput`. A queued datagram has a tag of its own. -/
structure SrtlaOutput (τ : Type) where
  queue : List (TsDatagram × τ) := []
  queueBytes : UInt64 := 0
  dropUntilKeyframe : Bool := false
  needsMuxerReset : Bool := false
  running : Bool := true
  workerStop : Bool := false
  totalBytes : UInt64 := 0
  droppedFrames : Int32 := 0
  deriving DecidableEq, Repr

namespace SrtlaOutput
variable {τ : Type}

def duration (o : SrtlaOutput τ) (d : TsDatagram) : Int :=
  match o.queue with
  | [] => 0
  | front :: _ => d.pts90k - front.1.pts90k

def overflows (o : SrtlaOutput τ) (d : TsDatagram) : Bool :=
  decide (o.queueBytes + d.size > maxQueueBytes) || decide (o.duration d > maxQueueDuration)

def reopen (o : SrtlaOutput τ) (d : TsDatagram) : SrtlaOutput τ :=
  if d.keyframe && o.dropUntilKeyframe then
    { o with queue := [], queueBytes := 0, dropUntilKeyframe := false }
  else o

def push (o : SrtlaOutput τ) (d : TsDatagram) (tag : τ) : SrtlaOutput τ :=
  if o.overflows d then
    { o with
      dropUntilKeyframe := true, needsMuxerReset := true, droppedFrames := o.droppedFrames + 1 }
  else
    { o with
      totalBytes := o.totalBytes + d.size
      queueBytes := o.queueBytes + d.size
      queue := o.queue ++ [(d, tag)] }

def enqueueDatagram (o : SrtlaOutput τ) (d : TsDatagram) (tag : τ) : SrtlaOutput τ :=
  if !o.running || d.bytes.isEmpty then o
  else if o.dropUntilKeyframe && !d.keyframe then { o with droppedFrames := o.droppedFrames + 1 }
  else (o.reopen d).push d tag

theorem enqueueDatagram_cases {o : SrtlaOutput τ} (h : o.running = true) (d : TsDatagram)
    (tag : τ) :
    (o.dropUntilKeyframe = true ∧ d.keyframe = false ∧
        o.enqueueDatagram d tag = { o with droppedFrames := o.droppedFrames + 1 }) ∨
      ((o.dropUntilKeyframe = true → d.keyframe = true) ∧
        o.enqueueDatagram d tag = (o.reopen d).push d tag) := by
  have hlet : (!o.running || d.bytes.isEmpty) = false := by
    simp [h, d.nonempty]
  rw [enqueueDatagram, hlet]
  cases hdrop : o.dropUntilKeyframe <;> cases hkey : d.keyframe
  · exact .inr ⟨by simp, rfl⟩
  · exact .inr ⟨by simp, rfl⟩
  · exact .inl ⟨rfl, rfl, rfl⟩
  · exact .inr ⟨by simp, rfl⟩

theorem reopen_of_open {o : SrtlaOutput τ} (h : o.dropUntilKeyframe = false) (d : TsDatagram) :
    o.reopen d = o := by
  rw [reopen, h, Bool.and_false]
  rfl

theorem reopen_of_keyframe {o : SrtlaOutput τ} (h : o.dropUntilKeyframe = true) {d : TsDatagram}
    (hkey : d.keyframe = true) :
    o.reopen d = { o with queue := [], queueBytes := 0, dropUntilKeyframe := false } := by
  rw [reopen, h, hkey]
  rfl

theorem push_of_overflow {o : SrtlaOutput τ} {d : TsDatagram} (h : o.overflows d = true) (tag : τ) :
    o.push d tag =
      { o with
        dropUntilKeyframe := true
        needsMuxerReset := true
        droppedFrames := o.droppedFrames + 1 } := by
  rw [push, h]
  rfl

theorem push_of_room {o : SrtlaOutput τ} {d : TsDatagram} (h : o.overflows d = false) (tag : τ) :
    o.push d tag =
      { o with
        totalBytes := o.totalBytes + d.size
        queueBytes := o.queueBytes + d.size
        queue := o.queue ++ [(d, tag)] } := by
  rw [push, h]
  rfl

theorem enqueueDatagram_running (o : SrtlaOutput τ) (d : TsDatagram) (tag : τ) :
    (o.enqueueDatagram d tag).running = o.running := by
  unfold enqueueDatagram push reopen
  split_ifs <;> rfl

theorem enqueueDatagram_workerStop (o : SrtlaOutput τ) (d : TsDatagram) (tag : τ) :
    (o.enqueueDatagram d tag).workerStop = o.workerStop := by
  unfold enqueueDatagram push reopen
  split_ifs <;> rfl

theorem enqueueDatagram_queue {o : SrtlaOutput τ} (h : o.running = true) (d : TsDatagram)
    (tag : τ) :
    ∃ base, base <+: o.queue ∧ (o.dropUntilKeyframe = false → base = o.queue) ∧
      ((o.enqueueDatagram d tag).queue = base ∧
          (o.enqueueDatagram d tag).dropUntilKeyframe = true ∨
        (o.enqueueDatagram d tag).queue = base ++ [(d, tag)] ∧
          (o.enqueueDatagram d tag).dropUntilKeyframe = false ∧
            (o.dropUntilKeyframe = true → d.keyframe = true)) := by
  rcases enqueueDatagram_cases h d tag with ⟨hdrop, -, heq⟩ | ⟨hkey, heq⟩
  · refine ⟨o.queue, List.prefix_refl _, fun _ => rfl, .inl ?_⟩
    rw [heq]
    exact ⟨rfl, hdrop⟩
  · have hbase : (o.reopen d).queue <+: o.queue ∧
        (o.dropUntilKeyframe = false → (o.reopen d).queue = o.queue) ∧
        (o.reopen d).dropUntilKeyframe = false := by
      cases hdrop : o.dropUntilKeyframe with
      | false =>
        rw [reopen_of_open hdrop]
        exact ⟨List.prefix_refl _, fun _ => rfl, hdrop⟩
      | true =>
        rw [reopen_of_keyframe hdrop (hkey hdrop)]
        exact ⟨List.nil_prefix, by simp, rfl⟩
    obtain ⟨hpre, hsame, hopen⟩ := hbase
    refine ⟨(o.reopen d).queue, hpre, hsame, ?_⟩
    rw [heq]
    cases hover : (o.reopen d).overflows d with
    | true =>
      rw [push_of_overflow hover]
      exact .inl ⟨rfl, rfl⟩
    | false =>
      rw [push_of_room hover]
      exact .inr ⟨rfl, hopen, hkey⟩

theorem drop_of_enqueueDatagram {o : SrtlaOutput τ} (h : o.running = true)
    {d : TsDatagram} {tag : τ} (hdrop : (o.enqueueDatagram d tag).dropUntilKeyframe = true) :
    (o.dropUntilKeyframe = true ∧ d.keyframe = false) ∨ (o.reopen d).overflows d = true := by
  rcases enqueueDatagram_cases h d tag with ⟨hdrop', hdelta, -⟩ | ⟨hkey, heq⟩
  · exact .inl ⟨hdrop', hdelta⟩
  · right
    cases hover : (o.reopen d).overflows d with
    | true => rfl
    | false =>
      rw [heq, push_of_room hover] at hdrop
      cases hopen : o.dropUntilKeyframe with
      | false =>
        rw [reopen_of_open hopen, hopen] at hdrop
        cases hdrop
      | true =>
        rw [reopen_of_keyframe hopen (hkey hopen)] at hdrop
        cases hdrop

/-- The locked section after a failed send, and that of a reconnect. -/
def purge (o : SrtlaOutput τ) : SrtlaOutput τ :=
  { o with queue := [], queueBytes := 0, dropUntilKeyframe := true }

/-- An intervening delta frame does not take the reset that a keyframe is waiting for. -/
def skips (o : SrtlaOutput τ) (packet : EncoderPacket) : Bool :=
  !o.running || packet.size = 0 || (o.needsMuxerReset && !packet.keyframe)

def takeReset (o : SrtlaOutput τ) (sink : IdleSink) : SrtlaOutput τ × IdleSink :=
  ({ o with needsMuxerReset := false }, if o.needsMuxerReset then sink.reset else sink)

/-- `srtla_output_encoded_packet` with no other step in between. -/
def encodedPacket (o : SrtlaOutput τ) (sink : IdleSink) (packet : EncoderPacket) (av : AvTrace)
    (tag : τ) : SrtlaOutput τ × IdleSink :=
  if o.skips packet then (o, sink)
  else
    let taken := o.takeReset sink
    let muxed := taken.2.mux packet av
    (muxed.2.foldl (fun o d => o.enqueueDatagram d tag) taken.1, muxed.1)

end SrtlaOutput
end Srtla
