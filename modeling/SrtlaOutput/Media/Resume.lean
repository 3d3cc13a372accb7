import SrtlaOutput.Media.Transport

/-! The encoder callback beside the other threads of the media path. The sink is its own, so a
packet is muxed in one step; its datagrams then go to the queue one at a time, and what the
other threads do to the queue falls in between. -/

namespace Srtla
open Schedule

/-- Where a datagram comes from: whether the sink was reset for its packet, and its place in
what the packet became. -/
structure Origin where
  packet : EncoderPacket
  fresh : Bool
  position : Nat := 0
  deriving DecidableEq, Repr

def Origin.Clean (origin : Origin) : Prop :=
  origin.packet.type = .video ∧ origin.packet.keyframe = true ∧ origin.fresh = true ∧
    origin.position = 0

instance (origin : Origin) : Decidable origin.Clean :=
  inferInstanceAs (Decidable (_ ∧ _ ∧ _ ∧ _))

inductive EncoderState
  | idle
  | tested (packet : EncoderPacket) (av : AvTrace)
  | writing (origin : Origin) (datagrams : List TsDatagram)

namespace EncoderState

/-- If the queue begins to drop now, and the packet being written can end that, then it does
so with its first datagram. -/
def CleanStart : EncoderState → Prop
  | .writing origin datagrams =>
    (∃ d ∈ datagrams, d.keyframe = true) →
      origin.Clean ∧ ∀ d ∈ datagrams.head?, d.keyframe = true
  | _ => True

/-- A keyframe that is about to end the dropping is a video keyframe and takes the reset, and
the header alone fills no datagram. -/
def TakesReset (o : SrtlaOutput (Mark Origin)) : EncoderState → Prop
  | .tested packet av =>
    o.dropUntilKeyframe = true → packet.keyframe = true →
      o.needsMuxerReset = true ∧ packet.type = .video ∧ av.header.flatten.length < tsDatagramSize
  | _ => True

def Fits (o : SrtlaOutput (Mark Origin)) : EncoderState → Prop
  | .writing _ (d :: later) =>
    (o.reopen d).overflows d = true → ∀ e ∈ later, e.keyframe = false
  | _ => True

instance : (e : EncoderState) → Decidable e.CleanStart
  | .writing _ _ => inferInstanceAs (Decidable (_ → _ ∧ _))
  | .idle => instDecidableTrue
  | .tested _ _ => instDecidableTrue

instance (o : SrtlaOutput (Mark Origin)) : (e : EncoderState) → Decidable (e.TakesReset o)
  | .tested _ _ => inferInstanceAs (Decidable (_ → _ → _ ∧ _ ∧ _))
  | .idle => instDecidableTrue
  | .writing _ _ => instDecidableTrue

instance (o : SrtlaOutput (Mark Origin)) : (e : EncoderState) → Decidable (e.Fits o)
  | .writing _ (_ :: _) => inferInstanceAs (Decidable (_ → _))
  | .writing _ [] => instDecidableTrue
  | .idle => instDecidableTrue
  | .tested _ _ => instDecidableTrue

end EncoderState

structure Pipeline where
  transport : Transport Origin
  sink : IdleSink := .fresh
  encoder : EncoderState := .idle

inductive PipelineStep
  | test (packet : EncoderPacket) (av : AvTrace)
  | exchange
  | emit
  | finish
  | thread (step : MediaStep Origin)

def MediaStep.ofEncoder {τ : Type} : MediaStep τ → Bool
  | .enqueue _ _ => true
  | .takeReset => true
  | _ => false

namespace Pipeline

def started (o : SrtlaOutput (Mark Origin)) : Pipeline where
  transport := .started o

def next (p : Pipeline) : PipelineStep → Option Pipeline
  | .test packet av =>
    match p.encoder with
    | .idle =>
      let skips := p.transport.output.skips packet
      some { p with encoder := if skips then .idle else .tested packet av }
    | _ => none
  | .exchange =>
    match p.encoder with
    | .tested packet av =>
      let muxed := (p.transport.output.takeReset p.sink).2.mux packet av
      let origin := { packet, fresh := p.transport.output.needsMuxerReset }
      (p.transport.next .takeReset).map fun transport =>
        { transport, sink := muxed.1, encoder := .writing origin muxed.2 }
    | _ => none
  | .emit =>
    match p.encoder with
    | .writing origin (d :: later) =>
      let further := { origin with position := origin.position + 1 }
      (p.transport.next (.enqueue d origin)).map fun transport =>
        { p with transport, encoder := .writing further later }
    | _ => none
  | .finish =>
    match p.encoder with
    | .writing _ [] => some { p with encoder := .idle }
    | _ => none
  | .thread step =>
    if step.ofEncoder then none
    else (p.transport.next step).map fun transport => { p with transport }

def Undisturbed (p : Pipeline) : PipelineStep → Prop
  | .exchange => p.encoder.TakesReset p.transport.output
  | .emit => p.encoder.Fits p.transport.output
  | .thread .purge => p.encoder.CleanStart
  | .thread .sessionPurge => p.encoder.CleanStart
  | _ => True

end Pipeline

def Gap {τ : Type} : Option (Item τ × Bool) → Item τ × Bool → Prop
  | none, b => b.1.2.serial ≠ 0 ∨ b.1.2.resumes = true
  | some a, b => a.2 = false ∨ b.1.2.serial ≠ a.1.2.serial + 1 ∨ b.1.2.resumes = true

namespace Transport

theorem InOrder.resumes_of_gap {τ : Type} {P : Item τ → Prop} {t : Transport τ} (h : t.InOrder P)
    {before after : List (Item τ × Bool)} {x : Item τ × Bool}
    (hhanded : t.handed = before ++ x :: after) (hgap : Gap before.getLast? x) :
    x.1.2.resumes = true := by
  have hline : t.line = before ++ x :: (after ++ t.ahead.map (·, true)) := by
    rw [line, hhanded]
    simp
  cases hlast : before.getLast? with
  | none =>
    -- the first datagram of all has serial 0, or it resumes
    rw [hlast] at hgap
    obtain rfl := List.getLast?_eq_none_iff.mp hlast
    have hfirst := h.first x (by rw [hline]; rfl)
    rcases hgap with hserial | hresumes
    · exact hfirst.resolve_right hserial
    · exact hresumes
  | some a =>
    rw [hlast] at hgap
    obtain ⟨-, -, hrel⟩ := List.isChain_append.mp (hline ▸ h.chain)
    obtain ⟨-, hfollows⟩ := hrel a hlast x rfl
    rcases hgap with hrefused | hserial | hresumes
    · rcases hfollows with hresumes | ⟨hok, -⟩
      · exact hresumes
      · rw [hrefused] at hok
        cases hok
    · exact hfollows.resolve_right fun hnext => hserial hnext.2
    · exact hresumes

def ResumesClean (t : Transport Origin) : Prop :=
  ∀ before x after, t.handed = before ++ x :: after → Gap before.getLast? x → x.1.2.origin.Clean

end Transport

theorem Transport.drop_of_next {τ : Type} {t t' : Transport τ} {step : MediaStep τ}
    (hstep : ¬step.ofEncoder = true) (ht : t.next step = some t')
    (hdrop : t'.output.dropUntilKeyframe = true) :
    t.output.dropUntilKeyframe = true ∨ step = .purge ∨ step = .sessionPurge := by
  cases step <;> grind [Transport.next, MediaStep.ofEncoder]

namespace Pipeline

/-- While the queue drops, the packet being written ends that with a clean start or not at all. -/
structure Clear (p : Pipeline) : Prop where
  inOrder : p.transport.InOrder fun item => item.2.origin.Clean
  start : p.transport.output.dropUntilKeyframe = true → p.encoder.CleanStart

theorem started_clear (o : SrtlaOutput (Mark Origin)) : (started o).Clear where
  inOrder := Transport.started_inOrder _ o
  start := fun _ => trivial

variable {p p' : Pipeline}

theorem Clear.test (h : p.Clear) {packet : EncoderPacket} {av : AvTrace}
    (hp : p.next (.test packet av) = some p') : p'.Clear := by
  cases hencoder : p.encoder <;> simp only [next, hencoder, reduceCtorEq, Option.some.injEq] at hp
  subst hp
  refine ⟨h.inOrder, fun _ => ?_⟩
  cases hskips : p.transport.output.skips packet <;> trivial

theorem Clear.exchange (h : p.Clear) (hok : p.Undisturbed .exchange)
    (hp : p.next .exchange = some p') : p'.Clear := by
  cases hencoder : p.encoder <;> simp only [next, hencoder, reduceCtorEq] at hp
  rename_i packet av
  obtain ⟨transport, htransport, rfl⟩ := Option.map_eq_some_iff.mp hp
  refine ⟨h.inOrder.next (fun _ _ hstep => by cases hstep) htransport, ?_⟩
  obtain rfl := Option.some.inj htransport
  -- the exchange keeps the drop flag, so the condition applies to what the packet becomes
  intro hdrop hstamped
  rw [Undisturbed, hencoder] at hok
  obtain ⟨hkey, hhead⟩ := IdleSink.mux_stamped hstamped
  obtain ⟨hneeds, hvideo, hheader⟩ := hok hdrop hkey
  exact ⟨⟨hvideo, hkey, hneeds, rfl⟩, hhead hheader⟩

theorem Clear.emit (h : p.Clear) (hok : p.Undisturbed .emit) (hp : p.next .emit = some p') :
    p'.Clear := by
  rcases hencoder : p.encoder with _ | _ | ⟨origin, _ | ⟨d, later⟩⟩ <;>
    simp only [next, hencoder, reduceCtorEq] at hp
  obtain ⟨transport, htransport, rfl⟩ := Option.map_eq_some_iff.mp hp
  have hstart : p.transport.output.dropUntilKeyframe = true → (∃ e ∈ d :: later, e.keyframe = true) →
      origin.Clean ∧ d.keyframe = true := by
    intro hdrop hstamped
    have hclean := h.start hdrop
    rw [hencoder] at hclean
    obtain ⟨horigin, hhead⟩ := hclean hstamped
    exact ⟨horigin, hhead d rfl⟩
  have hinOrder : transport.InOrder fun item => item.2.origin.Clean :=
    h.inOrder.enqueue (fun hdrop hkey => (hstart hdrop ⟨d, List.mem_cons_self, hkey⟩).1) htransport
  refine ⟨hinOrder, ?_⟩
  obtain rfl := Option.some.inj htransport
  rintro hdrop ⟨e, he, hkey⟩
  rw [Undisturbed, hencoder] at hok
  rcases SrtlaOutput.drop_of_enqueueDatagram h.inOrder.running hdrop with ⟨hdrop', hdelta⟩ | hover
  · -- nothing stamped follows a datagram that is dropped for its missing stamp
    have hd := (hstart hdrop' ⟨e, List.mem_cons_of_mem _ he, hkey⟩).2
    rw [hdelta] at hd
    cases hd
  · have hnone := hok hover e he
    rw [hkey] at hnone
    cases hnone

theorem Clear.thread (h : p.Clear) {step : MediaStep Origin} (hok : p.Undisturbed (.thread step))
    (hp : p.next (.thread step) = some p') : p'.Clear := by
  obtain ⟨hencoder, hp⟩ := Option.ite_none_left_eq_some.mp hp
  obtain ⟨transport, htransport, rfl⟩ := Option.map_eq_some_iff.mp hp
  refine ⟨h.inOrder.next (fun d origin hstep => absurd (hstep ▸ rfl) hencoder) htransport, ?_⟩
  intro hdrop
  rcases Transport.drop_of_next hencoder htransport hdrop with hdrop' | rfl | rfl
  · exact h.start hdrop'
  · exact hok
  · exact hok

theorem Clear.next (h : p.Clear) {step : PipelineStep} (hok : p.Undisturbed step)
    (hp : p.next step = some p') : p'.Clear := by
  cases step with
  | test packet av => exact h.test hp
  | exchange => exact h.exchange hok hp
  | emit => exact h.emit hok hp
  | thread step => exact h.thread hok hp
  | finish =>
    rcases hencoder : p.encoder with _ | _ | ⟨origin, _ | ⟨d, later⟩⟩ <;>
      simp only [Pipeline.next, hencoder, reduceCtorEq, Option.some.injEq] at hp
    subst hp
    exact ⟨h.inOrder, fun _ => trivial⟩

theorem resumes_clean (o : SrtlaOutput (Mark Origin)) (steps : List PipelineStep) {p : Pipeline}
    (h : Run next Undisturbed (started o) steps p) : p.transport.ResumesClean := by
  have hclear : p.Clear := h.invariant (fun _ _ _ hs hok hnext => hs.next hok hnext)
    (started_clear o)
  intro before x after hhanded hgap
  have hmem : x ∈ p.transport.line := by
    apply List.mem_append_left
    rw [hhanded]
    simp
  exact hclear.inOrder.resuming x hmem (hclear.inOrder.resumes_of_gap hhanded hgap)

/-! Two keyframes of two datagrams each. The first datagram of the first one is refused. -/

instance (p : Pipeline) : (step : PipelineStep) → Decidable (p.Undisturbed step)
  | .exchange => inferInstanceAs (Decidable (p.encoder.TakesReset p.transport.output))
  | .emit => inferInstanceAs (Decidable (p.encoder.Fits p.transport.output))
  | .thread .purge => inferInstanceAs (Decidable p.encoder.CleanStart)
  | .thread .sessionPurge => inferInstanceAs (Decidable p.encoder.CleanStart)
  | .thread (.enqueue _ _) => instDecidableTrue
  | .thread .takeReset => instDecidableTrue
  | .thread .dequeue => instDecidableTrue
  | .thread (.send _) => instDecidableTrue
  | .thread .requestReset => instDecidableTrue
  | .thread .sessionReset => instDecidableTrue
  | .test _ _ => instDecidableTrue
  | .finish => instDecidableTrue

def keyframe : PipelineStep :=
  .test { type := .video, keyframe := true, size := 100 }
    { frame := List.replicate 14 (List.replicate 188 71) }

def refused : List PipelineStep :=
  [.thread .dequeue, .thread (.send false), .thread .purge, .thread .requestReset]

def betweenPackets : List PipelineStep :=
  [keyframe, .exchange, .emit, .emit, .finish] ++ refused ++
    [keyframe, .exchange, .emit, .emit, .finish, .thread .dequeue, .thread (.send true)]

def afterPacket : Pipeline :=
  (exec (guard next Undisturbed) (started {}) betweenPackets).get (by decide +kernel)

theorem resumes_clean_between :
    afterPacket.transport.handed.map (fun x => (x.1.2.origin.position, x.2)) =
      [(0, false), (0, true)] ∧ afterPacket.transport.ResumesClean := by
  have hrun : Run next Undisturbed (started {}) betweenPackets afterPacket :=
    .of_exec (Option.some_get _).symm
  exact ⟨by decide +kernel, resumes_clean {} betweenPackets hrun⟩

def insidePacket : List PipelineStep :=
  [keyframe, .exchange, .emit] ++ refused ++
    [.emit, .finish, .thread .dequeue, .thread (.send true)]

def afterHalf : Pipeline := (exec next (started {}) insidePacket).get (by decide +kernel)

/-- The second datagram has the stamp of its packet as well, so the queue takes it, and the
stream goes on in the middle of a picture. -/
theorem resumes_mid_picture :
    exec next (started {}) insidePacket = some afterHalf ∧
      afterHalf.transport.handed.map (fun x => (x.1.2.origin.position, x.2)) =
        [(0, false), (1, true)] ∧ ¬afterHalf.transport.ResumesClean := by
  have hhanded : afterHalf.transport.handed.map (fun x => (x.1.2.origin.position, x.2)) =
      [(0, false), (1, true)] := by decide +kernel
  refine ⟨(Option.some_get _).symm, hhanded, ?_⟩
  intro hclean
  obtain ⟨a, b, hab⟩ : ∃ a b, afterHalf.transport.handed = [a, b] :=
    List.length_eq_two.mp (by simpa using congrArg List.length hhanded)
  simp only [hab, List.map_cons, List.map_nil, List.cons.injEq, Prod.mk.injEq, and_true] at hhanded
  have hb := hclean [a] b [] hab (.inl hhanded.1.2)
  obtain ⟨-, -, -, hzero⟩ := hb
  rw [hhanded.2.1] at hzero
  cases hzero

end Pipeline
end Srtla
