import SrtlaOutput.Media.Lifecycle
import SrtlaOutput.Media.Reopen

/-! `queue_bytes` against the queue, over any number of runs. -/

namespace Srtla
open Schedule

namespace MpegTsAvformatSink

theorem length_of_mem_header {s : MpegTsAvformatSink} (h : s.Settled) (av : AvTrace) :
    ∀ d ∈ (s.ensureStarted av).2.1, d.bytes.length ≤ tsDatagramSize := by
  have heq := writeCallbacks_eq (destroyContext_settled h).short av.header
  have hall : ∀ d ∈ (s.destroyContext.writeCallbacks av.header).2,
      d.bytes.length ≤ tsDatagramSize := by
    rw [heq]
    intro d hd
    exact Nat.le_of_eq (of_mem_emitFull hd).1
  unfold ensureStarted
  split_ifs
  · simp
  · dsimp only
    cases av.startError <;> exact hall

theorem length_of_mem_mux {s : MpegTsAvformatSink} (h : s.Settled) (packet : EncoderPacket)
    (av : AvTrace) : ∀ d ∈ (s.mux packet av).2, d.bytes.length ≤ tsDatagramSize := by
  -- no datagram is longer than seven transport packets
  have hhead := length_of_mem_header h av
  have hstarted := (ensureStarted_spec h av).1
  have hbody : ∀ d ∈ ((s.ensureStarted av).1.writePacket packet av).2.1,
      d.bytes.length ≤ tsDatagramSize :=
    fun d hd => Nat.le_of_eq ((writePacket_spec hstarted packet av).2 d hd).2.2
  have htail := fun d hd =>
    ((flush_spec (writePacket_spec hstarted packet av).1 av).2 d hd).2.2
  cases hok : (s.write packet av).2.2 with
  | true =>
    obtain ⟨-, -, -, hmux⟩ := mux_of_written s packet av hok
    rw [hmux]
    intro d hd
    rcases List.mem_append.mp hd with hd | hd
    · rcases List.mem_append.mp hd with hd | hd
      · exact hhead d hd
      · exact hbody d hd
    · exact htail d hd
  | false =>
    rcases mux_of_not_written s packet av hok with hmux | hmux | hmux <;> rw [hmux]
    · simp
    · exact hhead
    · intro d hd
      rcases List.mem_append.mp hd with hd | hd
      · exact hhead d hd
      · exact hbody d hd

end MpegTsAvformatSink

namespace SrtlaOutput
variable {τ : Type}

def queued (o : SrtlaOutput τ) : Nat := (o.queue.map (·.1.bytes.length)).sum

structure Accounted (o : SrtlaOutput τ) : Prop where
  bytes : o.queueBytes.toNat = o.queued
  room : o.queued ≤ maxQueueBytes.toNat

theorem accounted_of_empty {o : SrtlaOutput τ} (hqueue : o.queue = []) (hbytes : o.queueBytes = 0) :
    o.Accounted := by
  have hqueued : o.queued = 0 := by
    rw [queued, hqueue]
    rfl
  refine ⟨?_, ?_⟩
  · rw [hqueued, hbytes]
    rfl
  · rw [hqueued]
    exact Nat.zero_le _

theorem Accounted.congr {o o' : SrtlaOutput τ} (h : o.Accounted) (hqueue : o'.queue = o.queue)
    (hbytes : o'.queueBytes = o.queueBytes) : o'.Accounted := by
  have hqueued : o'.queued = o.queued := by
    rw [queued, queued, hqueue]
  exact ⟨by rw [hbytes, hqueued, h.bytes], by rw [hqueued]; exact h.room⟩

theorem Accounted.queueBytes_of_empty {o : SrtlaOutput τ} (h : o.Accounted) (hqueue : o.queue = []) :
    o.queueBytes = 0 := by
  apply UInt64.toNat_inj.mp
  rw [h.bytes, queued, hqueue]
  rfl

theorem Accounted.reopen {o : SrtlaOutput τ} (h : o.Accounted) (d : TsDatagram) :
    (o.reopen d).Accounted := by
  unfold SrtlaOutput.reopen
  split_ifs
  · exact accounted_of_empty rfl rfl
  · exact h

theorem Accounted.push {o : SrtlaOutput τ} (h : o.Accounted) {d : TsDatagram}
    (hsize : d.bytes.length ≤ tsDatagramSize) (tag : τ) : (o.push d tag).Accounted := by
  have hmax : maxQueueBytes.toNat = 8388608 := by decide
  have hfull : tsDatagramSize = 1316 := rfl
  have hroom := h.room
  cases hover : o.overflows d with
  | true =>
    rw [push_of_overflow hover]
    exact h.congr rfl rfl
  | false =>
    have hsum : (o.queueBytes + d.size).toNat = o.queued + d.bytes.length := by
      rw [UInt64.toNat_add, h.bytes, size_toNat hsize]
      exact Nat.mod_eq_of_lt (by omega)
    have hfits : o.queued + d.bytes.length ≤ maxQueueBytes.toNat := by
      rw [← hsum]
      apply UInt64.le_iff_toNat_le.mp
      simpa [overflows] using (Bool.or_eq_false_iff.mp hover).1
    have hqueued : (o.push d tag).queued = o.queued + d.bytes.length := by
      rw [push_of_room hover]
      simp [queued]
    refine ⟨?_, hqueued ▸ hfits⟩
    rw [hqueued, push_of_room hover]
    exact hsum

theorem Accounted.enqueueLocked {o : SrtlaOutput τ} (h : o.Accounted) {d : TsDatagram}
    (hsize : d.bytes.length ≤ tsDatagramSize) (tag : τ) : (o.enqueueLocked d tag).Accounted := by
  unfold SrtlaOutput.enqueueLocked
  split_ifs
  · exact h.congr rfl rfl
  · exact (h.reopen d).push hsize tag

theorem enqueueLocked_running (o : SrtlaOutput τ) (d : TsDatagram) (tag : τ) :
    (o.enqueueLocked d tag).running = o.running := by
  unfold enqueueLocked push reopen
  split_ifs <;> rfl

theorem foldl_enqueue_stopped {o : SrtlaOutput τ} (h : o.running = false)
    (datagrams : List TsDatagram) (tag : τ) :
    datagrams.foldl (fun o d => o.enqueueDatagram d tag) o = o := by
  induction datagrams with
  | nil => rfl
  | cons d datagrams ih =>
    have hskip : o.enqueueDatagram d tag = o := by simp [enqueueDatagram, h]
    rw [List.foldl_cons, hskip]
    exact ih

theorem Accounted.front {o : SrtlaOutput τ} (h : o.Accounted) {item : TsDatagram × τ}
    {rest : List (TsDatagram × τ)} (hqueue : o.queue = item :: rest) :
    item.1.size.toNat = item.1.bytes.length ∧ item.1.size ≤ o.queueBytes := by
  have hmax : maxQueueBytes.toNat = 8388608 := by decide
  have hqueued : o.queued = item.1.bytes.length + (rest.map (·.1.bytes.length)).sum := by
    rw [queued, hqueue, List.map_cons, List.sum_cons]
  have hroom := h.room
  have hsize : item.1.size.toNat = item.1.bytes.length := by
    rw [TsDatagram.size, UInt64.toNat_ofNat']
    exact Nat.mod_eq_of_lt (by omega)
  refine ⟨hsize, UInt64.le_iff_toNat_le.mpr ?_⟩
  rw [hsize, h.bytes]
  omega

theorem Accounted.dequeue {o o' : SrtlaOutput τ} (h : o.Accounted) {item : TsDatagram × τ}
    {rest : List (TsDatagram × τ)} (hqueue : o.queue = item :: rest) (hqueue' : o'.queue = rest)
    (hbytes' : o'.queueBytes = o.queueBytes - item.1.size) : o'.Accounted := by
  obtain ⟨hsize, hle⟩ := h.front hqueue
  have hqueued : o.queued = item.1.bytes.length + o'.queued := by
    rw [queued, queued, hqueue, hqueue', List.map_cons, List.sum_cons]
  have hroom := h.room
  refine ⟨?_, by omega⟩
  rw [hbytes', UInt64.toNat_sub_of_le _ _ hle, h.bytes, hsize]
  omega

end SrtlaOutput

def RunPc.rests : RunPc → Bool
  | .capturing | .active | .ending _ | .ended _ => false
  | _ => true

def RunPc.captures : RunPc → Bool
  | .capturing | .active | .ending _ => true
  | _ => false

theorem RunPc.rests_of_captures (pc : RunPc) (h : pc.captures = true) : pc.rests = false := by
  cases pc <;> first | rfl | cases h

def RunPc.down : RunPc → Bool
  | .ending _ | .ended _ | .joining _ | .joined _ | .released _ | .clearing => true
  | _ => false

def CallbackState.datagrams : CallbackState → List TsDatagram
  | .idle | .tested _ _ => []
  | .writing datagrams => datagrams
  | .entered d later => d :: later

namespace MediaSystem

structure Sound (s : MediaSystem) : Prop where
  accounted : s.transport.output.Accounted
  empty : s.owner.rests = true → s.transport.output.queue = []
  callback : s.callback ≠ .idle → s.owner.captures = true
  capture : s.capture = true → s.owner.captures = true
  down : s.owner.down = true → s.transport.output.running = false
  sized : ∀ d ∈ s.callback.datagrams, d.bytes.length ≤ tsDatagramSize

theorem created_sound : ({} : MediaSystem).Sound where
  accounted := SrtlaOutput.accounted_of_empty rfl rfl
  empty := fun _ => rfl
  callback := fun h => (h rfl).elim
  capture := (nomatch ·)
  down := (nomatch ·)
  sized := by simp [CallbackState.datagrams]

variable {s t : MediaSystem}

/-- What the move of the owner needs for what it knows. -/
structure Moves (s t : MediaSystem) : Prop where
  callback : t.callback = s.callback
  capture : t.capture = s.capture
  captures : s.owner.captures = false ∨ t.owner.captures = true
  down : t.owner.down = false ∨ t.transport.output.running = false

theorem Sound.moved (h : s.Sound) (hmoves : Moves s t) (haccounted : t.transport.output.Accounted)
    (hempty : t.owner.rests = true → t.transport.output.queue = []) : t.Sound := by
  have hcaptures : s.owner.captures = true → t.owner.captures = true := by
    intro hc
    apply hmoves.captures.resolve_left
    simp [hc]
  refine ⟨haccounted, hempty, ?_, ?_, ?_, hmoves.callback ▸ h.sized⟩
  · exact fun hc => hcaptures (h.callback (hmoves.callback ▸ hc))
  · exact fun hc => hcaptures (h.capture (hmoves.capture ▸ hc))
  · intro hdown
    apply hmoves.down.resolve_left
    simp [hdown]

theorem Sound.move (h : s.Sound) (hmoves : Moves s t)
    (hqueue : t.transport.output.queue = s.transport.output.queue)
    (hbytes : t.transport.output.queueBytes = s.transport.output.queueBytes)
    (hrests : t.owner.rests = false ∨ s.owner.rests = true) : t.Sound := by
  apply h.moved hmoves (h.accounted.congr hqueue hbytes)
  intro hr
  exact hqueue.trans (h.empty (hrests.resolve_left (by simp [hr])))

theorem Sound.emptied (h : s.Sound) (hmoves : Moves s t) (hqueue : t.transport.output.queue = [])
    (hbytes : t.transport.output.queueBytes = 0) : t.Sound :=
  h.moved hmoves (SrtlaOutput.accounted_of_empty hqueue hbytes) fun _ => hqueue

theorem Sound.startStep (h : s.Sound) {l : SystemStep} (hnext : s.startStep l = some t) :
    t.Sound := by
  cases l with
  | createSession created =>
    simp only [MediaSystem.startStep] at hnext
    split_ifs at hnext with howner hcreated <;> cases hnext
    all_goals
      have howner := not_not.mp howner
      refine h.move ⟨rfl, rfl, .inl (howner ▸ rfl), .inr rfl⟩ rfl rfl (.inr (howner ▸ rfl))
  | prepare initialized =>
    simp only [MediaSystem.startStep] at hnext
    split_ifs at hnext with howner hinitialized <;> cases hnext
    all_goals
      have howner : s.owner = .connecting := not_not.mp (not_or.mp howner).1
      have hrests : s.owner.rests = true := howner ▸ rfl
      have hbytes := h.accounted.queueBytes_of_empty (h.empty hrests)
    · exact h.emptied ⟨rfl, rfl, .inl (howner ▸ rfl), .inl rfl⟩ rfl hbytes
    · exact h.move ⟨rfl, rfl, .inl (howner ▸ rfl), .inl rfl⟩ rfl rfl (.inr hrests)
  | createMuxer created =>
    simp only [MediaSystem.startStep] at hnext
    split_ifs at hnext with howner hcreated <;> cases hnext
    all_goals
      have howner : s.owner = .prepared := not_not.mp (not_or.mp howner).1
      exact h.move ⟨rfl, rfl, .inl (howner ▸ rfl), .inl rfl⟩ rfl rfl (.inr (howner ▸ rfl))
  | startWorker created =>
    simp only [MediaSystem.startStep] at hnext
    split_ifs at hnext with howner hcreated <;> cases hnext
    all_goals
      have howner := not_not.mp howner
    · exact h.move ⟨rfl, rfl, .inl (howner ▸ rfl), .inl rfl⟩ rfl rfl (.inr (howner ▸ rfl))
    · exact h.move ⟨rfl, rfl, .inl (howner ▸ rfl), .inr rfl⟩ rfl rfl (.inl rfl)
  | beginCapture begun =>
    simp only [MediaSystem.startStep] at hnext
    split_ifs at hnext with howner hbegun <;> cases hnext
    all_goals
      have howner := not_not.mp howner
    · exact ⟨h.accounted, (nomatch ·), fun _ => rfl, fun _ => rfl, (nomatch ·), h.sized⟩
    · exact h.move ⟨rfl, rfl, .inl (howner ▸ rfl), .inr rfl⟩ rfl rfl (.inl rfl)
  | startAbrWorker created =>
    simp only [MediaSystem.startStep] at hnext
    split_ifs at hnext with howner hcreated <;> cases hnext
    · exact h.move ⟨rfl, rfl, .inr rfl, .inl rfl⟩ rfl rfl (.inl rfl)
    · exact h.move ⟨rfl, rfl, .inr rfl, .inr rfl⟩ rfl rfl (.inl rfl)
  | _ => cases hnext

theorem Sound.stopStep (h : s.Sound) {l : SystemStep} (hnext : s.stopStep l = some t) :
    t.Sound := by
  cases l with
  | stop =>
    simp only [MediaSystem.stopStep] at hnext
    split_ifs at hnext
    cases hnext
    exact h.move ⟨rfl, rfl, .inr rfl, .inr rfl⟩ rfl rfl (.inl rfl)
  | endCapture =>
    simp only [MediaSystem.stopStep] at hnext
    split at hnext <;> [skip; cases hnext]
    rename_i full howner
    split_ifs at hnext with hidle
    cases hnext
    have hdown := h.down (howner ▸ rfl)
    exact ⟨h.accounted, (nomatch ·), fun hc => (hc hidle).elim, (nomatch ·), fun _ => hdown, h.sized⟩
  | stopWorker =>
    simp only [MediaSystem.stopStep] at hnext
    split at hnext <;> cases hnext
    rename_i full howner
    have hdown := h.down (howner ▸ rfl)
    exact h.emptied ⟨rfl, rfl, .inl (howner ▸ rfl), .inr hdown⟩ rfl rfl
  | joinWorker | endSession =>
    simp only [MediaSystem.stopStep] at hnext
    split at hnext <;> [skip; cases hnext]
    rename_i full howner
    split_ifs at hnext
    cases hnext
    have hdown := h.down (howner ▸ rfl)
    exact h.move ⟨rfl, rfl, .inl (howner ▸ rfl), .inr hdown⟩ rfl rfl (.inr (howner ▸ rfl))
  | destroyMuxer trailer =>
    simp only [MediaSystem.stopStep] at hnext
    split at hnext <;> cases hnext
    rename_i full howner
    have hdown := h.down (howner ▸ rfl)
    have hsame := SrtlaOutput.foldl_enqueue_stopped hdown (s.sink.sink.destroy trailer)
      (s.transport.mark ())
    rw [hsame]
    exact h.move ⟨rfl, rfl, .inl (howner ▸ rfl), .inr hdown⟩ rfl rfl (.inr (howner ▸ rfl))
  | clear =>
    simp only [MediaSystem.stopStep] at hnext
    split_ifs at hnext with howner
    cases hnext
    exact h.emptied ⟨rfl, rfl, .inl (howner ▸ rfl), .inl rfl⟩ rfl rfl
  | _ => cases hnext

theorem Sound.called (h : s.Sound) (howner : t.owner = s.owner)
    (hcaptures : s.owner.captures = true) (haccounted : t.transport.output.Accounted)
    (hrunning : t.transport.output.running = s.transport.output.running)
    (hsized : ∀ d ∈ t.callback.datagrams, d.bytes.length ≤ tsDatagramSize) : t.Sound := by
  refine ⟨haccounted, ?_, fun _ => howner ▸ hcaptures, fun _ => howner ▸ hcaptures, ?_, hsized⟩
  · intro hrests
    rw [howner, s.owner.rests_of_captures hcaptures] at hrests
    cases hrests
  · intro hdown
    rw [hrunning]
    exact h.down (howner ▸ hdown)

theorem Sound.callbackStep (h : s.Sound) {l : SystemStep} (hnext : s.callbackStep l = some t) :
    t.Sound := by
  have hbusy : ∀ {c : CallbackState}, s.callback = c → c ≠ .idle → s.owner.captures = true :=
    fun hc hne => h.callback (hc ▸ hne)
  cases l with
  | test packet av =>
    simp only [MediaSystem.callbackStep] at hnext
    split_ifs at hnext with hidle hskips <;> cases hnext
    all_goals
      have hcapture := h.capture (Bool.and_eq_true_iff.mp hidle).1
      exact h.called rfl hcapture h.accounted rfl (by simp [CallbackState.datagrams])
  | exchange =>
    simp only [MediaSystem.callbackStep] at hnext
    split at hnext <;> cases hnext
    rename_i packet av hcallback
    refine h.called rfl (hbusy hcallback (by simp)) (h.accounted.congr rfl rfl) rfl ?_
    exact MpegTsAvformatSink.length_of_mem_mux (s.transport.output.takeReset s.sink).2.settled
      packet av
  | enter =>
    simp only [MediaSystem.callbackStep] at hnext
    split at hnext <;> cases hnext
    rename_i d later hcallback
    have hsized := h.sized
    rw [hcallback] at hsized
    refine h.called rfl (hbusy hcallback (by simp)) h.accounted rfl ?_
    intro e he
    dsimp only at he
    split at he
    · exact hsized e (List.mem_cons_of_mem d he)
    · exact hsized e he
  | enqueue =>
    simp only [MediaSystem.callbackStep] at hnext
    split at hnext <;> cases hnext
    rename_i d later hcallback
    have hsized := h.sized
    rw [hcallback] at hsized
    refine h.called rfl (hbusy hcallback (by simp)) ?_ ?_ ?_
    · exact h.accounted.enqueueLocked (hsized d (List.mem_cons_self ..)) _
    · exact SrtlaOutput.enqueueLocked_running _ d _
    · exact fun e he => hsized e (List.mem_cons_of_mem d he)
  | finish =>
    simp only [MediaSystem.callbackStep] at hnext
    split_ifs at hnext with hcallback
    cases hnext
    exact h.called rfl (hbusy hcallback (by simp)) h.accounted rfl
      (by simp [CallbackState.datagrams])
  | _ => cases hnext

theorem Sound.threadStep (h : s.Sound) {step : MediaStep Unit}
    (hnext : s.threadStep step = some t) : t.Sound := by
  -- the other threads take the front of the queue, or empty it, or leave it alone
  simp only [MediaSystem.threadStep] at hnext
  split_ifs at hnext with hpresent
  obtain ⟨transport, htransport, rfl⟩ := Option.map_eq_some_iff.mp hnext
  have hmoves : transport.output.running = s.transport.output.running →
      Moves s { s with transport } := by
    intro hrunning
    refine ⟨rfl, rfl, ?_, ?_⟩
    · exact (Bool.eq_false_or_eq_true s.owner.captures).symm
    · rcases Bool.eq_false_or_eq_true s.owner.down with hdown | hdown
      · exact .inr (hrunning.trans (h.down hdown))
      · exact .inl hdown
  have hrests : s.owner.rests = false ∨ s.owner.rests = true :=
    (Bool.eq_false_or_eq_true s.owner.rests).symm
  cases step with
  | enqueue d origin => cases hpresent
  | takeReset => cases hpresent
  | dequeue =>
    simp only [Transport.next] at htransport
    split at htransport
    · rename_i item queue hsender hqueue
      cases htransport
      apply h.moved (hmoves rfl) (h.accounted.dequeue hqueue rfl rfl)
      intro hr
      rw [h.empty hr] at hqueue
      cases hqueue
    · split_ifs at htransport
      cases htransport
      exact h.move (hmoves rfl) rfl rfl hrests
    · cases htransport
  | send reply =>
    simp only [Transport.next] at htransport
    split at htransport <;> cases htransport
    exact h.move (hmoves rfl) rfl rfl hrests
  | purge =>
    simp only [Transport.next] at htransport
    split at htransport <;> [skip; cases htransport]
    split_ifs at htransport <;> cases htransport
    · exact h.move (hmoves rfl) rfl rfl hrests
    · exact h.emptied (hmoves rfl) rfl rfl
  | requestReset =>
    simp only [Transport.next] at htransport
    split at htransport <;> cases htransport
    exact h.move (hmoves rfl) rfl rfl hrests
  | sessionPurge =>
    simp only [Transport.next] at htransport
    split_ifs at htransport
    cases htransport
    exact h.emptied (hmoves rfl) rfl rfl
  | sessionReset =>
    simp only [Transport.next] at htransport
    split_ifs at htransport
    cases htransport
    exact h.move (hmoves rfl) rfl rfl hrests

theorem next_eq {l : SystemStep} (hnext : s.next l = some t) :
    (∃ step, s.threadStep step = some t) ∨ s.startStep l = some t ∨ s.stopStep l = some t ∨
      s.callbackStep l = some t := by
  have hor : ∀ {a b c : Option MediaSystem}, a.or (b.or c) = some t →
      a = some t ∨ b = some t ∨ c = some t := by
    intro a b c h
    rcases Option.or_eq_some_iff.mp h with h | ⟨-, h⟩
    · exact .inl h
    · exact .inr ((Option.or_eq_some_iff.mp h).imp_right And.right)
  cases l with
  | thread step => exact .inl ⟨step, hnext⟩
  | _ => exact .inr (hor hnext)

theorem Sound.next (h : s.Sound) {l : SystemStep} (hnext : s.next l = some t) : t.Sound := by
  rcases next_eq hnext with ⟨step, hstep⟩ | hstep | hstep | hstep
  · exact h.threadStep hstep
  · exact h.startStep hstep
  · exact h.stopStep hstep
  · exact h.callbackStep hstep

theorem run_sound {ls : List SystemStep} (h : Run next (fun _ _ => True) {} ls t) : t.Sound :=
  h.invariant (I := Sound) (fun _ _ _ hs _ hnext => hs.next hnext) created_sound

/-- In every state of every sequence of runs `queue_bytes` is the sum of the sizes of the queued
datagrams, and at most 8 MiB. A capture begins with an empty queue. -/
theorem queue_accounted {ls : List SystemStep} (h : Run next (fun _ _ => True) {} ls t) :
    t.transport.output.queueBytes.toNat = t.transport.output.queued ∧
      t.transport.output.queued ≤ 8 * 1024 * 1024 ∧
      (∀ item rest, t.transport.output.queue = item :: rest →
        item.1.size ≤ t.transport.output.queueBytes) ∧
      (ls.getLast? = some (.beginCapture true) →
        t.transport.output.queue = [] ∧ t.transport.output.queueBytes = 0) := by
  have hsound := run_sound h
  refine ⟨hsound.accounted.bytes, hsound.accounted.room, ?_, ?_⟩
  · intro item rest hqueue
    exact (hsound.accounted.front hqueue).2
  · intro hlast
    obtain ⟨ls, rfl⟩ := List.getLast?_eq_some_iff.mp hlast
    obtain ⟨s, hs, -, hnext⟩ := h.of_concat
    have hbefore := run_sound hs
    have hstart : s.startStep (.beginCapture true) = some t := by
      simpa [MediaSystem.next, stopStep, callbackStep] using hnext
    simp only [startStep] at hstart
    split_ifs at hstart with howner
    cases hstart
    have howner := not_not.mp howner
    have hempty := hbefore.empty (howner ▸ rfl)
    exact ⟨hempty, hbefore.accounted.queueBytes_of_empty hempty⟩

/-- A run that is stopped with a datagram in the queue and another in the hands of the sender,
and the start of the next one. -/
def restartedSteps : List SystemStep :=
  let launched := [.createSession true, .prepare true, .createMuxer true, .startWorker true,
    .beginCapture true]
  let packet : EncoderPacket := { type := .video, keyframe := true, size := 1 }
  let av : AvTrace := { frame := [List.replicate 2632 0] }
  launched ++
    [.startAbrWorker true, .test packet av, .exchange, .enter, .enqueue, .thread .dequeue, .enter,
      .stop, .enqueue, .finish, .thread (.send false), .endCapture, .stopWorker, .thread .purge,
      .joinWorker, .endSession, .destroyMuxer [[0]], .clear] ++
    launched

def restartedSystem : MediaSystem :=
  (exec (guard next fun _ _ => True) {} restartedSteps).get (by decide +kernel)

theorem queue_accounted_restarted :
    restartedSystem.transport.output.totalBytes = 2632 ∧
      restartedSystem.transport.output.queueBytes.toNat =
          restartedSystem.transport.output.queued ∧
        restartedSystem.transport.output.queued ≤ 8 * 1024 * 1024 ∧
        (∀ item rest, restartedSystem.transport.output.queue = item :: rest →
          item.1.size ≤ restartedSystem.transport.output.queueBytes) ∧
        restartedSystem.transport.output.queue = [] ∧
          restartedSystem.transport.output.queueBytes = 0 := by
  obtain ⟨hbytes, hroom, hfront, hempty⟩ :=
    queue_accounted (Run.of_exec (Option.some_get (by decide +kernel)).symm :
      Run next (fun _ _ => True) {} restartedSteps restartedSystem)
  exact ⟨by decide +kernel, hbytes, hroom, hfront, hempty (by decide +kernel)⟩

end MediaSystem
end Srtla
