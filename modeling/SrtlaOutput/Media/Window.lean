import SrtlaOutput.Media.Transport

/-! The two-second bound of the queue. It is tested when a datagram comes in, against the
front of that moment. Timestamps are not monotone, so a later front can be behind an
item the old front was not behind. -/

namespace Srtla
open Schedule

section Heads
variable {α : Type*} {R : α → α → Prop}

/-- The first entry is related to every entry. -/
def HeadRel (R : α → α → Prop) (l : List α) : Prop := ∀ a ∈ l.head?, ∀ b ∈ l, R a b

theorem headRel_of_pairwise (hrefl : ∀ a, R a a) {l : List α} (h : l.Pairwise R) : HeadRel R l := by
  intro a ha b hb
  cases l with
  | nil => cases hb
  | cons c l =>
    obtain rfl : c = a := by simpa using ha
    rcases List.mem_cons.mp hb with rfl | hmem
    · exact hrefl b
    · exact (List.pairwise_cons.mp h).1 b hmem

theorem headRel_drop_iff (hrefl : ∀ a, R a a) {l : List α} :
    (∀ n, HeadRel R (l.drop n)) ↔ l.Pairwise R := by
  constructor
  · intro h
    induction l with
    | nil => exact .nil
    | cons a l ih =>
      refine List.pairwise_cons.mpr ⟨fun b hb => ?_, ih fun n => h (n + 1)⟩
      exact h 0 a rfl b (List.mem_cons_of_mem a hb)
  · intro h n
    exact headRel_of_pairwise hrefl (h.sublist (List.drop_sublist n l))

end Heads

variable {τ : Type}

def InWindow (a b : TsDatagram × τ) : Prop := b.1.pts90k - a.1.pts90k ≤ maxQueueDuration

theorem inWindow_refl (a : TsDatagram × τ) : InWindow a a := by
  unfold InWindow maxQueueDuration
  omega

namespace SrtlaOutput

def Windowed (o : SrtlaOutput τ) : Prop := HeadRel InWindow o.queue

def Accepts (o : SrtlaOutput τ) (d : TsDatagram) : Prop :=
  o.running = true ∧ (o.dropUntilKeyframe = true → d.keyframe = true) ∧
    (o.reopen d).overflows d = false

def NearAll (o : SrtlaOutput τ) (d : TsDatagram) : Prop :=
  ∀ item ∈ (o.reopen d).queue, d.pts90k - item.1.pts90k ≤ maxQueueDuration

instance (o : SrtlaOutput τ) : Decidable o.Windowed :=
  inferInstanceAs (Decidable (∀ a ∈ o.queue.head?, ∀ b ∈ o.queue,
    b.1.pts90k - a.1.pts90k ≤ maxQueueDuration))

instance (o : SrtlaOutput τ) (d : TsDatagram) : Decidable (o.Accepts d) :=
  inferInstanceAs (Decidable (_ ∧ (_ → _) ∧ _))

instance (o : SrtlaOutput τ) (d : TsDatagram) : Decidable (o.NearAll d) :=
  inferInstanceAs (Decidable (∀ item ∈ (o.reopen d).queue,
    d.pts90k - item.1.pts90k ≤ maxQueueDuration))

theorem enqueueDatagram_of_accepts {o : SrtlaOutput τ} {d : TsDatagram} (h : o.Accepts d)
    (tag : τ) : (o.enqueueDatagram d tag).queue = (o.reopen d).queue ++ [(d, tag)] := by
  obtain ⟨hrunning, hkey, hroom⟩ := h
  rcases enqueueDatagram_cases hrunning d tag with ⟨hdrop, hdelta, _⟩ | ⟨_, heq⟩
  · rw [hkey hdrop] at hdelta
    cases hdelta
  · rw [heq, push_of_room hroom]

theorem reopen_queue (o : SrtlaOutput τ) (d : TsDatagram) : (o.reopen d).queue <:+ o.queue := by
  unfold reopen
  split_ifs
  · exact List.nil_suffix
  · exact List.suffix_refl _

theorem enqueueDatagram_of_rejects {o : SrtlaOutput τ} {d : TsDatagram} (h : ¬o.Accepts d)
    (tag : τ) : (o.enqueueDatagram d tag).queue <:+ o.queue := by
  cases hrunning : o.running with
  | false =>
    rw [enqueueDatagram, hrunning]
    exact List.suffix_refl _
  | true =>
    rcases enqueueDatagram_cases hrunning d tag with ⟨_, _, heq⟩ | ⟨hkey, heq⟩
    · have hsame : o.queue = (o.enqueueDatagram d tag).queue := congrArg (·.queue) heq.symm
      exact hsame ▸ List.suffix_refl o.queue
    · have hover : (o.reopen d).overflows d = true := by
        by_contra hroom
        exact h ⟨hrunning, hkey, by simpa using hroom⟩
      rw [heq, push_of_overflow hover]
      exact reopen_queue o d

theorem accepted_windowed_iff {o : SrtlaOutput τ} (h : o.queue.Pairwise InWindow)
    {d : TsDatagram} (haccepts : o.Accepts d) (tag : τ) :
    (∀ n, HeadRel InWindow ((o.enqueueDatagram d tag).queue.drop n)) ↔ o.NearAll d := by
  have hkept : (o.reopen d).queue.Pairwise InWindow := h.sublist (reopen_queue o d).sublist
  rw [headRel_drop_iff inWindow_refl, enqueueDatagram_of_accepts haccepts, List.pairwise_append]
  constructor
  · intro hall item hitem
    exact hall.2.2 item hitem (d, tag) (List.mem_singleton_self _)
  · intro hnear
    refine ⟨hkept, List.pairwise_singleton _ _, fun item hitem b hb => ?_⟩
    obtain rfl := List.mem_singleton.mp hb
    exact hnear item hitem

end SrtlaOutput

namespace Transport

def NearStep (t : Transport τ) : MediaStep τ → Prop
  | .enqueue d _ => t.output.Accepts d → t.output.NearAll d
  | _ => True

instance (t : Transport τ) : ∀ step, Decidable (t.NearStep step)
  | .enqueue d _ => inferInstanceAs (Decidable (t.output.Accepts d → t.output.NearAll d))
  | .takeReset | .dequeue | .send _ | .purge | .requestReset | .sessionPurge | .sessionReset =>
    .isTrue trivial

theorem next_queue {t t' : Transport τ} {step : MediaStep τ} (hother : step.datagram = none)
    (ht : t.next step = some t') : t'.output.queue <:+ t.output.queue := by
  -- the dequeues and the purges only shorten the queue, from the front
  cases step with
  | enqueue d origin => cases hother
  | _ => grind [Transport.next, SrtlaOutput.purge, List.suffix_refl, List.suffix_cons]

theorem next_pairwise {t t' : Transport τ} {step : MediaStep τ}
    (h : t.output.queue.Pairwise InWindow) (hnear : t.NearStep step)
    (ht : t.next step = some t') : t'.output.queue.Pairwise InWindow := by
  cases hstep : step.datagram with
  | none => exact h.sublist (next_queue hstep ht).sublist
  | some d =>
    obtain ⟨origin, rfl⟩ : ∃ origin, step = .enqueue d origin := by
      cases step <;> simp_all [MediaStep.datagram]
    obtain rfl := Option.some.inj ht
    by_cases haccepts : t.output.Accepts d
    · rw [← headRel_drop_iff inWindow_refl]
      exact (SrtlaOutput.accepted_windowed_iff h haccepts _).mpr (hnear haccepts)
    · exact h.sublist (SrtlaOutput.enqueueDatagram_of_rejects haccepts _).sublist

/-- In every run whose accepted datagrams are near everything queued, no queued datagram
is ever more than two seconds ahead of the front. An accepted datagram that is not makes
some later front break the bound. -/
theorem queue_windowed (o : SrtlaOutput (Mark τ)) {steps : List (MediaStep τ)} {t : Transport τ}
    (h : Run next NearStep (started o) steps t) :
    t.output.Windowed ∧ ∀ d, t.output.Accepts d → ∀ tag,
      ((∀ n, HeadRel InWindow ((t.output.enqueueDatagram d tag).queue.drop n)) ↔
        t.output.NearAll d) := by
  have hpair : t.output.queue.Pairwise InWindow :=
    h.invariant (I := fun t => t.output.queue.Pairwise InWindow)
      (fun _ _ _ hs hok hnext => next_pairwise hs hok hnext) .nil
  exact ⟨headRel_of_pairwise inWindow_refl hpair, fun d haccepts tag =>
    SrtlaOutput.accepted_windowed_iff hpair haccepts tag⟩

def stamped (keyframe : Bool) (pts90k : Int) : TsDatagram where
  bytes := [71]
  keyframe
  pts90k
  nonempty := by simp

/-- A packet without a timestamp, stamped 0, between two that have one. -/
def reordered : List (MediaStep Unit) :=
  [.enqueue (stamped true 1000000) (), .enqueue (stamped false 0) (),
    .enqueue (stamped false 1000001) ()]

def afterReordered : Transport Unit :=
  (exec next (started {}) (reordered ++ [.dequeue])).get (by decide +kernel)

/-- Once the first datagram is taken, the last one is 1000001 ticks ahead of the front. -/
theorem window_exceeded :
    exec next (started {}) (reordered ++ [.dequeue]) = some afterReordered ∧
      afterReordered.output.queue.map (·.1.pts90k) = [0, 1000001] ∧
      ¬afterReordered.output.Windowed := by
  refine ⟨(Option.some_get _).symm, by decide +kernel, by decide +kernel⟩

def interleaved : List (MediaStep Unit) :=
  [.enqueue (stamped true 93000) (), .enqueue (stamped false 90000) (),
    .enqueue (stamped false 96000) (), .dequeue, .send true]

def afterInterleaved : Transport Unit :=
  (exec (guard next NearStep) (started {}) interleaved).get (by decide +kernel)

theorem queue_windowed_interleaved : afterInterleaved.output.Windowed := by
  have hrun : Run next NearStep (started {}) interleaved afterInterleaved :=
    .of_exec (Option.some_get _).symm
  exact (queue_windowed {} hrun).1

end Transport
end Srtla
