import SrtlaOutput.Lib.Chain
import SrtlaOutput.Lib.Schedule
import SrtlaOutput.Media.Output

/-! The three threads at the media queue, from the start of the output until it is stopped: the
encoder callback puts datagrams in, the sender takes them out and purges after a failed send,
the session purges when it reconnects. A critical section is one step, and so is a store
outside of one. -/

namespace Srtla
open Schedule Chain
variable {τ : Type}

/-- What is known of a queued datagram beside its content: its place in the order of
emission, and whether the queue was dropping when it took the datagram. -/
structure Mark (τ : Type) where
  serial : Nat
  resumes : Bool
  origin : τ
  deriving DecidableEq, Repr

abbrev Item (τ : Type) := TsDatagram × Mark τ

inductive SenderState (τ : Type)
  | idle
  | sending (item : Item τ)
  | failed
  | purged
  | returned
  deriving DecidableEq, Repr

namespace SenderState

def inHand : SenderState τ → List (Item τ)
  | .sending item => [item]
  | _ => []

/-- After a failed send the thread is about to purge the queue. Nothing that waits is sent. -/
def lost : SenderState τ → Bool
  | .failed => true
  | _ => false

end SenderState

/-- `emitted` lists what went to `enqueue_datagram`, and `handed` what went to `send_ts`, with
its reply. -/
structure Transport (τ : Type) where
  output : SrtlaOutput (Mark τ)
  sender : SenderState τ := .idle
  reconnecting : Bool := false
  emitted : List TsDatagram := []
  handed : List (Item τ × Bool) := []
  deriving DecidableEq

inductive MediaStep (τ : Type)
  | enqueue (d : TsDatagram) (origin : τ)
  | takeReset
  | dequeue
  | send (reply : Bool)
  | purge
  | requestReset
  | sessionPurge
  | sessionReset
  deriving DecidableEq

def MediaStep.datagram : MediaStep τ → Option TsDatagram
  | .enqueue d _ => some d
  | _ => none

namespace Transport

def sent (t : Transport τ) : List (Item τ) := (t.handed.filter (·.2)).map (·.1)

def started (o : SrtlaOutput (Mark τ)) : Transport τ where
  output :=
    { o with
      queue := [], dropUntilKeyframe := false, needsMuxerReset := false, workerStop := false
      running := true }

def mark (t : Transport τ) (origin : τ) : Mark τ where
  serial := t.emitted.length
  resumes := t.output.dropUntilKeyframe
  origin := origin

def next (t : Transport τ) : MediaStep τ → Option (Transport τ)
  | .enqueue d origin =>
    let output := t.output.enqueueDatagram d (t.mark origin)
    some { t with output, emitted := t.emitted ++ [d] }
  | .takeReset => some { t with output := { t.output with needsMuxerReset := false } }
  | .dequeue =>
    match t.sender, t.output.queue with
    | .idle, item :: queue =>
      let output := { t.output with queue, queueBytes := t.output.queueBytes - item.1.size }
      some { t with output, sender := .sending item }
    | .idle, [] => if t.output.workerStop then some { t with sender := .returned } else none
    | _, _ => none
  | .send reply =>
    match t.sender with
    | .sending item =>
      let handed := t.handed ++ [(item, reply)]
      some { t with handed, sender := if reply then .idle else .failed }
    | _ => none
  | .purge =>
    match t.sender with
    | .failed =>
      if t.output.workerStop then some { t with sender := .returned }
      else
        let output := { t.output.purge with droppedFrames := t.output.droppedFrames + 1 }
        some { t with output, sender := .purged }
    | _ => none
  | .requestReset =>
    match t.sender with
    | .purged => some { t with output := { t.output with needsMuxerReset := true }, sender := .idle }
    | _ => none
  | .sessionPurge =>
    if t.reconnecting then none
    else some { t with output := t.output.purge, reconnecting := true }
  | .sessionReset =>
    if t.reconnecting then
      some { t with output := { t.output with needsMuxerReset := true }, reconnecting := false }
    else none

/-- One datagram may follow another on the wire: it is the next one emitted, or the queue
was dropping in between. -/
def Follows (a b : Item τ × Bool) : Prop :=
  a.1.2.serial < b.1.2.serial ∧
    (b.1.2.resumes = true ∨ a.2 = true ∧ b.1.2.serial = a.1.2.serial + 1)

theorem Follows.skip {a b c : Item τ × Bool} (hb : b.2 = false) (hab : Follows a b)
    (hbc : Follows b c) : Follows a c := by
  obtain ⟨hlt, -⟩ := hab
  obtain ⟨hlt', hbreak⟩ := hbc
  refine ⟨Nat.lt_trans hlt hlt', ?_⟩
  rcases hbreak with hresumes | ⟨hok, -⟩
  · exact .inl hresumes
  · rw [hb] at hok
    cases hok

def ahead (t : Transport τ) : List (Item τ) :=
  t.sender.inHand ++ if t.sender.lost then [] else t.output.queue

def line (t : Transport τ) : List (Item τ × Bool) := t.handed ++ t.ahead.map (·, true)

/-- What every step keeps: what was handed over and what waits is one line in the order of
emission, and while the queue does not drop the line ends with the last datagram emitted. Where
the line resumes, `P` holds. -/
structure InOrder (P : Item τ → Prop) (t : Transport τ) : Prop where
  running : t.output.running = true
  workerStop : t.output.workerStop = false
  chain : t.line.IsChain Follows
  emitted : ∀ x ∈ t.line, t.emitted[x.1.2.serial]? = some x.1.1
  resuming : ∀ x ∈ t.line, x.1.2.resumes = true → P x.1
  first : ∀ x ∈ t.line.head?, x.1.2.resumes = true ∨ x.1.2.serial = 0
  latest : t.output.dropUntilKeyframe = false → t.sender.lost = false →
    t.line.getLast?.elim (t.emitted = []) fun x => x.2 = true ∧ x.1.2.serial + 1 = t.emitted.length

theorem started_line (o : SrtlaOutput (Mark τ)) : (started o).line = [] := rfl

theorem started_inOrder (P : Item τ → Prop) (o : SrtlaOutput (Mark τ)) :
    (started o).InOrder P where
  running := rfl
  workerStop := rfl
  chain := .nil
  emitted := by simp [started_line]
  resuming := by simp [started_line]
  first := by simp [started_line]
  latest := fun _ _ => rfl

variable {P : Item τ → Prop} {t t' : Transport τ}

theorem InOrder.below (h : t.InOrder P) {x : Item τ × Bool} (hx : x ∈ t.line) :
    x.1.2.serial < t.emitted.length := by
  obtain ⟨hlt, -⟩ := List.getElem?_eq_some_iff.mp (h.emitted x hx)
  exact hlt

theorem InOrder.moved (h : t.InOrder P) (hrunning : t'.output.running = t.output.running)
    (hstop : t'.output.workerStop = t.output.workerStop) (hline : t'.line = t.line)
    (hemitted : t'.emitted = t.emitted)
    (hlatest : t'.output.dropUntilKeyframe = false → t'.sender.lost = false →
      t.output.dropUntilKeyframe = false ∧ t.sender.lost = false) : t'.InOrder P := by
  refine ⟨hrunning.trans h.running, hstop.trans h.workerStop, hline ▸ h.chain, ?_,
    hline ▸ h.resuming, hline ▸ h.first, ?_⟩
  · rw [hline, hemitted]
    exact h.emitted
  · intro hdrop hlost
    obtain ⟨hdrop', hlost'⟩ := hlatest hdrop hlost
    rw [hline, hemitted]
    exact h.latest hdrop' hlost'

theorem head?_of_initial {α : Type*} {l m : List α} (h : l <+: m) {x : α} (hx : x ∈ l.head?) :
    x ∈ m.head? :=
  List.singleton_prefix_iff_head?_eq_some.mp
    ((List.singleton_prefix_iff_head?_eq_some.mpr hx).trans h)

theorem InOrder.cut (h : t.InOrder P) (hrunning : t'.output.running = t.output.running)
    (hstop : t'.output.workerStop = t.output.workerStop) (hline : t'.line <+: t.line)
    (hemitted : t.emitted <+: t'.emitted)
    (hclosed : t'.output.dropUntilKeyframe = false → t'.sender.lost = true) : t'.InOrder P := by
  have hmem := fun x hx => hline.subset (a := x) hx
  refine ⟨hrunning.trans h.running, hstop.trans h.workerStop, List.IsChain.prefix h.chain hline, ?_,
    fun x hx => h.resuming x (hmem x hx), fun x hx => h.first x (head?_of_initial hline hx), ?_⟩
  · intro x hx
    obtain ⟨more, hmore⟩ := hemitted
    rw [← hmore, List.getElem?_append_left (h.below (hmem x hx))]
    exact h.emitted x (hmem x hx)
  · intro hdrop hlost
    have hlost' := hclosed hdrop
    rw [hlost] at hlost'
    cases hlost'

theorem line_cut (hhanded : t'.handed = t.handed) (hsender : t'.sender = t.sender)
    (hqueue : t'.output.queue <+: t.output.queue) : t'.line <+: t.line := by
  rw [line, line, ahead, ahead, hhanded, hsender]
  apply List.prefix_append_right_inj _ |>.mpr
  apply List.IsPrefix.map
  apply List.prefix_append_right_inj _ |>.mpr
  split_ifs
  · exact List.nil_prefix
  · exact hqueue

theorem ahead_of_live (hlost : t.sender.lost = false) :
    t.ahead = t.sender.inHand ++ t.output.queue := by
  rw [ahead, hlost]
  rfl

theorem InOrder.next_follows (h : t.InOrder P) {front : List (Item τ × Bool)} {mark : Mark τ}
    (hserial : mark.serial = t.emitted.length) (hresumes : mark.resumes = t.output.dropUntilKeyframe)
    (hwhole : t.output.dropUntilKeyframe = false → front = t.line) (hlost : t.sender.lost = false) :
    mark.resumes = true ∨
      front.getLast?.elim (mark.serial = 0) fun x => x.2 = true ∧ mark.serial = x.1.2.serial + 1 := by
  -- the datagram that is emitted next resumes, or it follows the end of the line
  cases hdrop : t.output.dropUntilKeyframe with
  | true => exact .inl (hresumes.trans hdrop)
  | false =>
    have hlatest := h.latest hdrop hlost
    rw [hwhole hdrop, hserial]
    cases hlast : t.line.getLast? with
    | none =>
      rw [hlast] at hlatest
      exact .inr (congrArg List.length hlatest)
    | some x =>
      rw [hlast] at hlatest
      exact .inr ⟨hlatest.1, hlatest.2.symm⟩

theorem InOrder.accept (h : t.InOrder P) {d : TsDatagram} {mark : Mark τ}
    (hserial : mark.serial = t.emitted.length) (hresumes : mark.resumes = t.output.dropUntilKeyframe)
    {base : List (Item τ)} (hbase : base <+: t.output.queue)
    (hsame : t.output.dropUntilKeyframe = false → base = t.output.queue)
    (hkey : t.output.dropUntilKeyframe = true → P (d, mark)) (hlost : t.sender.lost = false)
    (hrunning : t'.output.running = t.output.running)
    (hstop : t'.output.workerStop = t.output.workerStop)
    (hqueue : t'.output.queue = base ++ [(d, mark)]) (hsender : t'.sender = t.sender)
    (hhanded : t'.handed = t.handed) (hemitted : t'.emitted = t.emitted ++ [d]) : t'.InOrder P := by
  -- what is left of the line, and the datagram after it
  obtain ⟨front, hfront⟩ : ∃ front, front = t.handed ++ (t.sender.inHand ++ base).map (·, true) :=
    ⟨_, rfl⟩
  have hkept : front <+: t.line := by
    rw [hfront, line, ahead_of_live hlost]
    apply List.prefix_append_right_inj _ |>.mpr
    apply List.IsPrefix.map
    exact List.prefix_append_right_inj _ |>.mpr hbase
  have hline : t'.line = front ++ [((d, mark), true)] := by
    rw [hfront, line, ahead_of_live (hsender ▸ hlost), hhanded, hsender, hqueue]
    simp
  have hmem := fun x hx => hkept.subset (a := x) hx
  have hwhole : t.output.dropUntilKeyframe = false → front = t.line := by
    intro hdrop
    rw [hfront, hsame hdrop, line, ahead_of_live hlost]
  have hnext := h.next_follows hserial hresumes hwhole hlost
  have hlast : ∀ x ∈ front.getLast?, Follows x ((d, mark), true) := by
    intro x hx
    have hbelow := h.below (hmem x (List.mem_of_getLast? hx))
    rw [hx] at hnext
    exact ⟨hserial ▸ hbelow, hnext⟩
  refine ⟨hrunning.trans h.running, hstop.trans h.workerStop, ?_, ?_, ?_, ?_, ?_⟩
  · rw [hline]
    exact isChain_concat ( List.IsChain.prefix h.chain hkept) hlast
  · intro x hx
    rw [hline, List.mem_append, List.mem_singleton] at hx
    rw [hemitted]
    rcases hx with hx | rfl
    · rw [List.getElem?_append_left (h.below (hmem x hx))]
      exact h.emitted x (hmem x hx)
    · rw [hserial]
      exact List.getElem?_concat_length
  · intro x hx
    rw [hline, List.mem_append, List.mem_singleton] at hx
    rcases hx with hx | rfl
    · exact h.resuming x (hmem x hx)
    · intro hmark
      exact hkey (hresumes.symm.trans hmark)
  · cases hfirst : front.head? with
    | some y =>
      rw [hline, List.head?_append, hfirst]
      rintro x ⟨⟩
      exact h.first y (head?_of_initial hkept hfirst)
    | none =>
      obtain hnil := List.head?_eq_none_iff.mp hfirst
      rw [hnil] at hnext
      rw [hline, hnil]
      rintro x ⟨⟩
      exact hnext
  · intro _ _
    rw [hline, List.getLast?_concat, hemitted, List.length_append]
    exact ⟨rfl, congrArg (· + 1) hserial⟩

theorem InOrder.enqueue (h : t.InOrder P) {d : TsDatagram} {origin : τ}
    (hP : t.output.dropUntilKeyframe = true → d.keyframe = true → P (d, t.mark origin))
    (ht : t.next (.enqueue d origin) = some t') : t'.InOrder P := by
  obtain ⟨mark, hmark⟩ : ∃ mark, mark = t.mark origin := ⟨_, rfl⟩
  obtain rfl : { t with output := t.output.enqueueDatagram d mark, emitted := t.emitted ++ [d] } =
    t' := by simpa only [next, hmark] using Option.some.inj ht
  have hrunning := SrtlaOutput.enqueueDatagram_running t.output d mark
  have hstop := SrtlaOutput.enqueueDatagram_workerStop t.output d mark
  obtain ⟨base, hbase, hsame, hcases⟩ := SrtlaOutput.enqueueDatagram_queue h.running d mark
  rcases hcases with ⟨hqueue, hdrop⟩ | ⟨hqueue, hdrop, hkey⟩
  · refine h.cut hrunning hstop (line_cut rfl rfl (hqueue ▸ hbase)) (List.prefix_append _ _) ?_
    intro hopen
    rw [hdrop] at hopen
    cases hopen
  · cases hlost : t.sender.lost with
    | true =>
      -- the sender purges what it has not seen
      refine h.cut hrunning hstop ?_ (List.prefix_append _ _) fun _ => hlost
      simp only [line, ahead, hlost, if_true]
      exact List.prefix_refl _
    | false =>
      have hP' := fun hdrop => hmark ▸ hP hdrop (hkey hdrop)
      exact h.accept (hmark ▸ rfl) (hmark ▸ rfl) hbase hsame hP' hlost hrunning hstop hqueue rfl
        rfl rfl

theorem InOrder.dequeue (h : t.InOrder P) (ht : t.next .dequeue = some t') : t'.InOrder P := by
  cases hsender : t.sender <;> cases hqueue : t.output.queue <;>
    simp only [next, hsender, hqueue, reduceCtorEq, Option.some.injEq] at ht
  case idle.nil =>
    rw [h.workerStop] at ht
    cases ht
  case idle.cons =>
    subst ht
    refine h.moved rfl rfl ?_ rfl fun hdrop _ => ⟨hdrop, by rw [hsender]; rfl⟩
    simp [line, ahead, hsender, hqueue, SenderState.inHand, SenderState.lost]

theorem InOrder.send (h : t.InOrder P) {reply : Bool} (ht : t.next (.send reply) = some t') :
    t'.InOrder P := by
  cases hsender : t.sender <;> simp only [next, hsender, reduceCtorEq, Option.some.injEq] at ht
  rename_i item
  subst ht
  have hlive : t.sender.lost = false := by
    rw [hsender]
    rfl
  have hline : t.line = t.handed ++ (item, true) :: t.output.queue.map (·, true) := by
    rw [line, ahead_of_live hlive, hsender]
    rfl
  cases reply with
  | true =>
    refine h.moved rfl rfl ?_ rfl fun hdrop _ => ⟨hdrop, hlive⟩
    rw [hline]
    simp [line, ahead, SenderState.inHand, SenderState.lost]
  | false =>
    -- the line ends with the datagram that was refused
    obtain ⟨hhanded, -, hlast⟩ := List.isChain_append.mp (hline ▸ h.chain)
    have hmem : (item, true) ∈ t.line := by
      rw [hline]
      simp
    have hold : ∀ x ∈ t.handed, x ∈ t.line := fun x hx => hline ▸ List.mem_append_left _ hx
    refine ⟨h.running, h.workerStop, ?_, ?_, ?_, ?_, fun _ hlost => by cases hlost⟩
    all_goals simp only [line, ahead, SenderState.inHand, SenderState.lost, if_true,
      List.map_nil, List.append_nil, Bool.false_eq_true, if_false]
    · exact isChain_concat hhanded fun x hx => hlast x hx (item, true) rfl
    · intro x hx
      rcases List.mem_append.mp hx with hx | hx
      · exact h.emitted x (hold x hx)
      · obtain rfl := List.mem_singleton.mp hx
        exact h.emitted (item, true) hmem
    · intro x hx
      rcases List.mem_append.mp hx with hx | hx
      · exact h.resuming x (hold x hx)
      · obtain rfl := List.mem_singleton.mp hx
        exact h.resuming (item, true) hmem
    · intro x hx
      have hfirst := h.first
      rw [hline] at hfirst
      cases hhanded : t.handed with
      | nil =>
        rw [hhanded] at hx hfirst
        obtain rfl := Option.some.inj hx
        exact hfirst (item, true) rfl
      | cons y handed =>
        rw [hhanded] at hx hfirst
        exact hfirst x hx

theorem InOrder.purge (h : t.InOrder P) (ht : t.next .purge = some t') : t'.InOrder P := by
  cases hsender : t.sender <;> simp only [next, hsender, reduceCtorEq] at ht
  rw [h.workerStop] at ht
  obtain rfl := Option.some.inj ht
  refine h.cut rfl rfl ?_ (List.prefix_refl _) fun hdrop => by cases hdrop
  simp [line, ahead, SrtlaOutput.purge, SenderState.inHand, SenderState.lost]

theorem InOrder.requestReset (h : t.InOrder P) (ht : t.next .requestReset = some t') :
    t'.InOrder P := by
  cases hsender : t.sender <;> simp only [next, hsender, reduceCtorEq, Option.some.injEq] at ht
  subst ht
  refine h.moved rfl rfl ?_ rfl fun hdrop _ => ⟨hdrop, by rw [hsender]; rfl⟩
  simp [line, ahead, hsender, SenderState.inHand, SenderState.lost]

theorem InOrder.next (h : t.InOrder P) {step : MediaStep τ}
    (hP : ∀ d origin, step = .enqueue d origin → t.output.dropUntilKeyframe = true →
      d.keyframe = true → P (d, t.mark origin))
    (ht : t.next step = some t') : t'.InOrder P := by
  cases step with
  | enqueue d origin => exact h.enqueue (hP d origin rfl) ht
  | dequeue => exact h.dequeue ht
  | send reply => exact h.send ht
  | purge => exact h.purge ht
  | requestReset => exact h.requestReset ht
  | takeReset =>
    obtain rfl := Option.some.inj ht
    exact h.moved rfl rfl rfl rfl fun hdrop hlost => ⟨hdrop, hlost⟩
  | sessionPurge =>
    obtain ⟨-, ht⟩ := Option.ite_none_left_eq_some.mp ht
    obtain rfl := Option.some.inj ht
    refine h.cut rfl rfl (line_cut rfl rfl List.nil_prefix) (List.prefix_refl _) ?_
    intro hdrop
    cases hdrop
  | sessionReset =>
    obtain ⟨-, ht⟩ := Option.ite_none_right_eq_some.mp ht
    obtain rfl := Option.some.inj ht
    exact h.moved rfl rfl rfl rfl fun hdrop hlost => ⟨hdrop, hlost⟩

theorem next_emitted {step : MediaStep τ} (ht : t.next step = some t') :
    t'.emitted = t.emitted ++ step.datagram.toList := by
  cases step <;> grind [Transport.next, MediaStep.datagram]

theorem run_emitted {ok : Transport τ → MediaStep τ → Prop} {steps : List (MediaStep τ)}
    (h : Run next ok t steps t') : t'.emitted = t.emitted ++ steps.filterMap MediaStep.datagram := by
  induction h with
  | nil => exact (List.append_nil _).symm
  | @cons _ _ _ step _ _ hnext _ ih =>
    rw [ih, next_emitted hnext, List.append_assoc]
    cases hd : step.datagram <;> simp [hd]

theorem Follows.sent {a b : Item τ × Bool} (h : Follows a b)
    (hkey : b.1.2.resumes = true → b.1.1.keyframe = true) :
    b.1.2.serial = a.1.2.serial + 1 ∨ b.1.1.keyframe = true := by
  rcases h.2 with hresumes | ⟨-, hnext⟩
  · exact .inr (hkey hresumes)
  · exact .inl hnext

/-- What is sent was emitted, in the same order and never twice, and after a gap comes a
datagram with the keyframe stamp. -/
theorem no_silent_gap (o : SrtlaOutput (Mark τ)) (steps : List (MediaStep τ)) {t : Transport τ}
    (h : Run next (fun _ _ => True) (started o) steps t) :
    (∀ item ∈ t.sent, (steps.filterMap MediaStep.datagram)[item.2.serial]? = some item.1) ∧
      (t.sent.Pairwise fun a b => a.2.serial < b.2.serial) ∧
      t.sent.IsChain fun a b => b.2.serial = a.2.serial + 1 ∨ b.1.keyframe = true := by
  have hinv : t.InOrder fun item => item.1.keyframe = true :=
    h.invariant (fun _ _ _ hs _ hnext => hs.next (fun _ _ _ _ hkey => hkey) hnext)
      (started_inOrder _ o)
  have hmem : ∀ x ∈ t.handed.filter (·.2), x ∈ t.line := by
    intro x hx
    exact List.mem_append_left _ (List.mem_of_mem_filter hx)
  have hskip : ∀ a b c : Item τ × Bool, b.2 = false → Follows a b → Follows b c → Follows a c :=
    fun _ _ _ hb => Follows.skip hb
  have hchain : (t.handed.filter (·.2)).IsChain Follows :=
    isChain_filter hskip (List.isChain_append.mp hinv.chain).1
  -- the refused datagrams leave the line; only one that resumes can come after them
  refine ⟨?_, ?_, ?_⟩
  · intro item hitem
    obtain ⟨x, hx, rfl⟩ := List.mem_map.mp hitem
    have hemitted : t.emitted = steps.filterMap MediaStep.datagram := run_emitted h
    rw [← hemitted]
    exact hinv.emitted x (hmem x hx)
  · have hserial : ((t.handed.filter (·.2)).map (·.1.2.serial)).IsChain (· < ·) :=
      List.isChain_map _ |>.mpr (hchain.imp fun _ _ hab => hab.1)
    have hsorted := List.isChain_iff_pairwise.mp hserial
    rw [List.pairwise_map] at hsorted
    rwa [sent, List.pairwise_map]
  · rw [sent, List.isChain_map]
    exact hchain.imp_of_mem_imp fun a b _ hb hab => hab.sent (hinv.resuming b (hmem b hb))

/-! A run in which the second datagram is refused and the third comes too early. -/

def oneByte (keyframe : Bool) : TsDatagram :=
  { bytes := [71], keyframe, pts90k := 0, nonempty := by decide }

def refusal : List (MediaStep Unit) :=
  [.enqueue (oneByte true) (), .enqueue (oneByte false) (), .dequeue, .send true, .dequeue,
    .send false, .purge, .enqueue (oneByte false) (), .requestReset, .enqueue (oneByte true) (),
    .dequeue, .send true]

def afterRefusal : Transport Unit :=
  (exec (guard next fun _ _ => True) (started {}) refusal).get (by decide +kernel)

theorem no_silent_gap_refused :
    afterRefusal.sent.map (·.2.serial) = [0, 3] ∧
      afterRefusal.sent.IsChain fun a b => b.2.serial = a.2.serial + 1 ∨ b.1.keyframe = true := by
  have hrun : Run next (fun _ _ => True) (started {}) refusal afterRefusal :=
    .of_exec (Option.some_get _).symm
  exact ⟨by decide +kernel, (no_silent_gap {} refusal hrun).2.2⟩

end Transport
end Srtla
