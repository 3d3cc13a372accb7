import SrtlaOutput.Control.Fatal

/-! A fatal error and its run. While each start finds no fatal report under way, whatever a task
does is done to the run that it comes from, and no two tasks do something to one run. -/

namespace Srtla
open Schedule

def LifePc.starting : LifePc → Bool
  | .resetting | .creating | .connecting | .launching => true
  | _ => false

def LifePc.cleared : LifePc → Bool
  | .stopping _ pc => pc ≠ .running
  | _ => false

def UiPc.task : UiPc → Option FatalOutputTask
  | .testing task => some task
  | ui => ui.acting

theorem UiPc.task_of_acting {ui : UiPc} {task : FatalOutputTask} (h : ui.acting = some task) :
    ui.task = some task := by
  cases ui <;> first | exact h | cases h

def UiPc.live : UiPc → Bool
  | .setError _ | .signalStop _ | .stopping _ .running => true
  | _ => false

def UiPc.cleared : UiPc → Bool
  | .stopping _ pc => pc ≠ .running
  | _ => false

namespace FatalSystem

/-- Every report, every task and every effect belongs to the run that the output is in. -/
structure Steady (s : FatalSystem) : Prop extends OwnRuns s where
  reports : ∀ r, ∀ report ∈ (s.reporter r).report, report.run = s.run
  tasks : ∀ task ∈ s.tasks, task.run = s.run
  ui : ∀ task ∈ s.ui.task, task.run = s.run
  past : ∀ e ∈ s.effects, e.run ≤ s.run
  starting : s.owner.starting = true →
    s.running = false ∧ s.capture = false ∧ s.Settled ∧ ∀ e ∈ s.effects, e.run ≠ s.run
  captured : s.running = true →
    s.capture = true ∨ s.owner = .capturing ∨ (∃ full, s.owner = .stopping full .running) ∨
      s.ui.live = true
  ending : s.ending = true → s.capture = true ∧ (s.running = true → s.ui.live = true)
  cleared : s.owner.cleared = true ∨ s.ui.cleared = true → s.running = false
  acting : s.running = true ∨ s.ui.acting ≠ none →
    ∀ e ∈ s.effects, e.run = s.run → s.ui.acting = some e.task

variable {s t : FatalSystem} {l : FatalStep}

theorem Steady.initial : Steady {} where
  own := by simp
  once := by simp
  reports := by simp [ReportPc.report]
  tasks := by simp
  ui := by simp [UiPc.task, UiPc.acting]
  past := by simp
  starting h := by simp [LifePc.starting] at h
  captured h := by simp at h
  ending h := by simp at h
  cleared _ := rfl
  acting _ := by simp

theorem reporter_withReporter (s : FatalSystem) (r r' : FatalReporter) (pc : ReportPc) :
    (s.withReporter r pc).reporter r' = if r' = r then pc else s.reporter r' := by
  by_cases hr : r' = r
  · subst hr
    simp [withReporter]
  · simp [withReporter, hr]

theorem Steady.withReporter (h : Steady s) (r : FatalReporter) {pc : ReportPc}
    (hpc : ∀ report ∈ pc.report, report.run = s.run ∧ s.owner.starting = false) :
    Steady (s.withReporter r pc) :=
  { h with
    reports := by
  -- a thread moves on with a report of this run, which no start allows, or with none
      intro r' report hreport
      rw [reporter_withReporter] at hreport
      split_ifs at hreport
      · exact (hpc report hreport).1
      · exact h.reports r' report hreport
    starting := by
      intro hstarting
      obtain ⟨hrunning, hcapture, hsettled, hnew⟩ := h.starting hstarting
      refine ⟨hrunning, hcapture, ⟨fun r' => ?_, hsettled.2⟩, hnew⟩
      rw [reporter_withReporter]
      split_ifs
      · refine Option.eq_none_iff_forall_ne_some.mpr fun report hreport => ?_
        have hlater : s.owner.starting = false := (hpc report hreport).2
        exact Bool.false_ne_true (hlater.symm.trans hstarting)
      · exact hsettled.1 r' }

theorem Steady.report (h : Steady s) {r : FatalReporter} {report : FatalReport}
    (hr : (s.reporter r).report = some report) :
    report.run = s.run ∧ s.owner.starting = false := by
  -- a report that is under way excludes a start
  refine ⟨h.reports r report hr, Bool.eq_false_iff.mpr fun hstarting => ?_⟩
  have hnone := (h.starting hstarting).2.2.1.1 r
  rw [hr] at hnone
  cases hnone

theorem Steady.enter (h : Steady s) {r : FatalReporter} {error : String}
    (hnext : s.enter r error = some t) : Steady t := by
  simp only [FatalSystem.enter] at hnext
  split_ifs at hnext with henabled hrunning
  · obtain rfl := Option.some.inj hnext
    apply h.withReporter r
    rintro report ⟨⟩
    refine ⟨rfl, Bool.eq_false_iff.mpr fun hstarting => ?_⟩
    rw [(h.starting hstarting).1] at hrunning
    cases hrunning
  · obtain rfl := Option.some.inj hnext
    exact h

theorem Steady.addTask (h : Steady s) (task : FatalOutputTask) (hrun : task.run = s.run)
    (hstarted : s.owner.starting = false) (queued : Nat) :
    Steady { s with tasks := s.tasks ++ [task], queued } :=
  { h with
    tasks := by
      intro task' htask
      rcases List.mem_append.mp htask with hold | hnew
      · exact h.tasks task' hold
      · rw [List.mem_singleton.mp hnew]
        exact hrun
    starting := fun hstarting => absurd (hstarted.symm.trans hstarting) Bool.false_ne_true }

theorem Steady.onward (h : Steady s) {r : FatalReporter} {report : FatalReport}
    (hhad : (s.reporter r).report = some report) {pc : ReportPc}
    (hpc : pc.report = some report ∨ pc.report = none) : Steady (s.withReporter r pc) := by
  apply h.withReporter r
  intro report' hreport'
  rcases hpc with hkept | hnone
  · obtain rfl : report = report' := Option.some.inj (hkept.symm.trans hreport')
    exact h.report hhad
  · cases hnone.symm.trans hreport'

theorem Steady.queueFatalOutput (h : Steady s) (hnext : s.queueFatalOutput l = some t) :
    Steady t := by
  have hflag (flag : Bool) : Steady { s with fatalSignalQueued := flag } := { h with }
  cases l with
  | test r =>
    simp only [FatalSystem.queueFatalOutput] at hnext
    split at hnext <;> cases hnext
    rename_i report hpc
    have hhad : (s.reporter r).report = some report := by rw [hpc]; rfl
    exact h.onward hhad (by split_ifs <;> simp [ReportPc.report])
  | exchange r =>
    simp only [FatalSystem.queueFatalOutput] at hnext
    split at hnext <;> cases hnext
    rename_i report hpc
    have hhad : (s.reporter r).report = some report := by rw [hpc]; rfl
    exact (hflag true).onward hhad (by split_ifs <;> simp [ReportPc.report])
  | reference r granted =>
    simp only [FatalSystem.queueFatalOutput] at hnext
    split at hnext <;> cases hnext
    rename_i report hpc
    have hhad : (s.reporter r).report = some report := by rw [hpc]; rfl
    exact h.onward hhad (by split_ifs <;> simp [ReportPc.report])
  | queue r queued =>
    simp only [FatalSystem.queueFatalOutput] at hnext
    split at hnext
    · rename_i report hpc
      have hhad : (s.reporter r).report = some report := by rw [hpc]; rfl
      split_ifs at hnext <;> cases hnext
      · obtain ⟨hrun, hstarted⟩ := h.report hhad
        have hadded := h.addTask { toFatalReport := report, number := s.queued } hrun hstarted
          (s.queued + 1)
        exact hadded.onward hhad (.inr rfl)
      · exact h.onward hhad (.inr rfl)
    · cases hnext
  | giveBack r =>
    simp only [FatalSystem.queueFatalOutput] at hnext
    split at hnext <;> cases hnext
    exact (hflag false).withReporter r fun _ hnone => by cases hnone
  | _ => cases hnext

/-! The clean-up. -/

/-- What is left where the output does not run, and the end of the capture was waited for if
`joined` holds. -/
def halted (s : FatalSystem) (fatalSignalQueued joined abrWorker session : Bool) : FatalSystem :=
  { s with
    running := false
    captureActive := !joined && s.captureActive
    capture := !joined && s.capture
    ending := !joined && s.ending
    fatalSignalQueued, abrWorker, session }

theorem stopAt_halted {full : Bool} {pc : StopPc} {p : FatalSystem × Option StopPc}
    (hcleared : pc ≠ .running → s.running = false) (h : s.stopAt full pc = some p) :
    (∃ fatalSignalQueued joined abrWorker session,
        p.1 = s.halted fatalSignalQueued joined abrWorker session) ∧
      ∀ pc' ∈ p.2, pc' ≠ .running := by
  have hkept (hpc : pc ≠ .running) :
      s.halted s.fatalSignalQueued false s.abrWorker s.session = s := by
    show { s with running := false } = s
    rw [← hcleared hpc]
  cases pc with
  | running =>
    obtain rfl := Option.some.inj h
    refine ⟨⟨_, false, _, _, rfl⟩, ?_⟩
    cases full <;> simp
  | flag =>
    obtain rfl := Option.some.inj h
    rw [← hkept (by simp)]
    exact ⟨⟨_, false, _, _, rfl⟩, by simp⟩
  | capture =>
    simp only [stopAt] at h
    rw [← hkept (by simp)] at h ⊢
    split_ifs at h <;> obtain rfl := Option.some.inj h
    · exact ⟨⟨_, false, _, _, rfl⟩, by simp⟩
    · exact ⟨⟨_, true, _, _, rfl⟩, by simp⟩
  | abrWorker =>
    simp only [stopAt] at h
    rw [← hkept (by simp)] at h ⊢
    split_ifs at h
    obtain rfl := Option.some.inj h
    exact ⟨⟨_, false, _, _, rfl⟩, by simp⟩
  | session =>
    simp only [stopAt] at h
    rw [← hkept (by simp)] at h ⊢
    split_ifs at h
    obtain rfl := Option.some.inj h
    exact ⟨⟨_, false, _, _, rfl⟩, by simp⟩

theorem Steady.halted (h : Steady s) (fatalSignalQueued joined abrWorker session : Bool) :
    Steady (s.halted fatalSignalQueued joined abrWorker session) :=
  { h with
    starting := by
      intro hstarting
      obtain ⟨-, hcapture, hrest⟩ := h.starting hstarting
      exact ⟨rfl, by rw [FatalSystem.halted, hcapture, Bool.and_false], hrest⟩
    captured := nofun
    ending := by
      intro hending
      obtain ⟨hjoined, hended⟩ : joined = false ∧ s.ending = true := by
        simpa [FatalSystem.halted] using hending
      refine ⟨?_, nofun⟩
      rw [FatalSystem.halted, hjoined, (h.ending hended).1]
      rfl
    cleared := fun _ => rfl
    acting := by
      rintro (hrunning | hacting)
      · cases hrunning
      · exact h.acting (.inr hacting) }

theorem Steady.leave (h : Steady s) (owner : LifePc) (hstarting : owner.starting = false)
    (hrunning : s.running = false) : Steady { s with owner } :=
  { h with
    starting := fun hstarts => absurd (hstarting.symm.trans hstarts) Bool.false_ne_true
    captured := fun hruns => absurd (hrunning.symm.trans hruns) Bool.false_ne_true
    cleared := fun _ => hrunning }

theorem Steady.moveOn (h : Steady s) (howner : s.owner = .idle ∨ s.owner = .finishing)
    {owner : LifePc} (hstarting : owner.starting = false) (hcleared : owner.cleared = false)
    (abrWorker : Bool) : Steady { s with abrWorker, owner } :=
  { h with
    starting := fun hstarts => absurd (hstarting.symm.trans hstarts) Bool.false_ne_true
    captured := by
      intro hrunning
      rcases h.captured hrunning with hcapture | hcapturing | ⟨full, hstopping⟩ | hlive
      · exact .inl hcapture
      · rcases howner with hidle | hfinishing <;> simp_all
      · rcases howner with hidle | hfinishing <;> simp_all
      · exact .inr (.inr (.inr hlive))
    cleared := by
      rintro (hclears | hclears)
      · exact absurd (hcleared.symm.trans hclears) Bool.false_ne_true
      · exact h.cleared (.inr hclears) }

theorem Steady.outputStop (h : Steady s) (hnext : s.outputStop l = some t) : Steady t := by
  cases l with
  | stop =>
    simp only [FatalSystem.outputStop] at hnext
    split_ifs at hnext with howner
    obtain rfl := Option.some.inj hnext
    exact h.moveOn (.inl howner) rfl rfl s.abrWorker
  | cleanUp =>
    simp only [FatalSystem.outputStop] at hnext
    split at hnext
    · rename_i full pc howner
      obtain ⟨p, hp, rfl⟩ := Option.map_eq_some_iff.mp hnext
      have hcleared (hpc : pc ≠ .running) : s.running = false :=
        h.cleared (.inl (by rw [howner]; simpa [LifePc.cleared] using hpc))
      obtain ⟨⟨_, _, _, _, hp1⟩, -⟩ := stopAt_halted hcleared hp
      rw [hp1]
      refine (h.halted _ _ _ _).leave _ ?_ rfl
      cases p.2 <;> rfl
    · cases hnext
  | _ => cases hnext

/-! The start. -/

theorem Steady.rests (h : Steady s) (howner : s.owner = .idle) (hcapture : s.capture = false)
    (hlive : s.ui.live = false) : s.running = false := by
  -- the output does not run where the owner and the tasks rest and OBS captures no data
  refine Bool.eq_false_iff.mpr fun hrunning => ?_
  rcases h.captured hrunning with hcaptured | howner' | ⟨full, howner'⟩ | hlive'
  · exact Bool.false_ne_true (hcapture.symm.trans hcaptured)
  · rw [howner] at howner'
    cases howner'
  · rw [howner] at howner'
    cases howner'
  · exact Bool.false_ne_true (hlive.symm.trans hlive')

def begun (s : FatalSystem) : FatalSystem :=
  { s with
    captureActive := false, fatalSignalQueued := false, run := s.run + 1
    owner := .resetting }

theorem Steady.begins (h : Steady s) (howner : s.owner = .idle) (hcapture : s.capture = false)
    (hsettled : s.Settled) : Steady s.begun := by
  obtain ⟨hreports, htasks, hui⟩ := hsettled
  have hrunning : s.running = false := h.rests howner hcapture (by rw [hui]; rfl)
  have hnotrunning : s.running ≠ true := by simp [hrunning]
  exact
    { own := h.own
      once := h.once
      reports := fun r report hreport => by simp [begun, hreports r] at hreport
      tasks := fun task htask => by simp [begun, htasks] at htask
      ui := fun task htask => by simp [begun, hui, UiPc.task, UiPc.acting] at htask
      past := fun e he => (h.past e he).trans (Nat.le_succ _)
      starting := fun _ =>
        ⟨hrunning, hcapture, ⟨hreports, htasks, hui⟩,
          fun e he => Nat.ne_of_lt (Nat.lt_succ_of_le (h.past e he))⟩
      captured := fun hruns => absurd hruns hnotrunning
      ending := fun hending => ⟨(h.ending hending).1, fun hruns => absurd hruns hnotrunning⟩
      cleared := fun _ => hrunning
      acting := by
        rintro (hruns | hacting)
        · exact absurd hruns hnotrunning
        · simp [begun, hui, UiPc.acting] at hacting }

theorem Steady.proceed (h : Steady s) (hstarting : s.owner.starting = true) (owner : LifePc)
    (howner : owner.cleared = false) (session : Bool) : Steady { s with session, owner } :=
  { h with
    starting := fun _ => h.starting hstarting
    captured := fun hrunning => by simp [(h.starting hstarting).1] at hrunning
    cleared := by
      rintro (hcleared | hcleared)
      · exact absurd (howner.symm.trans hcleared) Bool.false_ne_true
      · exact h.cleared (.inr hcleared) }

theorem Steady.launches (h : Steady s) (hstarting : s.owner.starting = true) :
    Steady { s with running := true, owner := .capturing } := by
  obtain ⟨-, hcapture, ⟨-, -, hui⟩, hnew⟩ := h.starting hstarting
  exact
    { h with
      starting := nofun
      captured := fun _ => .inr (.inl rfl)
      ending := fun hending => absurd (hcapture.symm.trans (h.ending hending).1) Bool.false_ne_true
      cleared := by
        rintro (hcleared | hcleared)
        · cases hcleared
        · simp [hui, UiPc.cleared] at hcleared
      acting := fun _ e he hrun => absurd hrun (hnew e he) }

theorem Steady.abandon (h : Steady s) (hstarting : s.owner.starting = true) (session : Bool) :
    Steady { s with session, owner := .idle } :=
  { h.leave .idle rfl (h.starting hstarting).1 with }

theorem Steady.fails (h : Steady s) : Steady { s with owner := .stopping false .running } :=
  { h with
    starting := nofun
    captured := fun _ => .inr (.inr (.inl ⟨false, rfl⟩))
    cleared := fun hcleared => h.cleared (.inr (hcleared.resolve_left nofun)) }

theorem Steady.captures (h : Steady s) :
    Steady { s with captureActive := true, capture := true, owner := .finishing } :=
  { h with
    starting := nofun
    captured := fun _ => .inl rfl
    ending := fun hending => ⟨rfl, (h.ending hending).2⟩
    cleared := fun hcleared => h.cleared (.inr (hcleared.resolve_left nofun)) }

theorem Steady.outputStart (h : Steady s) (hok : s.StartsSettled l)
    (hnext : s.outputStart l = some t) : Steady t := by
  cases l with
  | start tests =>
    simp only [FatalSystem.outputStart] at hnext
    by_cases howner : s.owner = .idle
    · rw [if_neg (not_not.mpr howner)] at hnext
      cases tests with
      | refused =>
        obtain rfl := Option.some.inj hnext
        exact h
      | unprepared =>
        obtain rfl := Option.some.inj hnext
        exact { h with }
      | prepared =>
        simp only at hnext
        split_ifs at hnext with hcapture
        obtain rfl := Option.some.inj hnext
        exact h.begins howner (by simpa using hcapture) (hok rfl)
    · rw [if_pos howner] at hnext
      cases hnext
  | reset available =>
    simp only [FatalSystem.outputStart] at hnext
    split_ifs at hnext with howner havailable <;> obtain rfl := Option.some.inj hnext
    · have hstarting : s.owner.starting = true := by rw [not_not.mp howner]; rfl
      have hreset : { s with running := false } = s := by rw [← (h.starting hstarting).1]
      have hproceed := h.proceed hstarting .creating rfl s.session
      rw [← hreset] at hproceed
      exact hproceed
    · exact h.abandon (by rw [not_not.mp howner]; rfl) s.session
  | createSession created =>
    simp only [FatalSystem.outputStart] at hnext
    split_ifs at hnext with howner hcreated <;> obtain rfl := Option.some.inj hnext
    · exact h.proceed (by rw [not_not.mp howner]; rfl) _ rfl true
    · exact h.abandon (by rw [not_not.mp howner]; rfl) s.session
  | connect connected =>
    simp only [FatalSystem.outputStart] at hnext
    split_ifs at hnext with howner hconnected hidle <;> obtain rfl := Option.some.inj hnext
    · exact h.proceed (by rw [not_not.mp howner]; rfl) _ rfl s.session
    · exact h.abandon (by rw [not_not.mp howner]; rfl) false
  | launch =>
    simp only [FatalSystem.outputStart] at hnext
    split_ifs at hnext with howner
    obtain rfl := Option.some.inj hnext
    exact h.launches (by rw [not_not.mp howner]; rfl)
  | beginCapture begun =>
    simp only [FatalSystem.outputStart] at hnext
    split_ifs at hnext with howner hbegun <;> obtain rfl := Option.some.inj hnext
    · exact h.captures
    · exact h.fails
  | startAbrWorker created =>
    simp only [FatalSystem.outputStart] at hnext
    split_ifs at hnext with howner hcreated <;> obtain rfl := Option.some.inj hnext
    · exact h.moveOn (.inr (not_not.mp howner)) rfl rfl true
    · exact h.fails
  | _ => cases hnext

/-! The tasks on the UI thread. -/

theorem Steady.log (h : Steady s) {task : FatalOutputTask} (htask : s.ui.acting = some task)
    (act : FatalAct) : Steady (s.log act task) := by
  -- a task that acts does so on its own run, and no other task has
  have hrun : task.run = s.run := h.ui task (by rw [UiPc.task_of_acting htask]; rfl)
  have hacting : ∀ e ∈ s.effects, e.run = s.run → task = e.task := fun e he her =>
    Option.some.inj (htask.symm.trans (h.acting (.inr (by simp [htask])) e he her))
  have hmem {e : FatalEffect} (he : e ∈ (s.log act task).effects) :
      e ∈ s.effects ∨ e = { act, task, run := s.run } := by
    simpa [FatalSystem.log] using he
  exact
    { h with
      own := by
        intro e he
        rcases hmem he with hold | rfl
        · exact h.own e hold
        · exact hrun.symm
      once := by
        intro e he e' he' hsame
        rcases hmem he with hold | rfl <;> rcases hmem he' with hold' | rfl
        · exact h.once e hold e' hold' hsame
        · exact (hacting e hold hsame).symm
        · exact hacting e' hold' hsame.symm
        · rfl
      past := by
        intro e he
        rcases hmem he with hold | rfl
        · exact h.past e hold
        · exact le_rfl
      starting := by
        intro hstarting
        have hui : s.ui = .idle := (h.starting hstarting).2.2.1.2.2
        rw [hui] at htask
        cases htask
      acting := by
        intro hruns e he her
        rcases hmem he with hold | rfl
        · exact h.acting hruns e hold her
        · exact htask }

theorem Steady.turn (h : Steady s) (hbusy : s.ui ≠ .idle) {ui : UiPc}
    (htask : ∀ task ∈ ui.task, s.ui.task = some task)
    (hlive : s.running = true → s.ui.live = true → ui.live = true)
    (hcleared : ui.cleared = true → s.running = false)
    (hacting : s.running = true ∨ ui.acting ≠ none →
      ∀ e ∈ s.effects, e.run = s.run → ui.acting = some e.task) :
    Steady { s with ui } :=
  { h with
    ui := fun task hmem => h.ui task (htask task hmem)
    starting := fun hstarting => absurd (h.starting hstarting).2.2.1.2.2 hbusy
    captured := by
      intro hrunning
      rcases h.captured hrunning with hcapture | howner | howner | hlives
      · exact .inl hcapture
      · exact .inr (.inl howner)
      · exact .inr (.inr (.inl howner))
      · exact .inr (.inr (.inr (hlive hrunning hlives)))
    ending := fun hending =>
      ⟨(h.ending hending).1, fun hrunning => hlive hrunning ((h.ending hending).2 hrunning)⟩
    cleared := by
      rintro (howner | hclears)
      · exact h.cleared (.inl howner)
      · exact hcleared hclears
    acting := hacting }

theorem Steady.goOn (h : Steady s) {task : FatalOutputTask} (hacting : s.ui.acting = some task)
    {ui : UiPc} (hgoes : ui.acting = some task) (hlive : s.running = true → ui.live = true)
    (hcleared : ui.cleared = true → s.running = false) : Steady { s with ui } := by
  refine h.turn ?_ ?_ (fun hrunning _ => hlive hrunning) hcleared ?_
  · intro hidle
    rw [hidle] at hacting
    cases hacting
  · intro task' htask'
    rw [UiPc.task_of_acting hgoes] at htask'
    exact (UiPc.task_of_acting hacting).trans htask'
  · intro _ e he her
    rw [hgoes, ← hacting]
    exact h.acting (.inr (by simp [hacting])) e he her

theorem Steady.endTask (h : Steady s) (hbusy : s.ui ≠ .idle) (hrunning : s.running = false) :
    Steady { s with ui := .idle } := by
  refine h.turn hbusy nofun ?_ nofun ?_
  · intro hruns
    simp [hrunning] at hruns
  · rintro (hruns | hacts)
    · simp [hrunning] at hruns
    · exact absurd rfl hacts

theorem Steady.signalFatalOutputOnUi (h : Steady s) (hnext : s.signalFatalOutputOnUi = some t) :
    Steady t := by
  simp only [FatalSystem.signalFatalOutputOnUi] at hnext
  split at hnext
  case h_1 => cases hnext
  case h_2 task hui =>
    obtain rfl := Option.some.inj hnext
    have hbusy : s.ui ≠ .idle := by simp [hui]
    by_cases hrunning : s.running = true
    · rw [if_pos hrunning]
      have hnone : s.ui.acting = none := by rw [hui]; rfl
      refine h.turn hbusy (fun task' hmem => hui ▸ hmem) (fun _ _ => rfl) nofun ?_
      intro _ e he her
      have hacts := h.acting (.inl hrunning) e he her
      rw [hnone] at hacts
      cases hacts
    · rw [if_neg hrunning]
      exact h.endTask hbusy (Bool.eq_false_iff.mpr hrunning)
  case h_3 task hui =>
    obtain rfl := Option.some.inj hnext
    have hacting : s.ui.acting = some task := by rw [hui]; rfl
    exact (h.log hacting _).goOn hacting rfl (fun _ => rfl) nofun
  case h_4 task hui =>
    obtain rfl := Option.some.inj hnext
    have hacting : s.ui.acting = some task := by rw [hui]; rfl
    have hgoes : Steady { s.log .signalStop task with ui := .stopping task .running } :=
      (h.log hacting _).goOn hacting rfl (fun _ => rfl) nofun
    exact { hgoes with ending := fun hending => ⟨hending, fun _ => rfl⟩ }
  case h_5 task pc hui =>
    obtain ⟨p, hp, rfl⟩ := Option.map_eq_some_iff.mp hnext
    have hcleared (hpc : pc ≠ .running) : s.running = false :=
      h.cleared (.inr (by rw [hui]; simpa [UiPc.cleared] using hpc))
    obtain ⟨⟨flag, joined, abrWorker, session, hp1⟩, -⟩ := stopAt_halted hcleared hp
    have hacting : s.ui.acting = some task := by rw [hui]; rfl
    rw [hp1]
    have hlog := (h.halted flag joined abrWorker session).log hacting (.stop pc)
    cases p.2 with
    | none => exact hlog.endTask (by simp [FatalSystem.log, FatalSystem.halted, hui]) rfl
    | some pc' => exact hlog.goOn hacting rfl nofun fun _ => rfl

theorem Steady.takeTask (h : Steady s) (hui : s.ui = .idle) {task : FatalOutputTask}
    {tasks : List FatalOutputTask} (htasks : s.tasks = task :: tasks) :
    Steady { s with tasks, ui := .testing task } := by
  have hlive : s.ui.live = (UiPc.testing task).live := by rw [hui]; rfl
  have hacting : s.ui.acting = (UiPc.testing task).acting := by rw [hui]; rfl
  exact
    { h with
      tasks := fun task' hmem => h.tasks task' (by rw [htasks]; exact List.mem_cons_of_mem _ hmem)
      ui := by
        rintro task' ⟨⟩
        exact h.tasks task (by rw [htasks]; exact List.mem_cons_self)
      starting := by
        intro hstarting
        rw [(h.starting hstarting).2.2.1.2.1] at htasks
        cases htasks
      captured := fun hrunning => by rw [← hlive]; exact h.captured hrunning
      ending := fun hending => by rw [← hlive]; exact h.ending hending
      cleared := fun hcleared => h.cleared (.inl (hcleared.resolve_right nofun))
      acting := by
        rintro (hrunning | hacts)
        · rw [← hacting]
          exact h.acting (.inl hrunning)
        · exact absurd rfl hacts }

theorem Steady.call (h : Steady s) (hok : s.StartsSettled l)
    (hnext : (s.queueFatalOutput l).or ((s.outputStart l).or (s.outputStop l)) = some t) :
    Steady t := by
  rcases Option.or_eq_some_iff.mp hnext with hqueue | ⟨-, hrest⟩
  · exact h.queueFatalOutput hqueue
  · rcases Option.or_eq_some_iff.mp hrest with hstart | ⟨-, hstop⟩
    · exact h.outputStart hok hstart
    · exact h.outputStop hstop

theorem Steady.next (h : Steady s) (hok : s.StartsSettled l) (hnext : s.next l = some t) :
    Steady t := by
  cases l with
  | sessionStatus status error =>
    simp only [FatalSystem.next, onSessionStatus] at hnext
    split_ifs at hnext
    · exact h.enter hnext
    · obtain rfl := Option.some.inj hnext
      exact h
  | engineError error => exact h.enter hnext
  | packetError error => exact h.enter hnext
  | endCapture =>
    simp only [FatalSystem.next] at hnext
    split_ifs at hnext with hends
    obtain rfl := Option.some.inj hnext
    have hending : s.ending = true := by simp_all
    exact
      { h with
        starting := by
          intro hstarting
          obtain ⟨hrunning, -, hrest⟩ := h.starting hstarting
          exact ⟨hrunning, rfl, hrest⟩
        captured := fun hrunning => .inr (.inr (.inr ((h.ending hending).2 hrunning)))
        ending := nofun }
  | takeTask =>
    simp only [FatalSystem.next] at hnext
    split at hnext
    · rename_i task tasks hui htasks
      obtain rfl := Option.some.inj hnext
      exact h.takeTask hui htasks
    · cases hnext
  | actOnUi => exact h.signalFatalOutputOnUi hnext
  | _ => exact h.call hok hnext

end FatalSystem
end Srtla
