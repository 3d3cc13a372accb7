import SrtlaOutput.Control.OwnRun

/-! Fatal reports across a start. A report that is under way when a run begins can always become
something that its task does to the new run, so the condition of the invariant is the exact one. -/

namespace Srtla
open Schedule

namespace FatalSystem
variable {s t : FatalSystem}

/-- There is a way to go on in which a task acts on a run that is not its own. -/
def Misdirects (s : FatalSystem) : Prop := Reaches FatalSystem.next (fun t => ¬ t.OwnRuns) s

theorem stopAt_run {full : Bool} {pc : StopPc} {p : FatalSystem × Option StopPc}
    (h : s.stopAt full pc = some p) : p.1.run = s.run := by
  cases pc with
  | running | flag =>
    obtain rfl := Option.some.inj h
    rfl
  | capture | abrWorker | session =>
    simp only [stopAt] at h
    split_ifs at h <;> obtain rfl := Option.some.inj h <;> rfl

theorem effect_of_acting {task : FatalOutputTask} (hacting : s.ui.acting = some task)
    (hnext : s.signalFatalOutputOnUi = some t) :
    ∃ act, { act, task, run := s.run } ∈ t.effects := by
  simp only [FatalSystem.signalFatalOutputOnUi] at hnext
  cases hui : s.ui with
  | idle | testing task' => simp [hui, UiPc.acting] at hacting
  | setError task' | signalStop task' =>
    obtain rfl : task' = task := by simpa [hui, UiPc.acting] using hacting
    rw [hui] at hnext
    obtain rfl := Option.some.inj hnext
    exact ⟨_, List.mem_append_right _ (List.mem_singleton_self _)⟩
  | stopping task' pc =>
    obtain rfl : task' = task := by simpa [hui, UiPc.acting] using hacting
    rw [hui] at hnext
    obtain ⟨p, hp, rfl⟩ := Option.map_eq_some_iff.mp hnext
    rw [← stopAt_run hp]
    exact ⟨_, List.mem_append_right _ (List.mem_singleton_self _)⟩

theorem misdirects_acting {task : FatalOutputTask} (hacting : s.ui.acting = some task)
    (hold : task.run ≠ s.run) (hnext : s.next .actOnUi = some t) : Misdirects s := by
  obtain ⟨act, hmem⟩ := effect_of_acting hacting hnext
  exact Reaches.of_next hnext (.refl fun hown => hold (hown.own _ hmem).symm)

theorem misdirects_testing {task : FatalOutputTask} (hui : s.ui = .testing task)
    (hrunning : s.running = true) (hold : task.run ≠ s.run) : Misdirects s := by
  have hnext : s.next .actOnUi = some { s with ui := .setError task } := by
    simp [FatalSystem.next, signalFatalOutputOnUi, hui, hrunning]
  exact Reaches.of_next hnext (misdirects_acting rfl hold rfl)

theorem misdirects_waiting (hui : s.ui = .idle) {task : FatalOutputTask}
    {tasks : List FatalOutputTask} (htasks : s.tasks = task :: tasks) (hrunning : s.running = true)
    (hold : task.run ≠ s.run) : Misdirects s := by
  have hnext : s.next .takeTask = some { s with tasks, ui := .testing task } := by
    simp [FatalSystem.next, hui, htasks]
  exact Reaches.of_next hnext (misdirects_testing rfl hrunning hold)

/-- The report may become a task while nothing else changes that the task depends on. -/
def Hands (s : FatalSystem) (report : FatalReport) : Prop :=
  Reaches FatalSystem.next
    (fun t => t.ui = s.ui ∧ t.running = s.running ∧ t.run = s.run ∧
      t.tasks = s.tasks ++ [{ toFatalReport := report, number := s.queued }]) s

variable {r : FatalReporter} {report : FatalReport}

theorem hands_queueing (hpc : s.reporter r = .queueing report) : s.Hands report := by
  have hnext : s.next (.queue r true) = some
      ({ s with
        tasks := s.tasks ++ [({ toFatalReport := report, number := s.queued } : FatalOutputTask)]
        queued := s.queued + 1 }.withReporter r .idle) := by
    simp [FatalSystem.next, queueFatalOutput, hpc]
  exact Reaches.of_next hnext (.refl ⟨rfl, rfl, rfl, rfl⟩)

theorem hands_referring (hpc : s.reporter r = .referring report) : s.Hands report := by
  have hnext : s.next (.reference r true) = some (s.withReporter r (.queueing report)) := by
    simp [FatalSystem.next, queueFatalOutput, hpc]
  exact Reaches.of_next hnext (hands_queueing (by rw [reporter_withReporter, if_pos rfl]))

theorem hands_claiming (hflag : s.fatalSignalQueued = false)
    (hpc : s.reporter r = .claiming report) : s.Hands report := by
  have hnext : s.next (.exchange r) =
      some ({ s with fatalSignalQueued := true }.withReporter r (.referring report)) := by
    simp [FatalSystem.next, queueFatalOutput, hpc, hflag]
  exact Reaches.of_next hnext (hands_referring (by rw [reporter_withReporter, if_pos rfl]))

theorem hands_entered (hrunning : s.running = true) (hflag : s.fatalSignalQueued = false)
    (hpc : s.reporter r = .entered report) : s.Hands report := by
  have hnext : s.next (.test r) = some (s.withReporter r (.claiming report)) := by
    simp [FatalSystem.next, queueFatalOutput, hpc, hrunning]
  exact Reaches.of_next hnext (hands_claiming hflag (by rw [reporter_withReporter, if_pos rfl]))

theorem hands_report (hrunning : s.running = true) (hflag : s.fatalSignalQueued = false)
    (hreport : (s.reporter r).report = some report) : s.Hands report := by
  cases hpc : s.reporter r with
  | idle | failed => simp [hpc, ReportPc.report] at hreport
  | entered report' =>
    obtain rfl : report' = report := by simpa [hpc, ReportPc.report] using hreport
    exact hands_entered hrunning hflag hpc
  | claiming report' =>
    obtain rfl : report' = report := by simpa [hpc, ReportPc.report] using hreport
    exact hands_claiming hflag hpc
  | referring report' =>
    obtain rfl : report' = report := by simpa [hpc, ReportPc.report] using hreport
    exact hands_referring hpc
  | queueing report' =>
    obtain rfl : report' = report := by simpa [hpc, ReportPc.report] using hreport
    exact hands_queueing hpc

theorem misdirects_reporting (hui : s.ui = .idle) (htasks : s.tasks = [])
    (hrunning : s.running = true) (hflag : s.fatalSignalQueued = false)
    (hreport : (s.reporter r).report = some report) (hold : report.run ≠ s.run) :
    Misdirects s := by
  apply Reaches.trans (hands_report hrunning hflag hreport)
  rintro t ⟨htui, htrunning, htrun, httasks⟩
  rw [htasks, List.nil_append] at httasks
  exact misdirects_waiting (htui.trans hui) httasks (htrunning.trans hrunning)
    (by rw [htrun]; exact hold)

def Leaves (s : FatalSystem) (r : FatalReporter) : Prop :=
  Reaches FatalSystem.next (fun t => t.ui = s.ui ∧ t.run = s.run ∧ t.reporter r = .idle) s

theorem leaves_idle (hpc : s.reporter r = .idle) : s.Leaves r := .refl ⟨rfl, rfl, hpc⟩

theorem leaves_failed (hpc : s.reporter r = .failed) : s.Leaves r := by
  have hnext : s.next (.giveBack r) =
      some ({ s with fatalSignalQueued := false }.withReporter r .idle) := by
    simp [FatalSystem.next, queueFatalOutput, hpc]
  exact Reaches.of_next hnext (leaves_idle (by rw [reporter_withReporter, if_pos rfl]))

theorem leaves_queueing (hpc : s.reporter r = .queueing report) : s.Leaves r := by
  have hnext : s.next (.queue r false) = some (s.withReporter r .failed) := by
    simp [FatalSystem.next, queueFatalOutput, hpc]
  exact Reaches.of_next hnext (leaves_failed (by rw [reporter_withReporter, if_pos rfl]))

theorem leaves_referring (hpc : s.reporter r = .referring report) : s.Leaves r := by
  have hnext : s.next (.reference r false) = some (s.withReporter r .failed) := by
    simp [FatalSystem.next, queueFatalOutput, hpc]
  exact Reaches.of_next hnext (leaves_failed (by rw [reporter_withReporter, if_pos rfl]))

theorem leaves_claiming (hpc : s.reporter r = .claiming report) : s.Leaves r := by
  have hnext : s.next (.exchange r) = some ({ s with fatalSignalQueued := true }.withReporter r
      (if s.fatalSignalQueued then .idle else .referring report)) := by
    simp [FatalSystem.next, queueFatalOutput, hpc]
  by_cases hflag : s.fatalSignalQueued = true
  · rw [if_pos hflag] at hnext
    exact Reaches.of_next hnext (leaves_idle (by rw [reporter_withReporter, if_pos rfl]))
  · rw [if_neg hflag] at hnext
    exact Reaches.of_next hnext (leaves_referring (by rw [reporter_withReporter, if_pos rfl]))

theorem leaves_entered (hpc : s.reporter r = .entered report) : s.Leaves r := by
  have hnext : s.next (.test r) =
      some (s.withReporter r (if s.running then .claiming report else .idle)) := by
    simp [FatalSystem.next, queueFatalOutput, hpc]
  by_cases hrunning : s.running = true
  · rw [if_pos hrunning] at hnext
    exact Reaches.of_next hnext (leaves_claiming (by rw [reporter_withReporter, if_pos rfl]))
  · rw [if_neg hrunning] at hnext
    exact Reaches.of_next hnext (leaves_idle (by rw [reporter_withReporter, if_pos rfl]))

theorem leaves (s : FatalSystem) (r : FatalReporter) : s.Leaves r := by
  cases hpc : s.reporter r with
  | idle => exact leaves_idle hpc
  | entered report => exact leaves_entered hpc
  | claiming report => exact leaves_claiming hpc
  | referring report => exact leaves_referring hpc
  | queueing report => exact leaves_queueing hpc
  | failed => exact leaves_failed hpc

theorem exists_stopAt (full : Bool) {pc : StopPc}
    (hidle : ∀ r, pc.awaited = some r → s.reporter r = .idle) :
    ∃ p, s.stopAt full pc = some p := by
  cases pc with
  | running | flag => exact ⟨_, rfl⟩
  | capture =>
    simp only [stopAt]
    by_cases hactive : s.captureActive = true
    · rw [if_neg (by simpa using hactive), if_pos (hidle .muxer rfl)]
      exact ⟨_, rfl⟩
    · rw [if_pos (by simpa using hactive)]
      exact ⟨_, rfl⟩
  | abrWorker => exact ⟨_, if_pos (hidle .abr rfl)⟩
  | session => exact ⟨_, if_pos (hidle .session rfl)⟩

theorem misdirects_stopping {task : FatalOutputTask} {pc : StopPc}
    (hui : s.ui = .stopping task pc) (hold : task.run ≠ s.run) : Misdirects s := by
  have hgo {t : FatalSystem} (htui : t.ui = .stopping task pc) (htrun : t.run = s.run)
      (hidle : ∀ r, pc.awaited = some r → t.reporter r = .idle) : Misdirects t := by
    obtain ⟨p, hp⟩ := exists_stopAt true hidle
    have hnext : ∃ u, t.next .actOnUi = some u := by
      simp [FatalSystem.next, signalFatalOutputOnUi, htui, hp]
    obtain ⟨u, hu⟩ := hnext
    exact misdirects_acting (by rw [htui]; rfl) (by rw [htrun]; exact hold) hu
  cases hawaited : pc.awaited with
  | none => exact hgo hui rfl fun r hr => by simp [hawaited] at hr
  | some r =>
    apply Reaches.trans (leaves s r)
    rintro t ⟨htui, htrun, hidle⟩
    refine hgo (htui.trans hui) htrun fun r' hr' => ?_
    obtain rfl : r = r' := by simpa [hawaited] using hr'
    exact hidle

def launched (s : FatalSystem) : FatalSystem :=
  { s with session := true, running := true, owner := .capturing }

theorem exec_launched (howner : s.owner = .resetting) :
    exec FatalSystem.next s [.reset true, .createSession true, .connect true, .launch] =
      some s.launched := by
  simp [exec, FatalSystem.next, queueFatalOutput, FatalSystem.outputStart, howner, launched]

theorem next_prepared (hnext : s.next (.start .prepared) = some t) : t = s.begun := by
  by_cases hopen : s.owner = .idle ∧ s.capture = false
  · simpa [FatalSystem.next, queueFatalOutput, FatalSystem.outputStart, hopen.1, hopen.2, begun,
      eq_comm] using hnext
  · simp only [FatalSystem.next, queueFatalOutput, FatalSystem.outputStart, FatalSystem.outputStop,
      Option.none_or, Option.or_none] at hnext
    split_ifs at hnext with howner hcapture
    simp_all

theorem Steady.misdirects (h : Steady s) (hunsettled : ¬ s.Settled) : Misdirects s.begun := by
  have hold {report : FatalReport} (hrun : report.run = s.run) : report.run ≠ s.begun.run := by
    rw [hrun]
    exact (Nat.succ_ne_self _).symm
  have hlaunched := exec_launched (s := s.begun) rfl
  cases hui : s.ui with
  | setError task | signalStop task =>
    have hrun : task.run = s.run := h.ui task (by rw [hui]; rfl)
    obtain ⟨u, hu⟩ : ∃ u, s.begun.next .actOnUi = some u := by
      rw [begun, hui]
      exact ⟨_, rfl⟩
    exact misdirects_acting (by rw [begun, hui]; rfl) (hold hrun) hu
  | stopping task pc =>
    have hrun : task.run = s.run := h.ui task (by rw [hui]; rfl)
    exact misdirects_stopping hui (hold hrun)
  | testing task =>
    have hrun : task.run = s.run := h.ui task (by rw [hui]; rfl)
    exact Reaches.of_exec hlaunched (misdirects_testing hui rfl (hold hrun))
  | idle =>
    apply Reaches.of_exec hlaunched
    cases htasks : s.tasks with
    | cons task tasks =>
      have hrun : task.run = s.run := h.tasks task (by rw [htasks]; exact List.mem_cons_self)
      exact misdirects_waiting hui htasks rfl (hold hrun)
    | nil =>
      obtain ⟨r, hr⟩ : ∃ r, (s.reporter r).report ≠ none := by
        by_contra hnone
        push Not at hnone
        exact hunsettled ⟨hnone, htasks, hui⟩
      obtain ⟨report, hreport⟩ := Option.ne_none_iff_exists'.mp hr
      exact misdirects_reporting hui htasks rfl rfl hreport (hold (h.reports r report hreport))

/-- The tasks of a run act on that run only, and one of them at most, if each start finds no fatal
report under way. A start that finds one lets it act on the run that begins. -/
theorem fatal_report_own_run {ls : List FatalStep} (h : Run next StartsSettled {} ls s) :
    s.OwnRuns ∧
      ∀ t, s.next (.start .prepared) = some t → ¬ s.Settled →
        Reaches next (fun u => ¬ u.OwnRuns) t := by
  have hsteady : Steady s :=
    h.invariant (fun _ _ _ hsteady hok hnext => hsteady.next hok hnext) .initial
  refine ⟨hsteady.toOwnRuns, fun t ht hunsettled => ?_⟩
  rw [next_prepared ht]
  exact hsteady.misdirects hunsettled

instance (s : FatalSystem) : Decidable s.Settled :=
  decidable_of_iff
    (((s.reporter .session).report = none ∧ (s.reporter .abr).report = none ∧
      (s.reporter .muxer).report = none) ∧ s.tasks = [] ∧ s.ui = .idle) <| by
    apply and_congr_left'
    constructor
    · rintro ⟨hsession, habr, hmuxer⟩ (_ | _ | _) <;> assumption
    · exact fun h => ⟨h _, h _, h _⟩

instance (s : FatalSystem) (l : FatalStep) : Decidable (s.StartsSettled l) := by
  unfold StartsSettled
  infer_instance

def startedSteps : List FatalStep :=
  [.start .prepared, .reset true, .createSession true, .connect true, .launch, .beginCapture true,
    .startAbrWorker true]

def reportedSteps : List FatalStep :=
  [.sessionStatus .fatal "connection lost", .test .session, .exchange .session,
    .reference .session true, .queue .session true]

def executedSteps : List FatalStep :=
  .takeTask :: List.replicate 4 .actOnUi

def stoppedSteps : List FatalStep := .stop :: List.replicate 5 .cleanUp

def restartedSteps : List FatalStep :=
  startedSteps ++ reportedSteps ++ executedSteps ++ List.replicate 4 .actOnUi ++ startedSteps

theorem fatal_report_own_run_restarted :
    ((exec (guard next StartsSettled) {} restartedSteps).get (by decide +kernel)).OwnRuns :=
  (fatal_report_own_run (.of_exec (Option.some_get _).symm)).1

/-- The user stops and starts the output before the UI thread executes the task. -/
def staleSteps : List FatalStep :=
  startedSteps ++ reportedSteps ++ stoppedSteps ++ startedSteps ++ executedSteps

/-- The task of the first run stops the second one. -/
theorem stale_task_stops_later_run :
    let s := (exec next {} staleSteps).get (by decide +kernel)
    s.run = 2 ∧ s.running = false ∧
      s.effects.map (fun e => (e.act, e.task.run, e.run)) =
        [(.setLastError "connection lost", 1, 2), (.signalStop, 1, 2), (.stop .running, 1, 2)] ∧
      ¬ s.OwnRuns := by
  refine ⟨by decide +kernel, by decide +kernel, by decide +kernel, fun h => ?_⟩
  exact absurd h.own (by decide +kernel)

end FatalSystem
end Srtla
