import Rollout.Proofs.DerivedStatus
import Rollout.Proofs.Step.Reports

/-! Reports on different tasks can come in any order.  As long as a step is open, each of its
tasks ends where the latest report on it with a transition has put it, and the status of the step
is the least of theirs.  The flag is cleared on the way, but only by a report that puts a task
back to pending; so it too can be told from the reports on each task, whatever came in between. -/

namespace Rollout

def TaskReport.about (id : TaskId) (reports : List TaskReport) : List TaskReport :=
  reports.filter fun report => report.taskId = id

namespace Step

/-- The step is still open when the last of the reports comes. -/
def OpenToLast (step : Step) (reports : List TaskReport) : Prop :=
  ∀ early last, reports = early ++ [last] → (early.foldl update step).status ≠ .complete

def SetsBack (step : Step) (report : TaskReport) : Prop :=
  ∃ task ∈ step.tasks.map (·.descriptor), report.taskId = task.taskId ∧
    step.transition? report task = some .pending

variable {step : Step}

theorem openToLast_concat_iff {early : List TaskReport} {last : TaskReport} :
    step.OpenToLast (early ++ [last]) ↔ (early.foldl update step).status ≠ .complete := by
  constructor
  · exact fun opens => opens early last rfl
  · intro unfinished others final same
    obtain ⟨rfl, _⟩ := List.append_inj' same rfl
    exact unfinished

/-- A complete step would stay so through all but the last of the reports. -/
theorem OpenToLast.unfinished {report : TaskReport} {rest : List TaskReport}
    (opens : step.OpenToLast (report :: rest)) : step.status ≠ .complete := by
  intro complete
  rcases List.eq_nil_or_concat rest with none | ⟨inner, last, shape⟩
  · subst none
    exact opens [] report rfl complete
  · rw [List.concat_eq_append] at shape
    subst shape
    apply opens (report :: inner) last rfl
    rw [foldl_update_eq_self fun other _ => update_of_complete other complete]
    exact complete

theorem OpenToLast.tail {report : TaskReport} {rest : List TaskReport}
    (opens : step.OpenToLast (report :: rest)) : (step.update report).OpenToLast rest := by
  rintro early last rfl
  exact opens (report :: early) last rfl

/-! ### Reports as calls -/

theorem foldl_update_eq_run (step : Step) (reports : List TaskReport) :
    reports.foldl update step = step.run (reports.map fun report => .act (.report report)) := by
  rw [run, List.foldl_map]
  rfl

theorem reportsOn_reports (id : TaskId) (reports : List TaskReport) :
    reportsOn id (reports.map fun report => .act (.report report)) =
      TaskReport.about id reports := by
  rw [reportsOn, TaskReport.about, List.filterMap_map, ← List.filterMap_eq_filter]
  congr 1
  funext report
  simp [Call.reportOn?, Option.guard]

theorem Coherent.foldl_update (coherent : step.Coherent) (reports : List TaskReport) :
    (reports.foldl Step.update step).Coherent := by
  rw [foldl_update_eq_run]
  exact coherent.run _

/-! ### The tasks -/

theorem find?_foldl_update {reports : List TaskReport} (opens : step.OpenToLast reports)
    {id : TaskId} {task : TrackedTask}
    (found : TrackedTask.find? step.tasks id = some task) :
    TrackedTask.find? (reports.foldl update step).tasks id =
      some (task.withStatus (step.latest task (TaskReport.about id reports))) := by
  rcases List.eq_nil_or_concat reports with none | ⟨early, last, shape⟩
  · subst none
    exact found
  rw [List.concat_eq_append] at shape
  subst shape
  have unfinished := openToLast_concat_iff.mp opens
  have before : TrackedTask.find? (early.foldl update step).tasks id =
      some (task.withStatus (step.latest task (TaskReport.about id early))) := by
    rw [foldl_update_eq_run] at unfinished ⊢
    rw [← reportsOn_reports]
    refine find?_run found ?_ unfinished
    intro request member
    obtain ⟨report, _, rfl⟩ := List.mem_map.mp member
    trivial
  -- the last report may complete the step, but finds it open
  have after : TrackedTask.find? ((early.foldl update step).call (.act (.report last))).tasks id =
      some ((task.withStatus (step.latest task (TaskReport.about id early))).withStatus _) :=
    find?_call unfinished before trivial
  have single : reportsOn id [.act (.report last)] = TaskReport.about id [last] :=
    reportsOn_reports id [last]
  rw [latest_congr (step.foldl_update_frame early).2.2.1, single] at after
  rw [List.foldl_append, List.foldl_cons, List.foldl_nil]
  change TrackedTask.find? ((early.foldl update step).update last).tasks id = _ at after
  rw [after]
  simp only [TaskReport.about, List.filter_append, latest_append]
  rfl

theorem Coherent.tasks_foldl_update (coherent : step.Coherent) {reports : List TaskReport}
    (opens : step.OpenToLast reports) :
    (reports.foldl Step.update step).tasks = step.tasks.map fun task =>
      task.withStatus (step.latest task (TaskReport.about task.taskId reports)) := by
  apply TrackedTask.eq_map_of_find? coherent.distinct (step.foldl_update_frame reports).2.2.2.2
  intro task member
  exact find?_foldl_update opens (TrackedTask.find?_of_mem coherent.distinct member)

/-! ### The flag -/

theorem setsBack_update_iff (first report : TaskReport) :
    (step.update first).SetsBack report ↔ step.SetsBack report := by
  obtain ⟨_, _, requirement, _, tasks⟩ := step.update_frame first
  rw [SetsBack, SetsBack, tasks, transition?_congr requirement]

/-- A prepared step has no pending task, so it becomes pending only through the task that
the report concerns. -/
theorem Coherent.status_update_eq_pending_iff (coherent : step.Coherent)
    (prepared : step.prepared = true) (unfinished : step.status ≠ .complete)
    (report : TaskReport) : (step.update report).status = .pending ↔ step.SetsBack report := by
  have after := coherent.update report
  constructor
  · intro pending
    rcases update_cases step report with same | ⟨task, goal, found, _, resolved, moved⟩
    · rw [same] at pending
      exact False.elim (coherent.apart prepared pending)
    have inStep : task.descriptor ∈ step.tasks.map (·.descriptor) :=
      List.mem_map_of_mem (List.mem_of_find?_eq_some found)
    have tracked : (step.update report).tasks ≠ [] := by
      intro none
      rw [← (step.update_frame report).2.2.2.2, none] at inStep
      cases inStep
    obtain ⟨other, member, status⟩ := after.exists_status_eq tracked
    rw [moved, settle_tasks] at member
    rcases status_of_mem_advance member with target | ⟨held, inOld, same⟩
    · refine ⟨task.descriptor, inStep, (TrackedTask.taskId_of_find? found).symm, ?_⟩
      rw [transition?_of_goal resolved, target, status, pending]
    · rw [status, pending] at same
      exact False.elim (coherent.apart prepared (coherent.status_of_pending inOld same))
  · rintro ⟨descriptor, inStep, concerned, moves⟩
    obtain ⟨task, member, rfl⟩ := List.mem_map.mp inStep
    have before := TrackedTask.find?_of_mem coherent.distinct member
    rw [show task.taskId = report.taskId from concerned.symm] at before
    have now := find?_update_self unfinished before
    rw [moves] at now
    exact after.status_of_pending (List.mem_of_find?_eq_some now) rfl

theorem Coherent.prepared_foldl_update_iff (coherent : step.Coherent)
    {reports : List TaskReport} (opens : step.OpenToLast reports) :
    (reports.foldl Step.update step).prepared = true ↔
      step.prepared = true ∧ ∀ report ∈ reports, ¬ step.SetsBack report := by
  induction reports generalizing step with
  | nil => simp
  | cons report rest ih =>
      have first : (step.update report).prepared = true ↔
          step.prepared = true ∧ ¬ step.SetsBack report := by
        have flag : (step.call (.act (.report report))).prepared = true ↔ _ :=
          coherent.prepared_call_iff id
        change (step.update report).prepared = true ↔ _ at flag
        rw [flag]
        refine and_congr_right fun prepared => not_congr ?_
        exact coherent.status_update_eq_pending_iff prepared opens.unfinished report
      rw [List.foldl_cons, ih (coherent.update report) opens.tail, first, List.forall_mem_cons,
        and_assoc]
      simp only [setsBack_update_iff]

/-! ### The whole state -/

/-- What reports leave of a step that stays open to the last of them. -/
structure Recorded (step : Step) (reports : List TaskReport) (after : Step) : Prop where
  /-- The latest report on each task with a transition decides on it. -/
  tasks : after.tasks = step.tasks.map fun task =>
    task.withStatus (step.latest task (TaskReport.about task.taskId reports))
  /-- With tasks the status is the least of theirs. -/
  least : after.tasks ≠ [] → (∃ task ∈ after.tasks, task.status = after.status) ∧
    ∀ task ∈ after.tasks, after.status ≤ task.status
  idle : after.tasks = [] → after.status = step.status
  /-- Only a report that puts a task back to pending clears the flag. -/
  prepared : after.prepared = true ↔
    step.prepared = true ∧ ∀ report ∈ reports, ¬ step.SetsBack report
  declared : after.name = step.name ∧ after.errors = step.errors ∧
    after.requirement = step.requirement ∧ after.parameters = step.parameters

theorem Coherent.recorded (coherent : step.Coherent) {reports : List TaskReport}
    (opens : step.OpenToLast reports) :
    Recorded step reports (reports.foldl Step.update step) := by
  have after := coherent.foldl_update reports
  obtain ⟨name, errors, requirement, parameters, descriptors⟩ :=
    step.foldl_update_frame reports
  refine ⟨coherent.tasks_foldl_update opens, ?_, ?_, coherent.prepared_foldl_update_iff opens,
    name, errors, requirement, parameters⟩
  · exact fun tracked => ⟨after.exists_status_eq tracked, fun _ => after.status_le⟩
  · intro untracked
    rw [untracked] at descriptors
    have before : step.tasks = [] := List.map_eq_nil_iff.mp descriptors.symm
    rw [foldl_update_of_untracked (by simp [before])]

/-! ### Interleavings -/

/-- The same reports on each task of the step, each task's in the same order. -/
def SameByTask (step : Step) (reports others : List TaskReport) : Prop :=
  ∀ task ∈ step.tasks,
    TaskReport.about task.taskId reports = TaskReport.about task.taskId others

variable {reports others : List TaskReport}

theorem SameByTask.symm (same : step.SameByTask reports others) :
    step.SameByTask others reports :=
  fun task member => (same task member).symm

theorem SameByTask.mem_of_setsBack (same : step.SameByTask reports others)
    {report : TaskReport} (member : report ∈ reports) (back : step.SetsBack report) :
    report ∈ others := by
  obtain ⟨descriptor, inStep, concerned, _⟩ := back
  obtain ⟨task, tracked, rfl⟩ := List.mem_map.mp inStep
  have listed : report ∈ TaskReport.about task.taskId reports :=
    List.mem_filter.mpr ⟨member, decide_eq_true concerned⟩
  rw [same task tracked] at listed
  exact (List.mem_filter.mp listed).1

theorem Recorded.status_eq {after other : Step} (recorded : Recorded step reports after)
    (recorded' : Recorded step others other) (tasks : after.tasks = other.tasks) :
    after.status = other.status := by
  by_cases untracked : after.tasks = []
  · rw [recorded.idle untracked, recorded'.idle (tasks ▸ untracked)]
  · obtain ⟨⟨task, member, status⟩, least⟩ := recorded.least untracked
    obtain ⟨⟨task', member', status'⟩, least'⟩ := recorded'.least (tasks ▸ untracked)
    apply Status.le_antisymm
    · rw [← status']
      exact least task' (tasks ▸ member')
    · rw [← status]
      exact least' task (tasks ▸ member)

/-- What is left depends on the reports on each task, not on what came in between. -/
theorem Recorded.unique {after other : Step} (recorded : Recorded step reports after)
    (recorded' : Recorded step others other) (same : step.SameByTask reports others) :
    after = other := by
  have tasks : after.tasks = other.tasks := by
    rw [recorded.tasks, recorded'.tasks]
    apply List.map_congr_left
    intro task member
    rw [same task member]
  have status := recorded.status_eq recorded' tasks
  have prepared : after.prepared = other.prepared := by
    rw [Bool.eq_iff_iff, recorded.prepared, recorded'.prepared]
    refine and_congr_right fun _ => ⟨?_, ?_⟩
    · exact fun none report member back =>
        none report (same.symm.mem_of_setsBack member back) back
    · exact fun none report member back => none report (same.mem_of_setsBack member back) back
  obtain ⟨name, errors, requirement, parameters⟩ := recorded.declared
  obtain ⟨name', errors', requirement', parameters'⟩ := recorded'.declared
  rw [← name'] at name
  rw [← errors'] at errors
  rw [← requirement'] at requirement
  rw [← parameters'] at parameters
  cases after
  cases other
  cases name
  cases errors
  cases requirement
  cases parameters
  cases tasks
  cases status
  cases prepared
  rfl

/-- In every state of a valid step, reports that find it open to the last of them leave what
the reports on each task say; so any order that is the same for each task leaves the same. -/
theorem reports_commute (name : String) (status : Status) (requirement : Requirement)
    (history : List Call)
    (opens : ((Step.new name status requirement []).run history).OpenToLast reports) :
    Recorded ((Step.new name status requirement []).run history) reports
        (reports.foldl update ((Step.new name status requirement []).run history)) ∧
      ∀ others, ((Step.new name status requirement []).run history).OpenToLast others →
        ((Step.new name status requirement []).run history).SameByTask reports others →
        reports.foldl update ((Step.new name status requirement []).run history) =
          others.foldl update ((Step.new name status requirement []).run history) := by
  have coherent := (coherent_new name status requirement).run history
  refine ⟨coherent.recorded opens, ?_⟩
  intro others opens' same
  exact (coherent.recorded opens).unique (coherent.recorded opens') same

/-- A server that fails and recovers, and a setup that ends before the failure or while the
server is down. -/
theorem setup_commutes_with_failed_server :
    let requirement := Requirement.ofInstance
      ⟨"index", 0, [⟨"server", .running, none⟩, ⟨"setup", .finished, none⟩]⟩
    let server : TaskDescriptor := ⟨"index-0-server", "index-0-server__1", .running, none⟩
    let setup : TaskDescriptor := ⟨"index-0-setup", "index-0-setup__2", .finished, none⟩
    let step := (Step.new "index-0:[server,setup]" .pending requirement []).run
      [.start, .act (.offer [.launch server, .launch setup])]
    let failed := TaskReport.new "index-0-server__1" .failed
    let running := TaskReport.new "index-0-server__1" .running
    let finished := TaskReport.new "index-0-setup__2" .finished
    step.OpenToLast [failed, finished, running] ∧ step.OpenToLast [finished, failed, running] ∧
      step.SameByTask [failed, finished, running] [finished, failed, running] ∧
      [failed, finished, running].foldl update step =
        [finished, failed, running].foldl update step := by
  intro requirement server setup step failed running finished
  have opens : step.OpenToLast ([failed, finished] ++ [running]) :=
    openToLast_concat_iff.mpr (by decide +kernel)
  have opens' : step.OpenToLast ([finished, failed] ++ [running]) :=
    openToLast_concat_iff.mpr (by decide +kernel)
  have same : step.SameByTask [failed, finished, running] [finished, failed, running] := by
    have tasks : step.tasks = [⟨server, .starting⟩, ⟨setup, .starting⟩] := by decide +kernel
    rw [SameByTask, tasks]
    decide +kernel
  exact ⟨opens, opens', same, (reports_commute _ _ _ _ opens).2 _ opens' same⟩

end Step

end Rollout
