import Rollout.Proofs.Step.Reports

/-! A report is final only as far as no later report says otherwise.  Of the reports on a tracked
task the latest with a transition decides, terminal or not, until the step is complete or takes an
offer, a restart or a completion by force.  A task that failed therefore holds its step at pending
until the cluster reports it under way again. -/

namespace Rollout.Step

structure ReportStands (step : Step) (task : TrackedTask) (report : TaskReport)
    (late : List Call) : Prop where
  /-- The latest report with a transition decides; in a complete step all tasks are. -/
  decided : TrackedTask.find? ((step.update report).run late).tasks task.taskId =
    some (task.withStatus
      (if ((step.update report).run late).status = .complete then .complete
      else step.latest task (report :: reportsOn task.taskId late)))
  /-- Only a transition to another status moves the task again. -/
  kept : ∀ held, TrackedTask.find? (step.update report).tasks task.taskId = some held →
    (∀ later ∈ reportsOn task.taskId late, ∀ status,
      step.transition? later held.descriptor = some status → status = held.status) →
    TrackedTask.find? ((step.update report).run late).tasks task.taskId = some held
  /-- A failure that was taken stays, and with it the pending step, until the task is
  reported under way or ended well. -/
  failed : ∀ goal, step.status ≠ .complete → step.goalOf task.taskId = .ok goal →
    report.state.isFailure = true →
    (∀ later ∈ reportsOn task.taskId late, later.state.isAdvance goal = false) →
    TrackedTask.find? ((step.update report).run late).tasks task.taskId =
        some (task.withStatus .pending) ∧
      ((step.update report).run late).status = .pending

theorem taskId_of_mem_reportsOn {id : TaskId} {calls : List Call} {report : TaskReport}
    (member : report ∈ reportsOn id calls) : report.taskId = id := by
  obtain ⟨request, _, reported⟩ := List.mem_filterMap.mp member
  unfold Call.reportOn? at reported
  split at reported
  · split at reported
    · cases reported
      assumption
    · cases reported
  · cases reported

theorem Coherent.reportStands {step : Step} (coherent : step.Coherent) {task : TrackedTask}
    (member : task ∈ step.tasks) {report : TaskReport} (about : report.taskId = task.taskId)
    {late : List Call} (quiet : ∀ request ∈ late, request.Quiet) :
    ReportStands step task report late := by
  have found := TrackedTask.find?_of_mem coherent.distinct member
  have reached := (coherent.update report).run late
  have requirement : (step.update report).requirement = step.requirement :=
    step.act_requirement (.report report)
  have kept : ∀ held, TrackedTask.find? (step.update report).tasks task.taskId = some held →
      (∀ later ∈ reportsOn task.taskId late, ∀ status,
        step.transition? later held.descriptor = some status → status = held.status) →
      TrackedTask.find? ((step.update report).run late).tasks task.taskId = some held := by
    intro held foundHeld unmoved
    apply find?_run_of_unmoved foundHeld quiet
    rw [transition?_congr requirement]
    exact unmoved
  refine ⟨?_, kept, ?_⟩
  · have all : ∀ request ∈ Call.act (.report report) :: late, request.Quiet :=
      List.forall_mem_cons.mpr ⟨trivial, quiet⟩
    have reports : reportsOn task.taskId (.act (.report report) :: late) =
        report :: reportsOn task.taskId late := by
      rw [reportsOn, List.filterMap_cons, Call.reportOn?, if_pos about]
      rfl
    rw [← reports]
    exact coherent.find?_run found all
  · intro goal unfinished resolved failure stays
    have pending : TrackedTask.find? ((step.update report).run late).tasks task.taskId =
        some (task.withStatus .pending) := by
      apply kept
      · rw [← about] at found resolved ⊢
        exact find?_update_of_failure unfinished found resolved failure
      · intro later inLate status moves
        rw [← taskId_of_mem_reportsOn inLate] at resolved
        rw [transition?_of_goal resolved] at moves
        rcases statusAfter_of_no_advance (stays later inLate) task.descriptor with none | pending
        · rw [TrackedTask.descriptor_withStatus, none] at moves
          cases moves
        · rw [TrackedTask.descriptor_withStatus, pending] at moves
          exact (Option.some.inj moves).symm
    exact ⟨pending, reached.status_of_pending (List.mem_of_find?_eq_some pending) rfl⟩

/-- In every history of a valid step, a report on a tracked task stands until a later
report on it has another transition. -/
theorem report_stands_until_moved (name : String) (status : Status) (requirement : Requirement)
    (early late : List Call) {task : TrackedTask} {report : TaskReport}
    (member : task ∈ ((Step.new name status requirement []).run early).tasks)
    (about : report.taskId = task.taskId) (quiet : ∀ request ∈ late, request.Quiet) :
    ReportStands ((Step.new name status requirement []).run early) task report late :=
  ((coherent_new name status requirement).run early).reportStands member about quiet

/-- A server that failed, beside a setup that ends well later.  Neither the lost contact
nor the parameters take the server on. -/
theorem failed_server_stands :
    let requirement := Requirement.ofInstance
      ⟨"index", 0, [⟨"server", .running, none⟩, ⟨"setup", .finished, none⟩]⟩
    let server : TaskDescriptor := ⟨"index-0-server", "index-0-server__1", .running, none⟩
    let setup : TaskDescriptor := ⟨"index-0-setup", "index-0-setup__2", .finished, none⟩
    let step := (Step.new "index-0:[server,setup]" .pending requirement []).run
      [.start, .act (.offer [.launch server, .launch setup])]
    let late : List Call := [.act (.report (.new "index-0-server__1" .gone)),
      .act (.report (.new "index-0-setup__2" .finished)), .act (.parameters .empty),
      .act (.report (.new "index-0-server__1" .lost))]
    ⟨server, .starting⟩ ∈ step.tasks ∧ (∀ request ∈ late, request.Quiet) ∧
      ReportStands step ⟨server, .starting⟩ (.new "index-0-server__1" .failed) late := by
  intro requirement server setup step late
  have member : ⟨server, .starting⟩ ∈ step.tasks := by decide +kernel
  have quiet : ∀ request ∈ late, request.Quiet := by
    intro request inLate
    simp only [late, List.mem_cons, List.not_mem_nil, or_false] at inLate
    rcases inLate with same | same | same | same
    all_goals
      subst same
      trivial
  exact ⟨member, quiet, report_stands_until_moved _ _ _ _ late member rfl quiet⟩

/-- No report is final by itself: a server that failed is complete after a late report
that it runs. -/
theorem failed_server_revived :
    ¬ ∀ (name : String) (status : Status) (requirement : Requirement) (early late : List Call)
        (task : TrackedTask) (report : TaskReport),
      task ∈ ((Step.new name status requirement []).run early).tasks →
      report.taskId = task.taskId → report.state.isTerminal = true →
      (∀ request ∈ late, ∃ later, request = .act (.report later) ∧
        later.taskId = task.taskId) →
      TrackedTask.find?
          ((((Step.new name status requirement []).run early).update report).run late).tasks
          task.taskId =
        TrackedTask.find? (((Step.new name status requirement []).run early).update report).tasks
          task.taskId := by
  intro final
  let server : TaskDescriptor := ⟨"index-0-server", "index-0-server__1", .running, none⟩
  let running := TaskReport.new "index-0-server__1" .running
  have unmoved := final "index-0:[server]" .pending
    (.ofInstance ⟨"index", 0, [⟨"server", .running, none⟩]⟩)
    [.start, .act (.offer [.launch server])] [.act (.report running)] ⟨server, .starting⟩
    (.new "index-0-server__1" .failed) (by decide +kernel) rfl rfl (by
      intro request member
      rw [List.mem_singleton.mp member]
      exact ⟨running, rfl, rfl⟩)
  exact absurd unmoved (by decide +kernel)

end Rollout.Step
