import Rollout.Proofs.LaunchedTasks
import Rollout.Proofs.Step.Reports

/-! A failed task brings its step back to be offered again, as long as the step is not complete.
The id of every tracked task leads back to its goal, so a failure is never lost on the way; then
the task is pending, and with it the step.  A complete step takes no report: it stays complete and
is not offered, whatever happens to its tasks. -/

namespace Rollout

namespace Step

/-- A step as simulated launches supply it.  Its tasks are tasks of its own pod; with
errors it has none, and without errors its status is the one that they imply. -/
structure Supplied (suffix : Nat → String) (step : Step) : Prop where
  coherent : step.errors = [] → step.Coherent
  untasked : step.errors ≠ [] → step.tasks = []
  launched : ∀ task ∈ step.tasks, ∃ number,
    SlotPool.Launched suffix step.requirement.podInstance number task.descriptor

namespace Supplied

variable {suffix : Nat → String} {step : Step}

theorem of_untouched (untouched : step.Untouched) : step.Supplied suffix where
  coherent := fun valid => coherent_of_untracked valid untouched.tasks untouched.prepared
  untasked := fun _ => untouched.tasks
  launched := by
    intro task member
    rw [untouched.tasks] at member
    cases member

theorem coherent_of_mem (supplied : step.Supplied suffix) {task : TrackedTask}
    (member : task ∈ step.tasks) : step.Coherent := by
  apply supplied.coherent
  apply Decidable.byContradiction
  intro faulty
  rw [supplied.untasked faulty] at member
  cases member

theorem act (supplied : step.Supplied suffix) {action : Action}
    (noOffer : ∀ recommendations, action ≠ .offer recommendations) :
    (step.act action).Supplied suffix where
  coherent := by
    rw [step.act_errors action]
    exact fun valid => (supplied.coherent valid).act action
  untasked := by
    rw [step.act_errors action]
    intro faulty
    rcases act_descriptors step noOffer with same | none
    · rw [supplied.untasked faulty] at same
      exact List.map_eq_nil_iff.mp same
    · exact none
  launched := by
    intro task member
    have retains := step.retains_act action noOffer
    obtain ⟨held, inOld, descriptor⟩ := retains.held member
    rw [retains.requirement, ← descriptor]
    exact supplied.launched held inOld

theorem offered (supplied : step.Supplied suffix) {new : Step}
    (outcome : Offered (SlotPool.evaluate suffix) step new) : new.Supplied suffix := by
  obtain ⟨requirement, pool, recommendations, started, answer, same⟩ := outcome
  have valid := (start_eq_some_iff.mp started).1
  have coherent := (supplied.coherent valid).updateOffer recommendations
  rw [← same] at coherent
  rw [← consider_of_ok started answer] at same
  refine ⟨fun _ => coherent, fun faulty => False.elim (faulty coherent.valid), ?_⟩
  intro task member
  rw [same] at member ⊢
  rcases step.considered pool with retains | relaunched
  · obtain ⟨held, inOld, descriptor⟩ := retains.held member
    rw [retains.requirement, ← descriptor]
    exact supplied.launched held inOld
  · obtain ⟨number, _, _, launched⟩ := relaunched.launched task member
    exact ⟨number, launched⟩

theorem update_failed (supplied : step.Supplied suffix) (legible : TaskId.Legible suffix)
    {task : TrackedTask} (member : task ∈ step.tasks) {report : TaskReport}
    (about : report.taskId = task.taskId) (failure : report.state.isFailure = true)
    (unfinished : step.status ≠ .complete) :
    (step.update report).status = .pending ∧ (step.update report).prepared = false := by
  have coherent := supplied.coherent_of_mem member
  have after := coherent.update report
  obtain ⟨number, launched⟩ := supplied.launched task member
  -- the id leads back to a goal, so that the report is not dropped
  have resolved : step.goalOf report.taskId = .ok task.descriptor.goal := by
    rw [about]
    exact goalOf_launched legible launched
  have moved : TrackedTask.find? (step.update report).tasks report.taskId =
      some (task.withStatus .pending) := by
    have found := TrackedTask.find?_of_mem coherent.distinct member
    rw [← about] at found
    exact find?_update_of_failure unfinished found resolved failure
  have pending := after.status_of_pending (List.mem_of_find?_eq_some moved) rfl
  refine ⟨pending, Bool.eq_false_iff.mpr ?_⟩
  exact fun prepared => after.apart prepared pending

end Supplied

end Step

namespace Session

theorem supplied_run {suffix : Nat → String} (session : Session SlotPool)
    (start : ∀ ⦃location step⦄, session.plan.stepAt? location = some step →
      step.Supplied suffix)
    {operations : List (Operation SlotPool)}
    (simulated : ∀ operation ∈ operations, operation.Simulated suffix)
    ⦃location : Location⦄ ⦃step : Step⦄
    (found : (session.run operations).plan.stepAt? location = some step) :
    step.Supplied suffix := by
  refine forall_steps_run (Operation.Simulated suffix) ?_ ?_ start simulated found
  · intro evaluate dirty permitted old new supplied outcome
    have same : evaluate = SlotPool.evaluate suffix := permitted
    rw [same] at outcome
    exact supplied.offered outcome
  · intro operation location action permitted acts old supplied
    exact supplied.act (permitted.brokered.noOffer acts)

end Session

namespace Plan

structure Redeploys (plan : Plan Step) (location : Location) (step : Step)
    (report : TaskReport) : Prop where
  /-- An incomplete step has to be prepared anew and may be offered at once. -/
  pending : step.status ≠ .complete → ∃ new,
    (plan.route report).stepAt? location = some new ∧ new.status = .pending ∧
      new.prepared = false ∧ Element.isEligible [] new = true
  /-- A complete step is left as it is, and is not offered. -/
  complete : step.status = .complete →
    (plan.route report).stepAt? location = some step ∧ Element.isEligible [] step = false

/-- In every history of simulated launches, the failure of a tracked task redeploys its
step unless the step is complete. -/
theorem failed_task_redeploys {suffix : Nat → String} (legible : TaskId.Legible suffix)
    {file : ServiceFile} {plan : Plan Step} (built : ofService file = .ok plan)
    (pool : SlotPool) {operations : List (Operation SlotPool)}
    (simulated : ∀ operation ∈ operations, operation.Simulated suffix)
    {location : Location} {step : Step} {task : TrackedTask}
    (found : (Session.run ⟨plan, pool⟩ operations).plan.stepAt? location = some step)
    (member : task ∈ step.tasks) {report : TaskReport} (about : report.taskId = task.taskId)
    (failure : report.state.isFailure = true) :
    (Session.run ⟨plan, pool⟩ operations).plan.Redeploys location step report := by
  have untouched : ∀ ⦃location step⦄, plan.stepAt? location = some step → step.Supplied suffix :=
    fun _ _ atStart => .of_untouched (untouched_of_declared (declared_built built) atStart)
  have supplied := Session.supplied_run ⟨plan, pool⟩ untouched simulated found
  have routed := stepAt?_route (Session.run ⟨plan, pool⟩ operations).plan report location
  rw [found, Option.map_some] at routed
  constructor
  · intro unfinished
    obtain ⟨pending, unprepared⟩ := supplied.update_failed legible member about failure unfinished
    refine ⟨step.update report, routed, pending, unprepared, ?_⟩
    exact Element.isEligible_of_pending pending
      ((supplied.coherent_of_mem member).update report).valid
  · intro complete
    rw [Step.update_of_complete report complete] at routed
    refine ⟨routed, Bool.eq_false_iff.mpr ?_⟩
    exact Element.not_eligible_of_passed (Or.inl (Status.isComplete_iff.mpr complete))

theorem exists_task_of_ids {plan : Plan Step} {location : Location} {id : TaskId}
    (ids : (plan.stepAt? location).map (fun step => step.tasks.map TrackedTask.taskId) =
      some [id]) :
    ∃ step task, plan.stepAt? location = some step ∧ task ∈ step.tasks ∧ task.taskId = id := by
  obtain ⟨step, found, tracked⟩ := Option.map_eq_some_iff.mp ids
  obtain ⟨task, tasks, same⟩ := List.map_eq_singleton_iff.mp tracked
  refine ⟨step, task, found, ?_, same⟩
  rw [tasks]
  exact List.mem_singleton.mpr rfl

/-- The second of two instances is lost while the first one serves. -/
theorem lost_instance_redeploys :
    let file := ServiceFile.scaffold "search" "index" 2
    let plan := Plan.new deployName (file.pods.map PodSection.phase) file.planStrategy
    let reached := (Session.run ⟨plan, SlotPool.unbounded⟩
      [.pass (SlotPool.evaluate Nat.repr) [], .route (.new "index-0-server__1" .running),
        .pass (SlotPool.evaluate Nat.repr) []]).plan
    ∃ step, reached.stepAt? ⟨0, 1⟩ = some step ∧ step.status = .starting ∧
      reached.Redeploys ⟨0, 1⟩ step (.new "index-1-server__2" .lost) := by
  intro file plan reached
  have built : ofService file = .ok plan := rfl
  have ids : (reached.stepAt? ⟨0, 1⟩).map (fun step => step.tasks.map TrackedTask.taskId) =
      some ["index-1-server__2"] := by decide +kernel
  have starting : (reached.stepAt? ⟨0, 1⟩).map (·.status) = some .starting := by decide +kernel
  obtain ⟨step, task, found, member, id⟩ := exists_task_of_ids ids
  rw [found] at starting
  refine ⟨step, found, Option.some.inj starting, ?_⟩
  refine failed_task_redeploys TaskId.fresh_repr.legible built _ ?_ found member id.symm rfl
  intro operation inHistory
  simp only [List.mem_cons, List.not_mem_nil, or_false] at inHistory
  rcases inHistory with same | same | same
  · subst same
    exact rfl
  · subst same
    exact True.intro
  · subst same
    exact rfl

/-- A failure after completion does not redeploy: the only instance is lost once the whole
plan is complete. -/
theorem complete_plan_not_redeployed :
    ¬ ∀ (suffix : Nat → String) (file : ServiceFile) (plan : Plan Step) (pool : SlotPool)
        (operations : List (Operation SlotPool)) (location : Location) (step : Step)
        (task : TrackedTask) (report : TaskReport),
      TaskId.Fresh suffix → ofService file = .ok plan →
      (∀ operation ∈ operations, operation = .pass (SlotPool.evaluate suffix) [] ∨
        ∃ earlier, operation = .route earlier) →
      (Session.run ⟨plan, pool⟩ operations).plan.stepAt? location = some step →
      task ∈ step.tasks → report.taskId = task.taskId → report.state.isFailure = true →
      ∃ new, ((Session.run ⟨plan, pool⟩ operations).plan.route report).stepAt? location =
          some new ∧
        new.status = .pending ∧ new.prepared = false ∧ Element.isEligible [] new = true := by
  intro always
  let file := ServiceFile.scaffold "search" "index" 1
  let plan := Plan.new deployName (file.pods.map PodSection.phase) file.planStrategy
  let operations : List (Operation SlotPool) :=
    [.pass (SlotPool.evaluate Nat.repr) [], .route (.new "index-0-server__1" .running)]
  let lost := TaskReport.new "index-0-server__1" .lost
  let reached := (Session.run ⟨plan, SlotPool.unbounded⟩ operations).plan
  have ids : (reached.stepAt? ⟨0, 0⟩).map (fun step => step.tasks.map TrackedTask.taskId) =
      some ["index-0-server__1"] := by decide +kernel
  obtain ⟨step, task, found, member, id⟩ := exists_task_of_ids ids
  obtain ⟨new, atEnd, pending, _⟩ := always Nat.repr file plan SlotPool.unbounded operations
    ⟨0, 0⟩ step task lost TaskId.fresh_repr rfl (by
      intro operation inHistory
      simp only [operations, List.mem_cons, List.not_mem_nil, or_false] at inHistory
      rcases inHistory with same | same
      · exact Or.inl same
      · exact Or.inr ⟨_, same⟩) found member id.symm rfl
  have complete : ((reached.route lost).stepAt? ⟨0, 0⟩).map (·.status) = some .complete := by
    decide +kernel
  rw [atEnd, Option.map_some, pending] at complete
  cases complete

end Plan

end Rollout
