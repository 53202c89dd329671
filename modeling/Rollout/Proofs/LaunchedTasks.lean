import Rollout.Proofs.Broadcast
import Rollout.Proofs.Offer.Launches
import Rollout.Proofs.Plan.Built
import Rollout.Proofs.Plan.Operations

/-! Launched tasks and their reports.  Every task that a step tracks was launched for the step's
own pod, under a number that was used once; from this a report on it finds its way back, to this
step alone. -/

namespace Rollout

namespace Step

/-- No task was added, whatever became of the old ones. -/
structure Retains (old new : Step) : Prop where
  requirement : new.requirement = old.requirement
  descriptors : (new.tasks.map (·.descriptor)).Sublist (old.tasks.map (·.descriptor))

/-- All tasks were launched under numbers from an interval. -/
structure Relaunched (suffix : Nat → String) (used next : Nat) (old new : Step) : Prop where
  requirement : new.requirement = old.requirement
  distinct : (new.tasks.map TrackedTask.taskId).Nodup
  launched : ∀ task ∈ new.tasks, ∃ number, used < number ∧ number ≤ next ∧
    SlotPool.Launched suffix new.requirement.podInstance number task.descriptor

theorem Retains.refl (step : Step) : Retains step step := ⟨rfl, List.Sublist.refl _⟩

theorem Retains.held {old new : Step} (retains : Retains old new) {task : TrackedTask}
    (member : task ∈ new.tasks) : ∃ held ∈ old.tasks, held.descriptor = task.descriptor :=
  List.mem_map.mp (retains.descriptors.subset (List.mem_map_of_mem member))

theorem Retains.nodup {old new : Step} (retains : Retains old new)
    (distinct : (old.tasks.map TrackedTask.taskId).Nodup) :
    (new.tasks.map TrackedTask.taskId).Nodup := by
  rw [TrackedTask.map_taskId_eq] at distinct ⊢
  exact (retains.descriptors.map (·.taskId)).nodup distinct

theorem retains_act (step : Step) (action : Action)
    (noOffer : ∀ recommendations, action ≠ .offer recommendations) :
    Retains step (step.act action) := by
  refine ⟨step.act_requirement action, ?_⟩
  rcases act_descriptors step noOffer with same | none
  · simp only [same, List.Sublist.refl]
  · simp only [none, List.map_nil, List.nil_sublist]

/-- The simulated evaluator refuses a step, matches nothing for it, or launches all of its
tasks anew, under new numbers. -/
theorem considered_cases {suffix : Nat → String} (step : Step) (pool : SlotPool) :
    step.consider (SlotPool.evaluate suffix) pool = step ∨
      step.consider (SlotPool.evaluate suffix) pool = step.updateOffer [] ∨
      Relaunched suffix pool.launched
        (step.start.elim pool fun requirement =>
          (SlotPool.evaluate suffix requirement pool).2).launched
        step (step.consider (SlotPool.evaluate suffix) pool) := by
  cases started : step.start with
  | none =>
      left
      simp only [consider, started]
  | some requirement =>
      cases answer : (SlotPool.evaluate suffix requirement pool).1 with
      | error cause =>
          left
          simp only [consider, started, answer]
      | ok recommendations =>
          right
          rw [consider_of_ok started answer]
          by_cases empty : recommendations = []
          · left
            rw [empty]
          · right
            have tasks := step.updateOffer_tasks empty
            have pod : requirement.podInstance = step.requirement.podInstance := by
              rw [← (start_eq_some_iff.mp started).2.2]
              rfl
            refine ⟨rfl, ?_, ?_⟩
            · rw [tasks]
              exact TrackedTask.nodup_ofRecommendations recommendations
            · intro task member
              rw [tasks] at member
              have launch := (TrackedTask.of_mem_ofRecommendations member).1
              have recommended := (TrackedTask.mem_launchesOf_iff.mp launch).1
              have launched := SlotPool.launched_of_evaluate answer recommended
              rw [pod] at launched
              exact launched

theorem retains_unmatched (step : Step) : Retains step (step.updateOffer []) := by
  refine ⟨rfl, ?_⟩
  simp only [updateOffer_nil_tasks, TrackedTask.map_descriptor_withStatus, List.Sublist.refl]

theorem considered {suffix : Nat → String} (step : Step) (pool : SlotPool) :
    Retains step (step.consider (SlotPool.evaluate suffix) pool) ∨
      Relaunched suffix pool.launched
        (step.start.elim pool fun requirement =>
          (SlotPool.evaluate suffix requirement pool).2).launched
        step (step.consider (SlotPool.evaluate suffix) pool) := by
  rcases step.considered_cases pool with same | unmatched | relaunched
  · rw [same]
    exact Or.inl (Retains.refl step)
  · rw [unmatched]
    exact Or.inl step.retains_unmatched
  · exact Or.inr relaunched

/-- A step finds the goal with which a task of its own pod was launched. -/
theorem goalOf_launched {suffix : Nat → String} (legible : TaskId.Legible suffix) {step : Step}
    {number : Nat} {task : TaskDescriptor}
    (launched : SlotPool.Launched suffix step.requirement.podInstance number task) :
    step.goalOf task.taskId = .ok task.goal := by
  unfold goalOf
  rw [TaskId.resolve_eq_ok_iff.mpr (launched.taskName?_eq legible)]
  exact launched.goalOf_eq

end Step

namespace Plan

/-- Every tracked task was launched for the pod of its step, under a number that is used
up, and no two tasks share an id. -/
structure Accounted (suffix : Nat → String) (used : Nat) (plan : Plan Step) : Prop where
  launched : ∀ ⦃location step⦄, plan.stepAt? location = some step → ∀ task ∈ step.tasks,
    ∃ number, number ≤ used ∧
      SlotPool.Launched suffix step.requirement.podInstance number task.descriptor
  distinct : ∀ ⦃location step⦄, plan.stepAt? location = some step →
    (step.tasks.map TrackedTask.taskId).Nodup
  apart : ∀ ⦃first second a b⦄, plan.stepAt? first = some a → plan.stepAt? second = some b →
    ∀ task ∈ a.tasks, ∀ other ∈ b.tasks, task.taskId = other.taskId → first = second

namespace Accounted

variable {suffix : Nat → String} {used next : Nat} {before after : Plan Step}

/-- An old id and a new one differ in the number of the launch. -/
theorem ne_relaunched (accounted : before.Accounted suffix used) (fresh : TaskId.Fresh suffix)
    {location : Location} {old kept other relaunched : Step}
    (found : before.stepAt? location = some old) (retains : Step.Retains old kept)
    (again : Step.Relaunched suffix used next other relaunched) {task new : TrackedTask}
    (inKept : task ∈ kept.tasks) (inNew : new ∈ relaunched.tasks) :
    task.taskId ≠ new.taskId := by
  intro equal
  obtain ⟨held, inOld, descriptor⟩ := retains.held inKept
  obtain ⟨early, bounded, launched⟩ := accounted.launched found held inOld
  obtain ⟨late, above, _, launchedAgain⟩ := again.launched new inNew
  rw [descriptor] at launched
  have numbers := launched.number_eq launchedAgain fresh equal
  omega

/-- The steps keep their tasks, except that one may have launched all of its tasks under
numbers not used before. -/
theorem evolves (accounted : before.Accounted suffix used) (fresh : TaskId.Fresh suffix)
    (more : used ≤ next) (here : Location)
    (evolves : Evolves (fun location old new =>
      Step.Retains old new ∨ location = here ∧ Step.Relaunched suffix used next old new)
      before after) : after.Accounted suffix next where
  launched := by
    intro location step found task member
    obtain ⟨old, atBefore, retains | ⟨_, relaunched⟩⟩ := evolves.step_after found
    · obtain ⟨held, inOld, same⟩ := retains.held member
      obtain ⟨number, bounded, launched⟩ := accounted.launched atBefore held inOld
      rw [same, ← retains.requirement] at launched
      exact ⟨number, by omega, launched⟩
    · obtain ⟨number, _, bounded, launched⟩ := relaunched.launched task member
      exact ⟨number, bounded, launched⟩
  distinct := by
    intro location step found
    obtain ⟨old, atBefore, retains | ⟨_, relaunched⟩⟩ := evolves.step_after found
    · exact retains.nodup (accounted.distinct atBefore)
    · exact relaunched.distinct
  apart := by
    intro first second a b atFirst atSecond task inFirst other inSecond same
    obtain ⟨oldFirst, beforeFirst, keptFirst⟩ := evolves.step_after atFirst
    obtain ⟨oldSecond, beforeSecond, keptSecond⟩ := evolves.step_after atSecond
    -- two kept tasks were apart before; two new ones stand at one place; an old id is not new
    rcases keptFirst with retainsFirst | ⟨hereFirst, relaunchedFirst⟩
    · rcases keptSecond with retainsSecond | ⟨_, relaunchedSecond⟩
      · obtain ⟨held, inOld, descriptor⟩ := retainsFirst.held inFirst
        obtain ⟨holds, inOther, descriptor'⟩ := retainsSecond.held inSecond
        apply accounted.apart beforeFirst beforeSecond held inOld holds inOther
        rw [TrackedTask.taskId, TrackedTask.taskId, descriptor, descriptor']
        exact same
      · exact False.elim (accounted.ne_relaunched fresh beforeFirst retainsFirst
          relaunchedSecond inFirst inSecond same)
    · rcases keptSecond with retainsSecond | ⟨hereSecond, _⟩
      · exact False.elim (accounted.ne_relaunched fresh beforeSecond retainsSecond
          relaunchedFirst inSecond inFirst same.symm)
      · rw [hereFirst, hereSecond]

theorem of_declared {plan : Plan Step} (same : plan.declared = plan) (used : Nat) :
    plan.Accounted suffix used where
  launched := by
    intro location step found task member
    rw [(untouched_of_declared same found).tasks] at member
    cases member
  distinct := by
    intro location step found
    rw [(untouched_of_declared same found).tasks]
    exact List.nodup_nil
  apart := by
    intro first second a b atFirst _ task member
    rw [(untouched_of_declared same atFirst).tasks] at member
    cases member

theorem visit {pass : Pass SlotPool}
    (accounted : pass.plan.Accounted suffix pass.evaluator.launched)
    (fresh : TaskId.Fresh suffix) (location : Location) :
    (pass.visit (SlotPool.evaluate suffix) location).plan.Accounted suffix
      (pass.visit (SlotPool.evaluate suffix) location).evaluator.launched := by
  rw [Pass.plan_visit, Pass.evaluator_visit]
  refine accounted.evolves fresh ?_ location
    ((Evolves.of_modifyAt pass.plan location _).attach.mono ?_)
  · cases (pass.plan.stepAt? location).bind Step.start with
    | none => exact Nat.le_refl _
    | some requirement => exact SlotPool.evaluate_launched_le requirement pass.evaluator
  · intro place old new related
    obtain ⟨found, same⟩ := related
    by_cases here : place = location
    · rw [if_pos here] at same
      rw [here] at found
      rw [same, found]
      exact (old.considered pass.evaluator).imp_right fun relaunched => ⟨here, relaunched⟩
    · rw [if_neg here] at same
      rw [same]
      exact Or.inl (Step.Retains.refl old)

theorem runPass {plan : Plan Step} {pool : SlotPool}
    (accounted : plan.Accounted suffix pool.launched) (fresh : TaskId.Fresh suffix)
    (dirty : List String) :
    (plan.runPass (SlotPool.evaluate suffix) pool dirty).plan.Accounted suffix
      (plan.runPass (SlotPool.evaluate suffix) pool dirty).evaluator.launched :=
  runPass_induct
    (motive := fun pass : Pass SlotPool => pass.plan.Accounted suffix pass.evaluator.launched)
    (fun _ location holds => holds.visit fresh location) dirty accounted

theorem of_retains (accounted : before.Accounted suffix used) (fresh : TaskId.Fresh suffix)
    (kept : Evolves (fun _ old new => Step.Retains old new) before after) :
    after.Accounted suffix used :=
  accounted.evolves fresh (Nat.le_refl used) ⟨0, 0⟩
    (kept.mono fun _ _ _ retains => Or.inl retains)

end Accounted

end Plan

/-! ### Histories -/

namespace Operation

/-- Passes ask the simulated evaluator, and nothing else launches: a single step may be
changed in any way but by an offer, and between passes the pool may give and take slots
but not go back in its numbers. -/
def Simulated (suffix : Nat → String) : Operation SlotPool → Prop
  | .pass evaluate _ => evaluate = SlotPool.evaluate suffix
  | .onStep _ action => ∀ recommendations, action ≠ .offer recommendations
  | .attend change => ∀ pool : SlotPool, (change pool).launched = pool.launched
  | _ => True

theorem Simulated.brokered {suffix : Nat → String} {operation : Operation SlotPool}
    (simulated : operation.Simulated suffix) : operation.Brokered := by
  rintro location recommendations rfl
  exact simulated recommendations rfl

end Operation

namespace Session

theorem accounted_perform {suffix : Nat → String} (fresh : TaskId.Fresh suffix)
    {session : Session SlotPool} {operation : Operation SlotPool}
    (simulated : operation.Simulated suffix)
    (accounted : session.plan.Accounted suffix session.evaluator.launched) :
    (session.perform operation).plan.Accounted suffix
      (session.perform operation).evaluator.launched := by
  have quiet : (∀ evaluate dirty, operation ≠ .pass evaluate dirty) →
      (session.perform operation).plan.Accounted suffix session.evaluator.launched := by
    intro noPass
    refine accounted.of_retains fresh ((operation.perform_evolves session noPass).mono ?_)
    intro location old new same
    cases acts : operation.actionAt location with
    | none =>
        rw [same, acts]
        exact Step.Retains.refl old
    | some action =>
        rw [same, acts]
        exact old.retains_act action (simulated.brokered.noOffer acts)
  cases operation with
  | pass evaluate dirty =>
      have same : evaluate = SlotPool.evaluate suffix := simulated
      subst same
      exact accounted.runPass fresh dirty
  | attend change =>
      change session.plan.Accounted suffix (change session.evaluator).launched
      rw [simulated session.evaluator]
      exact accounted
  | _ => exact quiet (by intros; simp)

theorem accounted_run {suffix : Nat → String} (fresh : TaskId.Fresh suffix)
    (session : Session SlotPool) {operations : List (Operation SlotPool)}
    (simulated : ∀ operation ∈ operations, operation.Simulated suffix)
    (accounted : session.plan.Accounted suffix session.evaluator.launched) :
    (session.run operations).plan.Accounted suffix
      (session.run operations).evaluator.launched :=
  run_induct (motive := fun current : Session SlotPool =>
    current.plan.Accounted suffix current.evaluator.launched)
    (Operation.Simulated suffix)
    (fun _ _ permitted holds => accounted_perform fresh permitted holds)
    session accounted simulated

end Session

/-! ### Reports -/

namespace Plan

structure Reportable (plan : Plan Step) (location : Location) (step : Step)
    (task : TrackedTask) : Prop where
  /-- The id holds the name. -/
  named : task.taskId.taskName? = some task.descriptor.name
  /-- The router finds the step. -/
  owned : ∃ owners, plan.owners task.taskId = .ok owners ∧ step ∈ owners
  /-- The step finds the goal that the task was launched with. -/
  goal : step.goalOf task.taskId = .ok task.descriptor.goal
  /-- No other step tracks the id. -/
  sole : ∀ other held, plan.stepAt? other = some held → other ≠ location →
    ∀ tracked ∈ held.tasks, tracked.taskId ≠ task.taskId
  /-- A report on the task changes no other step. -/
  elsewhere : ∀ report, report.taskId = task.taskId → ∀ other, other ≠ location →
    (plan.route report).stepAt? other = plan.stepAt? other
  /-- A report with a transition puts this task, and only this task, into its status. -/
  recorded : ∀ report status, report.taskId = task.taskId → step.status ≠ .complete →
    Step.statusAfter report task.descriptor.goal task.descriptor = some status →
    ∃ new, (plan.route report).stepAt? location = some new ∧
      new = Step.settle { step with
        tasks := TrackedTask.setStatus step.tasks task.taskId status } ∧
      TrackedTask.find? new.tasks task.taskId = some (task.withStatus status) ∧
      ∀ id, id ≠ task.taskId →
        TrackedTask.find? new.tasks id = TrackedTask.find? step.tasks id

namespace Accounted

variable {suffix : Nat → String} {used : Nat} {plan : Plan Step} {location : Location}
  {step : Step} {task : TrackedTask}

theorem taskName?_eq (accounted : plan.Accounted suffix used) (fresh : TaskId.Fresh suffix)
    (found : plan.stepAt? location = some step) (member : task ∈ step.tasks) :
    task.taskId.taskName? = some task.descriptor.name := by
  obtain ⟨number, _, launched⟩ := accounted.launched found task member
  exact launched.taskName?_eq fresh.legible

theorem goalOf_eq (accounted : plan.Accounted suffix used) (fresh : TaskId.Fresh suffix)
    (found : plan.stepAt? location = some step) (member : task ∈ step.tasks) :
    step.goalOf task.taskId = .ok task.descriptor.goal := by
  obtain ⟨number, _, launched⟩ := accounted.launched found task member
  exact Step.goalOf_launched fresh.legible launched

theorem update_of_elsewhere (accounted : plan.Accounted suffix used)
    (found : plan.stepAt? location = some step) (member : task ∈ step.tasks)
    {report : TaskReport} (reported : report.taskId = task.taskId) {other : Location}
    (different : other ≠ location) {held : Step} (atOther : plan.stepAt? other = some held) :
    held.update report = held := by
  apply Step.update_of_untracked
  intro tracked inHeld same
  exact different (accounted.apart atOther found tracked inHeld task member
    (same.trans reported))

theorem reportable (accounted : plan.Accounted suffix used) (fresh : TaskId.Fresh suffix)
    (found : plan.stepAt? location = some step) (member : task ∈ step.tasks) :
    plan.Reportable location step task where
  named := accounted.taskName?_eq fresh found member
  goal := accounted.goalOf_eq fresh found member
  owned := by
    have named := TaskId.resolve_eq_ok_iff.mpr (accounted.taskName?_eq fresh found member)
    refine ⟨plan.steps.filter (·.owns task.descriptor.name), ?_, ?_⟩
    · unfold owners
      rw [named]
      rfl
    · apply List.mem_filter.mpr
      refine ⟨mem_steps_iff.mpr ⟨location, found⟩, ?_⟩
      exact Step.owns_of_goalOf named (accounted.goalOf_eq fresh found member)
  sole := by
    intro other held atOther different tracked inHeld same
    exact different (accounted.apart atOther found tracked inHeld task member same)
  elsewhere := by
    intro report reported other different
    rw [stepAt?_route]
    cases atOther : plan.stepAt? other with
    | none => rfl
    | some held =>
        exact congrArg some
          (accounted.update_of_elsewhere found member reported different atOther)
  recorded := by
    intro report status reported unfinished moves
    have resolved := accounted.goalOf_eq fresh found member
    have taken := Step.update_of_tracked (accounted.distinct found) member reported unfinished
      resolved moves
    refine ⟨step.update report, ?_, taken, ?_, ?_⟩
    · rw [stepAt?_route, found]
      rfl
    · rw [taken]
      exact TrackedTask.find?_setStatus_self status
        (TrackedTask.find?_of_mem (accounted.distinct found) member)
    · intro id different
      rw [taken]
      exact TrackedTask.find?_setStatus_of_ne status different

end Accounted

/-- In every history of simulated launches, a report on a tracked task comes through to
the step that tracks it. -/
theorem launched_task_reportable {suffix : Nat → String} (fresh : TaskId.Fresh suffix)
    {file : ServiceFile} {plan : Plan Step} (built : ofService file = .ok plan)
    (pool : SlotPool) {operations : List (Operation SlotPool)}
    (simulated : ∀ operation ∈ operations, operation.Simulated suffix)
    {location : Location} {step : Step} {task : TrackedTask}
    (found : (Session.run ⟨plan, pool⟩ operations).plan.stepAt? location = some step)
    (member : task ∈ step.tasks) :
    (Session.run ⟨plan, pool⟩ operations).plan.Reportable location step task := by
  have accounted := Session.accounted_run fresh ⟨plan, pool⟩ simulated
    (Accounted.of_declared (declared_built built) pool.launched)
  exact accounted.reportable fresh found member

/-- A launch on the first of two instances, on which nothing was reported yet. -/
theorem scaffold_task_reportable :
    let file := ServiceFile.scaffold "search" "index" 2
    let plan := Plan.new deployName (file.pods.map PodSection.phase) file.planStrategy
    let reached := (Session.run ⟨plan, SlotPool.withSlots 1⟩
      [.pass (SlotPool.evaluate Nat.repr) [], .attend SlotPool.release]).plan
    ∃ step task, reached.stepAt? ⟨0, 0⟩ = some step ∧ task ∈ step.tasks ∧
      task.taskId = "index-0-server__1" ∧ reached.Reportable ⟨0, 0⟩ step task := by
  intro file plan reached
  have built : ofService file = .ok plan := rfl
  have ids : (reached.stepAt? ⟨0, 0⟩).map (fun step => step.tasks.map TrackedTask.taskId) =
      some ["index-0-server__1"] := by decide +kernel
  obtain ⟨step, found, tracked⟩ := Option.map_eq_some_iff.mp ids
  obtain ⟨task, tasks, id⟩ := List.map_eq_singleton_iff.mp tracked
  have member : task ∈ step.tasks := by
    rw [tasks]
    exact List.mem_singleton.mpr rfl
  refine ⟨step, task, found, member, id, ?_⟩
  apply launched_task_reportable TaskId.fresh_repr built _ _ found member
  intro operation inHistory
  simp only [List.mem_cons, List.not_mem_nil, or_false] at inHistory
  rcases inHistory with same | same
  · subst same
    exact rfl
  · subst same
    exact fun _ => rfl

end Plan

end Rollout
