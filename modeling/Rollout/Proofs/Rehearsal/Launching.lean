import Rollout.Proofs.Arrangements
import Rollout.Proofs.LaunchedTasks

/-! Launching without a limit.  A valid step that is asked launches all of its tasks anew; and
nothing but an interruption can keep a plan from asking. -/

namespace Rollout

namespace Step

structure LaunchedAnew (suffix : Nat → String) (used : Nat) (old new : Step) : Prop where
  requirement : new.requirement = old.requirement
  errors : new.errors = old.errors
  occupied : new.tasks ≠ []
  derived : new.status = Status.aggregate (new.tasks.map (·.status)) .pending
  starting : ∀ task ∈ new.tasks, task.status = .starting
  launched : ∀ task ∈ new.tasks, ∃ number, used < number ∧
    SlotPool.Launched suffix new.requirement.podInstance number task.descriptor

theorem LaunchedAnew.mono {suffix : Nat → String} {fewer used : Nat} {old new : Step}
    (launched : LaunchedAnew suffix used old new) (smaller : fewer ≤ used) :
    LaunchedAnew suffix fewer old new where
  requirement := launched.requirement
  errors := launched.errors
  occupied := launched.occupied
  derived := launched.derived
  starting := launched.starting
  launched := by
    intro task member
    obtain ⟨number, above, origin⟩ := launched.launched task member
    exact ⟨number, by omega, origin⟩

structure Launchable (step : Step) : Prop where
  valid : step.errors = []
  unfinished : step.status ≠ .complete
  known : ∀ name ∈ step.requirement.tasksToLaunch,
    name ∈ step.requirement.podInstance.tasks.map (·.name)
  asks : step.requirement.tasksToLaunch ≠ []

theorem Launchable.evaluate {step : Step} (launchable : step.Launchable) (suffix : Nat → String)
    {pool : SlotPool} (free : pool.free = none) :
    ∃ requirement recommendations, step.start = some requirement ∧
      requirement.podInstance = step.requirement.podInstance ∧
      (SlotPool.evaluate suffix requirement pool).1 = .ok recommendations ∧
      ∃ task, .launch task ∈ recommendations := by
  have available : pool.free ≠ some 0 := by simp [free]
  obtain ⟨tasks, answer, each⟩ :=
    SlotPool.evaluate_of_known suffix (step.requirement.withEnvironment step.parameters)
      available launchable.known
  refine ⟨_, SlotPool.reservation step.requirement.podInstance :: tasks,
    start_eq_some_iff.mpr ⟨launchable.valid, launchable.unfinished, rfl⟩, rfl,
    congrArg (·.1) answer, ?_⟩
  obtain ⟨task, launch⟩ := SlotPool.exists_launch each launchable.asks
  exact ⟨task, List.mem_cons_of_mem _ launch⟩

theorem consider_of_unbounded (suffix : Nat → String) {step : Step} {pool : SlotPool}
    (free : pool.free = none) (launchable : step.Launchable) :
    LaunchedAnew suffix pool.launched step
      (step.consider (SlotPool.evaluate suffix) pool) := by
  obtain ⟨requirement, recommendations, started, pod, answer, task, launch⟩ :=
    launchable.evaluate suffix free
  have origin : ∀ task, .launch task ∈ recommendations → ∃ number, pool.launched < number ∧
      SlotPool.Launched suffix step.requirement.podInstance number task := by
    intro task recommended
    obtain ⟨number, above, _, launched⟩ := SlotPool.launched_of_evaluate answer recommended
    rw [pod] at launched
    exact ⟨number, above, launched⟩
  have tasks := step.updateOffer_tasks (List.ne_nil_of_mem launch)
  have occupied : (step.updateOffer recommendations).tasks ≠ [] := by
    rw [tasks]
    apply TrackedTask.ofRecommendations_ne_nil
    obtain ⟨_, _, launched⟩ := origin task launch
    exact List.ne_nil_of_mem
      (TrackedTask.mem_launchesOf_iff.mpr ⟨launch, launched.taskId_ne_empty⟩)
  rw [consider_of_ok started answer]
  refine ⟨rfl, rfl, occupied, ?_, ?_, ?_⟩
  · have derived : (step.updateOffer recommendations).status =
        Status.aggregate ((step.updateOffer recommendations).tasks.map (·.status))
          step.status :=
      derivedStatus_of_tasks occupied
    rw [derived]
    exact Status.aggregate_previous (by simpa using occupied) _ _
  · intro task member
    rw [tasks] at member
    exact (TrackedTask.of_mem_ofRecommendations member).2
  · intro task member
    rw [tasks] at member
    have launch := (TrackedTask.of_mem_ofRecommendations member).1
    exact origin task.descriptor (TrackedTask.mem_launchesOf_iff.mp launch).1

end Step

namespace Plan

theorem mem_tasks_iff {plan : Plan Step} {task : TrackedTask} :
    task ∈ plan.steps.flatMap (·.tasks) ↔
      ∃ location step, plan.stepAt? location = some step ∧ task ∈ step.tasks := by
  rw [List.mem_flatMap]
  constructor
  · intro tracked
    obtain ⟨step, inPlan, member⟩ := tracked
    obtain ⟨location, found⟩ := mem_steps_iff.mp inPlan
    exact ⟨location, step, found, member⟩
  · intro tracked
    obtain ⟨location, step, found, member⟩ := tracked
    exact ⟨step, mem_steps_iff.mpr ⟨location, found⟩, member⟩

theorem mem_tracked_iff {arrangement : Arrangement} {plan : Plan Step} {task : TrackedTask} :
    task ∈ plan.steps.flatMap (Step.trackedTasks arrangement) ↔
      ∃ location step, plan.stepAt? location = some step ∧ task ∈ step.tasks :=
  (plan.tracked_perm arrangement).mem_iff.trans mem_tasks_iff

theorem Accounted.nodup_tracked {suffix : Nat → String} {used : Nat} {plan : Plan Step}
    (accounted : plan.Accounted suffix used) (arrangement : Arrangement) :
    ((plan.steps.flatMap (Step.trackedTasks arrangement)).map TrackedTask.taskId).Nodup := by
  apply List.pairwise_map.mpr
  apply List.pairwise_flatMap.mpr
  constructor
  · intro step member
    obtain ⟨location, found⟩ := mem_steps_iff.mp member
    exact List.pairwise_map.mp (Step.nodup_trackedTasks arrangement (accounted.distinct found))
  · apply pairwise_steps
    intro first second a b before atFirst atSecond task inFirst other inSecond same
    exact before.ne (accounted.apart atFirst atSecond task (Step.mem_trackedTasks.mp inFirst)
      other (Step.mem_trackedTasks.mp inSecond) same)

structure Uninterrupted (plan : Plan Step) : Prop where
  whole : plan.strategy.interrupted = false
  each : ∀ {place : Nat} {phase : Phase Step}, plan.phases[place]? = some phase →
    phase.strategy.interrupted = false

namespace Uninterrupted

variable {before after : Plan Step}

theorem of_frame (runs : before.Uninterrupted) (same : after.strategy = before.strategy)
    (frames : ∀ place : Nat, (after.phases[place]?).map Phase.frame =
      (before.phases[place]?).map Phase.frame) : after.Uninterrupted where
  whole := by
    rw [same]
    exact runs.whole
  each := by
    intro place phase found
    have frame := frames place
    rw [found, Option.map_some] at frame
    obtain ⟨old, atBefore, equal⟩ := Option.map_eq_some_iff.mp frame.symm
    have strategies : old.strategy = phase.strategy :=
      congrArg (fun frame => frame.2.1) equal
    rw [← strategies]
    exact runs.each atBefore

theorem runPass {σ : Type} (runs : before.Uninterrupted) (evaluate : Evaluator σ)
    (evaluator : σ) (dirty : List String) :
    (before.runPass evaluate evaluator dirty).plan.Uninterrupted := by
  refine runPass_induct (motive := fun pass : Pass σ => pass.plan.Uninterrupted) ?_ dirty runs
  intro pass location holds
  rw [Pass.plan_visit]
  exact holds.of_frame rfl (frame_modifyAt pass.plan location _)

theorem routeAll (runs : before.Uninterrupted) (reports : List TaskReport) :
    (before.routeAll reports).Uninterrupted := by
  induction reports generalizing before with
  | nil => exact runs
  | cons report rest ih =>
      apply ih
      rw [route_eq_mapSteps]
      exact runs.of_frame rfl (frame_mapSteps before _)

end Uninterrupted

/-- A built step asks for its tasks by the names that its pod knows, and a valid one asks
for some. -/
theorem launchable_of_declared {file : ServiceFile} {plan reached : Plan Step}
    (built : ofService file = .ok plan) (same : reached.declared = plan)
    {location : Location} {step : Step} (found : reached.stepAt? location = some step)
    (valid : step.errors = []) (unfinished : step.status ≠ .complete) : step.Launchable := by
  obtain ⟨pod, _, deploys⟩ := deploys_of_declared built same found
  refine ⟨valid, unfinished, ?_, ?_⟩
  · intro name asked
    rw [deploys.launches] at asked
    exact asked
  · rw [deploys.errors] at valid
    rw [deploys.launches, deploys.tasks_eq]
    intro none
    rw [PodSection.taskSpecs, List.map_map, List.map_eq_nil_iff] at none
    exact (PodSection.faults_eq_nil_iff.mp valid).occupied none

theorem launchable_of_mem_candidateSteps {file : ServiceFile} {plan reached : Plan Step}
    (built : ofService file = .ok plan) (same : reached.declared = plan) {dirty : List String}
    {location : Location} (member : location ∈ reached.candidateSteps dirty) :
    ∃ step, reached.stepAt? location = some step ∧ step.Launchable := by
  obtain ⟨step, found, valid, unfinished⟩ := open_of_mem_candidateSteps member
  exact ⟨step, found, launchable_of_declared built same found valid unfinished⟩

/-- Without a limit a pass launches every candidate and leaves the other steps. -/
theorem runPass_launches (suffix : Nat → String) {file : ServiceFile} {plan reached : Plan Step}
    (built : ofService file = .ok plan) (same : reached.declared = plan) {pool : SlotPool}
    (free : pool.free = none) (dirty : List String) :
    Evolves (fun location old new =>
        if location ∈ reached.candidateSteps dirty then
          old.errors = [] ∧ old.status ≠ .complete ∧
            Step.LaunchedAnew suffix pool.launched old new
        else new = old)
      reached (reached.runPass (SlotPool.evaluate suffix) pool dirty).plan ∧
      (reached.runPass (SlotPool.evaluate suffix) pool dirty).evaluator.free = none ∧
      pool.launched ≤
        (reached.runPass (SlotPool.evaluate suffix) pool dirty).evaluator.launched := by
  obtain ⟨considered, unbounded⟩ := reached.runPass_considers
    (SlotPool.evaluate suffix) pool dirty
    (fun state => state.free = none ∧ pool.launched ≤ state.launched)
    (by
      intro requirement state holds
      exact ⟨SlotPool.evaluate_free holds.1,
        Nat.le_trans holds.2 (SlotPool.evaluate_launched_le requirement state)⟩)
    ⟨free, Nat.le_refl _⟩
  refine ⟨considered.attach.mono ?_, unbounded⟩
  intro location old new related
  obtain ⟨found, related⟩ := related
  by_cases candidate : location ∈ reached.candidateSteps dirty
  · rw [if_pos candidate] at related ⊢
    obtain ⟨state, ⟨unlimited, more⟩, outcome⟩ := related
    obtain ⟨step, atLocation, launchable⟩ :=
      launchable_of_mem_candidateSteps built same candidate
    rw [found] at atLocation
    cases atLocation
    have launched := Step.consider_of_unbounded suffix unlimited launchable
    rw [← outcome] at launched
    exact ⟨launchable.valid, launchable.unfinished, launched.mono more⟩
  · rw [if_neg candidate] at related ⊢
    exact related

end Plan

end Rollout
