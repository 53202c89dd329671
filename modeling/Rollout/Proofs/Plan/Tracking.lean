import Rollout.Proofs.Plan.Operations

/-! Where the tracked tasks of a plan come from.  Only an offer with a match brings tasks into a
step, so the steps track nothing but what the operations of a history launched, and a report on
any other task is lost. -/

namespace Rollout

namespace Step

def launchedIds (recommendations : List Recommendation) : List TaskId :=
  (TrackedTask.launchesOf recommendations).map (·.taskId)

def Action.launched : Action → List TaskId
  | .offer recommendations => launchedIds recommendations
  | _ => []

def TracksAmong (step : Step) (tasks : List TaskDescriptor) : Prop :=
  ∀ task ∈ step.tasks, task.descriptor ∈ tasks

theorem TracksAmong.mono {step : Step} {tasks more : List TaskDescriptor}
    (among : step.TracksAmong tasks) (wider : tasks ⊆ more) : step.TracksAmong more :=
  fun task member => wider (among task member)

theorem TracksAmong.of_descriptors {step after : Step} {tasks : List TaskDescriptor}
    (among : step.TracksAmong tasks)
    (descriptors : after.tasks.map (·.descriptor) = step.tasks.map (·.descriptor)) :
    after.TracksAmong tasks := by
  intro task member
  have inBoth : task.descriptor ∈ step.tasks.map (·.descriptor) := by
    rw [← descriptors]
    exact List.mem_map_of_mem member
  obtain ⟨held, inOld, same⟩ := List.mem_map.mp inBoth
  rw [← same]
  exact among held inOld

theorem TracksAmong.updateOffer {step : Step} {tasks : List TaskDescriptor}
    (among : step.TracksAmong tasks) (recommendations : List Recommendation) :
    (step.updateOffer recommendations).TracksAmong
      (tasks ++ TrackedTask.launchesOf recommendations) := by
  by_cases unmatched : recommendations = []
  · subst unmatched
    refine TracksAmong.mono ?_ (List.subset_append_left tasks _)
    exact among.of_descriptors (TrackedTask.map_descriptor_withStatus step.tasks .prepared)
  · intro task member
    rw [updateOffer_tasks step unmatched] at member
    exact List.mem_append_right tasks (TrackedTask.of_mem_ofRecommendations member).1

theorem TracksAmong.act {step : Step} {tasks : List TaskDescriptor}
    (among : step.TracksAmong tasks) {action : Action}
    (noOffer : ∀ recommendations, action ≠ .offer recommendations) :
    (step.act action).TracksAmong tasks := by
  rcases step.act_descriptors noOffer with same | none
  · exact among.of_descriptors same
  · intro task member
    rw [none] at member
    cases member

end Step

namespace Plan

def TracksAmong (plan : Plan Step) (tasks : List TaskDescriptor) : Prop :=
  ∀ ⦃location step⦄, plan.stepAt? location = some step → step.TracksAmong tasks

variable {plan : Plan Step} {tasks : List TaskDescriptor}

theorem TracksAmong.mono {more : List TaskDescriptor} (among : plan.TracksAmong tasks)
    (wider : tasks ⊆ more) : plan.TracksAmong more :=
  fun _ _ found => (among found).mono wider

theorem tracksAmong_of_untouched
    (untouched : ∀ ⦃location step⦄, plan.stepAt? location = some step → step.Untouched) :
    plan.TracksAmong [] := by
  intro location step found task member
  rw [(untouched found).tasks] at member
  cases member

/-- A report on a task that no step tracks is lost. -/
theorem TracksAmong.route (among : plan.TracksAmong tasks) {report : TaskReport}
    (unknown : report.taskId ∉ tasks.map (·.taskId)) : plan.route report = plan := by
  rw [route_eq_mapSteps]
  apply mapSteps_eq_self
  intro location step found
  apply Step.update_of_untracked
  intro task member same
  rw [← same] at unknown
  exact unknown (List.mem_map_of_mem (among found task member))

theorem TracksAmong.modifyAt (among : plan.TracksAmong tasks) {location : Location}
    {f : Step → Step} {new : List TaskDescriptor}
    (brings : ∀ step, plan.stepAt? location = some step →
      (f step).TracksAmong (tasks ++ new)) :
    (plan.modifyAt location f).TracksAmong (tasks ++ new) := by
  intro other step found
  by_cases here : other = location
  · subst here
    rw [stepAt?_modifyAt_self] at found
    obtain ⟨old, atBefore, rfl⟩ := Option.map_eq_some_iff.mp found
    exact brings old atBefore
  · rw [stepAt?_modifyAt_of_ne _ _ here] at found
    exact (among found).mono (List.subset_append_left tasks _)

namespace Pass

variable {σ : Type}

def launchedAt (evaluate : Evaluator σ) (pass : Pass σ) (location : Location) : List TaskId :=
  ((pass.plan.stepAt? location).bind Step.start).elim [] fun requirement =>
    match (evaluate requirement pass.evaluator).1 with
    | .error _ => []
    | .ok recommendations => Step.launchedIds recommendations

def launchedAlong (evaluate : Evaluator σ) : Pass σ → List Location → List TaskId
  | _, [] => []
  | pass, location :: rest =>
      pass.launchedAt evaluate location ++
        launchedAlong evaluate (pass.visit evaluate location) rest

theorem tracksAmong_visit {pass : Pass σ} (among : pass.plan.TracksAmong tasks)
    (evaluate : Evaluator σ) (location : Location) :
    ∃ new : List TaskDescriptor, new.map (·.taskId) = pass.launchedAt evaluate location ∧
      (pass.visit evaluate location).plan.TracksAmong (tasks ++ new) := by
  rw [plan_visit]
  -- without an answer that launches, the visited step stays as it is
  have stays : (∀ step, pass.plan.stepAt? location = some step →
      step.consider evaluate pass.evaluator = step) →
      (pass.plan.modifyAt location
        (·.consider evaluate pass.evaluator)).TracksAmong (tasks ++ []) := by
    intro still
    refine among.modifyAt fun step found => ?_
    rw [still step found, List.append_nil]
    exact among found
  cases started : (pass.plan.stepAt? location).bind Step.start with
  | none =>
      refine ⟨[], by rw [launchedAt, started]; rfl, stays fun step found => ?_⟩
      rw [found, Option.bind_some] at started
      simp only [Step.consider, started]
  | some requirement =>
      cases answer : (evaluate requirement pass.evaluator).1 with
      | error cause =>
          refine ⟨[], by simp only [launchedAt, started, Option.elim_some, answer, List.map_nil],
            stays fun step found => ?_⟩
          rw [found, Option.bind_some] at started
          simp only [Step.consider, started, answer]
      | ok recommendations =>
          refine ⟨TrackedTask.launchesOf recommendations,
            by simp only [launchedAt, started, Option.elim_some, answer, Step.launchedIds],
            among.modifyAt fun step found => ?_⟩
          rw [found, Option.bind_some] at started
          rw [Step.consider_of_ok started answer]
          exact (among found).updateOffer recommendations

theorem tracksAmong_foldl_visit (evaluate : Evaluator σ) (locations : List Location)
    {pass : Pass σ} {tasks : List TaskDescriptor} (among : pass.plan.TracksAmong tasks) :
    ∃ new : List TaskDescriptor, new.map (·.taskId) = pass.launchedAlong evaluate locations ∧
      (locations.foldl (Pass.visit evaluate) pass).plan.TracksAmong (tasks ++ new) := by
  induction locations generalizing pass tasks with
  | nil => exact ⟨[], rfl, among.mono (List.subset_append_left tasks _)⟩
  | cons location rest ih =>
      obtain ⟨first, ids, visited⟩ := tracksAmong_visit among evaluate location
      obtain ⟨others, laterIds, finished⟩ := ih visited
      refine ⟨first ++ others, ?_, ?_⟩
      · rw [launchedAlong, List.map_append, ids, laterIds]
      · rw [← List.append_assoc]
        exact finished

end Pass

end Plan

namespace Session

variable {σ : Type}

def launchedBy (session : Session σ) : Operation σ → List TaskId
  | .pass evaluate dirty =>
      Plan.Pass.launchedAlong evaluate ⟨session.plan, session.evaluator, .empty⟩
        (session.plan.candidateSteps dirty)
  | .onStep _ action => action.launched
  | _ => []

def launched (session : Session σ) : List (Operation σ) → List TaskId
  | [] => []
  | operation :: rest =>
      session.launchedBy operation ++ (session.perform operation).launched rest

theorem launched_concat (session : Session σ) (operations : List (Operation σ))
    (last : Operation σ) :
    session.launched (operations ++ [last]) =
      session.launched operations ++ (session.run operations).launchedBy last := by
  induction operations generalizing session with
  | nil => exact List.append_nil _
  | cons operation rest ih =>
      rw [List.cons_append, launched, ih, launched, List.append_assoc]
      rfl

theorem launchedBy_of_brokered (session : Session σ) {operation : Operation σ}
    (brokered : operation.Brokered)
    (noPass : ∀ evaluate dirty, operation ≠ .pass evaluate dirty) :
    session.launchedBy operation = [] := by
  cases operation with
  | pass evaluate dirty => exact False.elim (noPass evaluate dirty rfl)
  | onStep location action =>
      cases action with
      | offer recommendations => exact False.elim (brokered location recommendations rfl)
      | _ => rfl
  | _ => rfl

theorem tracksAmong_perform {session : Session σ} {tasks : List TaskDescriptor}
    (among : session.plan.TracksAmong tasks) (operation : Operation σ) :
    ∃ new : List TaskDescriptor, new.map (·.taskId) = session.launchedBy operation ∧
      (session.perform operation).plan.TracksAmong (tasks ++ new) := by
  by_cases pass : ∃ evaluate dirty, operation = .pass evaluate dirty
  · obtain ⟨evaluate, dirty, rfl⟩ := pass
    exact Plan.Pass.tracksAmong_foldl_visit evaluate _ among
  · by_cases offer : ∃ location recommendations,
        operation = .onStep location (.offer recommendations)
    · obtain ⟨location, recommendations, rfl⟩ := offer
      exact ⟨TrackedTask.launchesOf recommendations, rfl,
        among.modifyAt fun step found => (among found).updateOffer recommendations⟩
    · have noPass : ∀ evaluate dirty, operation ≠ .pass evaluate dirty :=
        fun evaluate dirty same => pass ⟨evaluate, dirty, same⟩
      have brokered : operation.Brokered :=
        fun location recommendations same => offer ⟨location, recommendations, same⟩
      refine ⟨[], (session.launchedBy_of_brokered brokered noPass).symm, ?_⟩
      rw [List.append_nil]
      apply forall_steps_perform _ _ among
      · intro evaluate dirty same
        exact False.elim (noPass evaluate dirty same)
      · intro location action acts step held
        exact held.act (brokered.noOffer acts)

theorem tracksAmong_run {session : Session σ} {tasks : List TaskDescriptor}
    (among : session.plan.TracksAmong tasks) (operations : List (Operation σ)) :
    ∃ new : List TaskDescriptor, new.map (·.taskId) = session.launched operations ∧
      (session.run operations).plan.TracksAmong (tasks ++ new) := by
  induction operations generalizing session tasks with
  | nil => exact ⟨[], rfl, among.mono (List.subset_append_left tasks _)⟩
  | cons operation rest ih =>
      obtain ⟨first, ids, performed⟩ := tracksAmong_perform among operation
      obtain ⟨others, laterIds, finished⟩ := ih performed
      refine ⟨first ++ others, ?_, ?_⟩
      · rw [launched, List.map_append, ids, laterIds]
      · rw [← List.append_assoc]
        exact finished

end Session

end Rollout
