import Rollout.Proofs.PassOutcomes
import Rollout.Proofs.Rehearsal.Launching
import Rollout.Proofs.Step.Coherence

/-! Selection does not get stuck.  A valid step is never in error, whatever is done to it, so
while none is starting each is complete or waits to be offered.  Then the first open phase has the
status of a waiting step, and its first open step is picked; and what is picked is launched as
soon as there are slots for it. -/

namespace Rollout

/-- Without errors a step stays regular, whoever sends its offers and reports. -/
theorem Session.regular_run {σ : Type} {session : Session σ}
    (untouched : session.plan.declared = session.plan)
    (valid : ∀ step ∈ session.plan.steps, step.errors = []) (operations : List (Operation σ))
    ⦃location : Location⦄ ⦃step : Step⦄
    (found : (session.run operations).plan.stepAt? location = some step) : step.Regular := by
  refine forall_steps_run (fun _ => True) ?_ ?_ ?_ (fun _ _ => trivial) found
  · rintro evaluate dirty _ old new regular ⟨_, _, recommendations, _, _, rfl⟩
    exact regular.act (.offer recommendations)
  · intro operation place action _ _ old regular
    exact regular.act action
  · intro place old atStart
    exact Step.regular_of_untracked (valid old (Plan.mem_steps_iff.mpr ⟨place, atStart⟩))
      (Plan.untouched_of_declared untouched atStart)

theorem Step.Regular.waiting {step : Step} (regular : step.Regular)
    (idle : step.status ≠ .starting) (unfinished : step.status ≠ .complete) :
    step.status = .pending ∨ step.status = .prepared := by
  have sound := regular.status_ne_error
  cases status : step.status with
  | error => exact False.elim (sound status)
  | pending => exact Or.inl rfl
  | prepared => exact Or.inr rfl
  | starting => exact False.elim (idle status)
  | complete => exact False.elim (unfinished status)

namespace Plan

theorem candidateSteps_ne_nil_of_waiting {plan : Plan Step} (runs : plan.Uninterrupted)
    (sound : ∀ phase ∈ plan.phases, phase.errors = [])
    (waiting : ∀ step ∈ plan.steps, ¬ Element.isComplete step = true →
      Element.isPending step = true ∧ step.errors = [])
    (incomplete : plan.isComplete = false) : plan.candidateSteps [] ≠ [] := by
  have unfinished : Status.ofParts (plan.phases.map Element.status) ≠ .complete := by
    intro complete
    have status : plan.status = .complete := complete
    rw [isComplete, status] at incomplete
    cases incomplete
  obtain ⟨phase, member, same⟩ := List.mem_map.mp (Status.ofParts_mem unfinished)
  obtain ⟨place, found⟩ := List.mem_iff_getElem?.mp member
  have still : ¬ Element.isComplete phase = true := by
    intro complete
    exact unfinished (same.symm.trans (Status.isComplete_iff.mp complete))
  obtain ⟨first, early, _, atFirst, unready, before⟩ :=
    Element.exists_first_incomplete found still
  have inPlan := List.mem_of_getElem? atFirst
  obtain ⟨eligible, index, picked⟩ := Phase.exists_candidate (runs.each atFirst)
    (sound early inPlan)
    (fun step inPhase => waiting step (List.mem_flatMap.mpr ⟨early, inPlan, inPhase⟩)) unready
  have chosen : first ∈ plan.candidates [] := by
    apply mem_candidates_iff.mpr
    refine ⟨runs.whole, early, atFirst, eligible, ?_⟩
    intro _ earlier smaller other atEarlier
    exact Or.inl (before earlier smaller other atEarlier)
  exact candidateSteps_ne_nil chosen atFirst picked

theorem exists_launchable_of_mem_demands {file : ServiceFile} {plan reached : Plan Step}
    (built : ofService file = .ok plan) (same : reached.declared = plan) {dirty : List String}
    {requirement : Requirement}
    (member : requirement ∈ (reached.handedOut dirty).map Step.demand) :
    ∃ step : Step, step.demand = requirement ∧ step.Launchable := by
  obtain ⟨step, handed, rfl⟩ := List.mem_map.mp member
  obtain ⟨location, candidate, found⟩ := List.mem_filterMap.mp handed
  obtain ⟨other, here, launchable⟩ := launchable_of_mem_candidateSteps built same candidate
  obtain rfl : step = other := Option.some.inj (found.symm.trans here)
  exact ⟨step, rfl, launchable⟩

theorem report_runPass_of_unbounded (suffix : Nat → String) {file : ServiceFile}
    {plan reached : Plan Step} (built : ofService file = .ok plan)
    (same : reached.declared = plan) {pool : SlotPool} (free : pool.free = none)
    (dirty : List String) :
    (reached.runPass (SlotPool.evaluate suffix) pool dirty).report =
      ⟨(reached.handedOut dirty).map (·.name), (reached.handedOut dirty).map (·.name), []⟩ := by
  have answer : ∀ requirement ∈ (reached.handedOut dirty).map Step.demand,
      ∀ state : SlotPool, state.free = none →
        Evaluation.launches (SlotPool.evaluate suffix requirement state).1 = true ∧
          (SlotPool.evaluate suffix requirement state).2.free = none := by
    intro requirement member state unlimited
    obtain ⟨step, rfl, launchable⟩ := exists_launchable_of_mem_demands built same member
    obtain ⟨asked, recommendations, started, _, answered, task, launch⟩ :=
      launchable.evaluate suffix unlimited
    obtain rfl : step.demand = asked := (Step.start_eq_some_iff.mp started).2.2
    refine ⟨?_, SlotPool.evaluate_free unlimited⟩
    rw [answered]
    exact List.any_eq_true.mpr ⟨_, launch, rfl⟩
  have launches : ∀ entry ∈ (reached.verdicts (SlotPool.evaluate suffix) pool dirty).map
      fun verdict => (verdict.1.name, verdict.2), Evaluation.launches entry.2 = true := by
    intro entry member
    obtain ⟨verdict, decided, rfl⟩ := List.mem_map.mp member
    exact Evaluator.forall_answers (·.free = none) (Evaluation.launches · = true) answer free
      _ (List.of_mem_zip decided).2
  rw [report_runPass, PassReport.ofOutcomes_of_launches launches, List.map_map,
    ← reached.map_name_verdicts (SlotPool.evaluate suffix) pool dirty]
  rfl

structure Progresses (plan : Plan Step) : Prop where
  candidates : plan.candidateSteps [] ≠ []
  launches : ∀ (suffix : Nat → String) (pool : SlotPool), pool.free = none →
    (plan.runPass (SlotPool.evaluate suffix) pool []).report.launched ≠ []
  /-- Every candidate is launched, and no evaluation fails. -/
  report : ∀ (suffix : Nat → String) (pool : SlotPool), pool.free = none →
    (plan.runPass (SlotPool.evaluate suffix) pool []).report =
      ⟨(plan.handedOut []).map (·.name), (plan.handedOut []).map (·.name), []⟩
  underway : ∀ (suffix : Nat → String) (pool : SlotPool), pool.free = none →
    ∀ location ∈ plan.candidateSteps [], ∃ step,
      (plan.runPass (SlotPool.evaluate suffix) pool []).plan.stepAt? location = some step ∧
        step.tasks ≠ [] ∧ step.status = .starting

theorem progresses_of_candidates {file : ServiceFile} {plan reached : Plan Step}
    (built : ofService file = .ok plan) (same : reached.declared = plan)
    (candidates : reached.candidateSteps [] ≠ []) : reached.Progresses where
  candidates := candidates
  launches := by
    intro suffix pool free
    rw [report_runPass_of_unbounded suffix built same free []]
    intro none
    obtain ⟨location, rest, first⟩ := List.exists_cons_of_ne_nil candidates
    obtain ⟨step, found, _⟩ := open_of_mem_candidateSteps
      (first ▸ List.mem_cons_self : location ∈ reached.candidateSteps [])
    have handed : step ∈ reached.handedOut [] :=
      List.mem_filterMap.mpr ⟨location, first ▸ List.mem_cons_self, found⟩
    rw [List.map_eq_nil_iff.mp none] at handed
    cases handed
  report := fun suffix _ free => report_runPass_of_unbounded suffix built same free []
  underway := by
    intro suffix pool free location member
    obtain ⟨step, found, _⟩ := open_of_mem_candidateSteps member
    obtain ⟨new, atAfter, related⟩ :=
      (runPass_launches suffix built same free []).1.steps found
    rw [if_pos member] at related
    obtain ⟨_, _, launched⟩ := related
    refine ⟨new, atAfter, launched.occupied, ?_⟩
    have least : new.status ∈ new.tasks.map (·.status) := by
      rw [launched.derived]
      exact Status.aggregate_mem (by simpa using launched.occupied)
    obtain ⟨task, inTasks, status⟩ := List.mem_map.mp least
    rw [← status]
    exact launched.starting task inTasks

/-- In every state of every history of a valid file, a plan that is not complete, not
interrupted and not waiting for a step under way has a step to launch. -/
theorem progresses_of_history {σ : Type} {file : ServiceFile} {plan : Plan Step}
    (built : ofService file = .ok plan) (valid : ∀ pod ∈ file.pods, pod.faults = [])
    (evaluator : σ) (operations : List (Operation σ))
    (runs : (Session.run ⟨plan, evaluator⟩ operations).plan.Uninterrupted)
    (incomplete : (Session.run ⟨plan, evaluator⟩ operations).plan.isComplete = false)
    (idle : ∀ step ∈ (Session.run ⟨plan, evaluator⟩ operations).plan.steps,
      step.status ≠ .starting) :
    (Session.run ⟨plan, evaluator⟩ operations).plan.Progresses := by
  have untouched := declared_built built
  have declared := (Session.declared_run ⟨plan, evaluator⟩ operations).trans untouched
  have errors : ∀ step ∈ plan.steps, step.errors = [] := by
    intro step member
    obtain ⟨location, found⟩ := mem_steps_iff.mp member
    obtain ⟨pod, inFile, deploys⟩ := deploys_of_declared built untouched found
    exact deploys.errors.trans (valid pod (List.mem_of_getElem? inFile))
  apply progresses_of_candidates built declared
  refine candidateSteps_ne_nil_of_waiting runs ?_ ?_ incomplete
  · intro phase member
    obtain ⟨place, found⟩ := List.mem_iff_getElem?.mp member
    obtain ⟨pod, _, same⟩ := pod_of_phase built declared found
    exact congrArg Phase.errors same
  · intro step member unfinished
    obtain ⟨location, found⟩ := mem_steps_iff.mp member
    have regular : step.Regular := Session.regular_run untouched errors operations found
    have waits := regular.waiting (idle step member) fun complete =>
      unfinished (Status.isComplete_iff.mpr complete)
    exact ⟨Status.isPending_iff.mpr waits, regular.coherent.valid⟩

/-- One step complete, one failed, and one without a slot. -/
theorem progresses_of_mixture :
    let pods : List PodSection := [
      ⟨"index", 3, some .parallel, none, [⟨"server", none, none⟩]⟩,
      ⟨"web", 1, none, none, [⟨"server", none, none⟩]⟩]
    let file : ServiceFile := ⟨⟨"search", none⟩, none, none, pods⟩
    let plan := Plan.new deployName (file.pods.map PodSection.phase) file.planStrategy
    let reached := (Session.run ⟨plan, SlotPool.withSlots 2⟩
      [.pass (SlotPool.evaluate Nat.repr) [], .route (.new "index-0-server__1" .running),
        .route (.new "index-1-server__2" .failed)]).plan
    reached.steps.map (·.status) = [.complete, .pending, .prepared, .pending] ∧
      reached.Uninterrupted ∧ reached.isComplete = false ∧ reached.Progresses := by
  intro pods file plan reached
  have built : ofService file = .ok plan := rfl
  have statuses : reached.steps.map (·.status) =
      [.complete, .pending, .prepared, .pending] := by decide +kernel
  have proceeds : ∀ phase ∈ reached.phases, phase.strategy.interrupted = false := by
    decide +kernel
  have runs : reached.Uninterrupted :=
    ⟨by decide +kernel, fun found => proceeds _ (List.mem_of_getElem? found)⟩
  have incomplete : reached.isComplete = false := by decide +kernel
  have idle : ∀ step ∈ reached.steps, step.status ≠ .starting := by decide +kernel
  exact ⟨statuses, runs, incomplete,
    progresses_of_history built (by decide +kernel) _ _ runs incomplete idle⟩

end Plan

end Rollout
