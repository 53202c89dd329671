import Rollout.Proofs.PassOutcomes
import Rollout.Proofs.PlanStatus
import Rollout.Proofs.Step.Coherence

/-! Pods with faults.  Their steps are never handed out, so no offer reaches them; nothing else
launches a task, and a restart or a completion by force rests in the error status. Valid steps
never come into that status, so that the plan shows it for faults only. -/

namespace Rollout

namespace Step

/-- A valid step is regular, and one with errors is untouched. -/
structure Lawful (step : Step) : Prop where
  valid : step.errors = [] → step.Regular
  invalid : step.errors ≠ [] → step.Untouched

namespace Lawful

variable {step : Step}

theorem of_untouched (untouched : step.Untouched) : step.Lawful :=
  ⟨fun valid => regular_of_untracked valid untouched, fun _ => untouched⟩

theorem act (lawful : step.Lawful) {action : Action}
    (noOffer : ∀ recommendations, action ≠ .offer recommendations) :
    (step.act action).Lawful where
  valid := by
    rw [step.act_errors action]
    exact fun valid => (lawful.valid valid).act action
  invalid := by
    rw [step.act_errors action]
    exact fun faulty => (lawful.invalid faulty).act faulty noOffer

theorem offered {σ : Type} {evaluate : Evaluator σ} (lawful : step.Lawful) {new : Step}
    (outcome : Offered evaluate step new) : new.Lawful := by
  obtain ⟨_, _, recommendations, started, _, same⟩ := outcome
  have valid := (start_eq_some_iff.mp started).1
  have regular := (lawful.valid valid).act (.offer recommendations)
  rw [same]
  exact ⟨fun _ => regular, fun faulty => False.elim (faulty valid)⟩

theorem status_eq_error_iff (lawful : step.Lawful) : step.status = .error ↔ step.errors ≠ [] := by
  constructor
  · intro failed valid
    exact (lawful.valid valid).status_ne_error failed
  · exact fun faulty => (lawful.invalid faulty).status_of_errors faulty

end Lawful

theorem start_of_errors {step : Step} (faulty : step.errors ≠ []) : step.start = none := by
  cases started : step.start with
  | none => rfl
  | some requirement => exact False.elim (faulty (start_eq_some_iff.mp started).1)

end Step

theorem Session.lawful_run {σ : Type} (session : Session σ)
    (start : ∀ ⦃location step⦄, session.plan.stepAt? location = some step → step.Lawful)
    {operations : List (Operation σ)} (brokered : ∀ operation ∈ operations, operation.Brokered)
    ⦃location : Location⦄ ⦃step : Step⦄
    (found : (session.run operations).plan.stepAt? location = some step) : step.Lawful := by
  refine forall_steps_run Operation.Brokered ?_ ?_ start brokered found
  · intro evaluate dirty _ old new lawful outcome
    exact lawful.offered outcome
  · intro operation place action permitted acts old lawful
    exact lawful.act (permitted.noOffer acts)

namespace Plan

theorem status_eq_error_iff {plan : Plan Step} :
    plan.status = .error ↔ ∃ location step, plan.stepAt? location = some step ∧
      step.status = .error := by
  rw [status_eq_ofParts, Status.ofParts_eq_error_iff, List.mem_map]
  constructor
  · rintro ⟨step, member, failed⟩
    obtain ⟨location, found⟩ := mem_steps_iff.mp member
    exact ⟨location, step, found, failed⟩
  · rintro ⟨location, step, found, failed⟩
    exact ⟨step, mem_steps_iff.mpr ⟨location, found⟩, failed⟩

structure ShowsFaults (plan : Plan Step) (file : ServiceFile) : Prop where
  inert : ∀ (place : Nat) pod, file.pods[place]? = some pod → pod.faults ≠ [] →
    ∀ index step, plan.stepAt? ⟨place, index⟩ = some step →
      step.status = .error ∧ step.tasks = [] ∧ step.prepared = false ∧ step.start = none
  valid : ∀ (place : Nat) pod, file.pods[place]? = some pod → pod.faults = [] →
    ∀ index step, plan.stepAt? ⟨place, index⟩ = some step → step.status ≠ .error
  /-- Whatever a pass is told, it reports steps of valid pods only. -/
  unreported : ∀ {σ : Type} (evaluate : Evaluator σ) (evaluator : σ) (dirty : List String),
    (plan.runPass evaluate evaluator dirty).report.Names
        ((plan.handedOut dirty).map (·.name)) ∧
      ∀ location ∈ plan.candidateSteps dirty, ∀ pod,
        file.pods[location.phase]? = some pod → pod.faults = []
  visible : plan.status = .error ↔ ∃ pod ∈ file.pods, pod.faults ≠ [] ∧ 0 < pod.count
  incomplete : (∃ pod ∈ file.pods, pod.faults ≠ [] ∧ 0 < pod.count) → plan.isComplete = false

section

variable {file : ServiceFile} {built reached : Plan Step}

/-- A pod without instances has no step that could show its faults. -/
theorem exists_faulty_step_iff (builds : ofService file = .ok built)
    (same : reached.declared = built) :
    (∃ location step, reached.stepAt? location = some step ∧ step.errors ≠ []) ↔
      ∃ pod ∈ file.pods, pod.faults ≠ [] ∧ 0 < pod.count := by
  constructor
  · rintro ⟨⟨place, index⟩, step, found, faulty⟩
    obtain ⟨phase, inPlan, inPhase⟩ := stepAt?_eq_some_iff.mp found
    obtain ⟨pod, inFile, declared⟩ := pod_of_phase builds same inPlan
    rw [errors_of_declared builds same inFile found] at faulty
    refine ⟨pod, List.mem_of_getElem? inFile, faulty, ?_⟩
    have inside := (List.getElem?_eq_some_iff.mp inPhase).1
    rw [PodSection.length_steps_of_declared declared] at inside
    exact UInt32.lt_iff_toNat_lt.mpr (Nat.zero_lt_of_lt inside)
  · rintro ⟨pod, member, faulty, instances⟩
    obtain ⟨place, inFile⟩ := List.mem_iff_getElem?.mp member
    obtain ⟨phase, inPlan, declared⟩ := phase_of_pod builds same inFile
    have occupied : 0 < phase.steps.length := by
      rw [PodSection.length_steps_of_declared declared]
      exact UInt32.lt_iff_toNat_lt.mp instances
    have found : reached.stepAt? ⟨place, 0⟩ = some phase.steps[0] :=
      stepAt?_eq_some_iff.mpr ⟨phase, inPlan, List.getElem?_eq_getElem occupied⟩
    refine ⟨⟨place, 0⟩, _, found, ?_⟩
    rw [errors_of_declared builds same inFile found]
    exact faulty

theorem showsFaults_of_lawful (builds : ofService file = .ok built)
    (same : reached.declared = built)
    (lawful : ∀ ⦃location step⦄, reached.stepAt? location = some step → step.Lawful) :
    reached.ShowsFaults file := by
  have visible : reached.status = .error ↔
      ∃ pod ∈ file.pods, pod.faults ≠ [] ∧ 0 < pod.count := by
    rw [status_eq_error_iff, ← exists_faulty_step_iff builds same]
    constructor
    · rintro ⟨location, step, found, failed⟩
      exact ⟨location, step, found, (lawful found).status_eq_error_iff.mp failed⟩
    · rintro ⟨location, step, found, faulty⟩
      exact ⟨location, step, found, (lawful found).status_eq_error_iff.mpr faulty⟩
  refine ⟨?_, ?_, ?_, visible, ?_⟩
  · intro place pod inFile faulty index step found
    rw [← errors_of_declared builds same inFile found] at faulty
    have untouched := (lawful found).invalid faulty
    exact ⟨untouched.status_of_errors faulty, untouched.tasks, untouched.prepared,
      Step.start_of_errors faulty⟩
  · intro place pod inFile faultless index step found failed
    rw [← errors_of_declared builds same inFile found] at faultless
    exact (lawful found).status_eq_error_iff.mp failed faultless
  · intro σ evaluate evaluator dirty
    refine ⟨reached.runPass_names evaluate evaluator dirty, ?_⟩
    intro location member pod inFile
    obtain ⟨step, found, started⟩ := startable_of_candidate member
    rw [← errors_of_declared builds same inFile found]
    exact (Step.start_eq_some_iff.mp started).1
  · intro faulty
    have failed := visible.mpr faulty
    rw [isComplete, failed]
    rfl

end

/-- In every state of every history the pods with faults do nothing, and are seen. -/
theorem showsFaults_of_history {σ : Type} {file : ServiceFile} {plan : Plan Step}
    (built : ofService file = .ok plan) (evaluator : σ) {operations : List (Operation σ)}
    (brokered : ∀ operation ∈ operations, operation.Brokered) :
    (Session.run ⟨plan, evaluator⟩ operations).plan.ShowsFaults file := by
  have declared := declared_built built
  apply showsFaults_of_lawful built
  · rw [Session.declared_run]
    exact declared
  · refine Session.lawful_run ⟨plan, evaluator⟩ ?_ brokered
    intro location step found
    exact .of_untouched (untouched_of_declared declared found)

/-- A pod that names a task twice, beside one that is launched. -/
theorem showsFaults_of_twins :
    let service : ServiceSection := ⟨"search", none⟩
    let pods : List PodSection := [
      ⟨"index", 2, none, none, [⟨"server", none, none⟩, ⟨"server", none, none⟩]⟩,
      ⟨"query", 1, none, none, [⟨"server", none, none⟩]⟩]
    let file : ServiceFile := ⟨service, some ⟨some .parallel⟩, none, pods⟩
    let plan := Plan.new deployName (file.pods.map PodSection.phase) file.planStrategy
    let operations : List (Operation SlotPool) := [.onStep ⟨0, 0⟩ .complete,
      .pass (SlotPool.evaluate Nat.repr) ["index"], .route (.new "index-0-server__1" .running),
      .route (.new "query-0-server__1" .running), .onStep ⟨0, 1⟩ .restart, .interruptPhase 0]
    let reached := (Session.run ⟨plan, SlotPool.unbounded⟩ operations).plan
    (∀ operation ∈ operations, operation.Brokered) ∧
      reached.steps.map (·.status) = [.error, .error, .complete] ∧ reached.ShowsFaults file := by
  intro service pods file plan operations reached
  have built : ofService file = .ok plan := rfl
  have brokered : ∀ operation ∈ operations, operation.Brokered := by
    intro operation inHistory location recommendations offer
    subst offer
    simp [operations] at inHistory
  exact ⟨brokered, by decide +kernel, showsFaults_of_history built _ brokered⟩

end Plan

end Rollout
