import Mathlib.Logic.Function.Iterate
import Rollout.Proofs.Rehearsal.Rounds

/-! Rehearsals come to rest.  A round without candidates is the last one, and what has no
candidates is deployed as far as the service file lets it be: an invalid pod keeps its own steps
in error, and under a serial plan also everything behind it. -/

namespace Rollout

/-- A pod that a serial plan cannot get past: it is invalid and has instances. -/
def PodSection.Blocks (pod : PodSection) : Prop :=
  pod.faults ≠ [] ∧ 1 ≤ pod.count.toNat

/-- A plan of a service file that is deployed as far as it can be. -/
structure ServiceFile.Deployed (file : ServiceFile) (plan : Plan Step) : Prop where
  /-- Each pod has its phase, with a step for each instance. -/
  instances : ∀ (place : Nat) (pod : PodSection), file.pods[place]? = some pod →
    ∃ phase : Phase Step, plan.phases[place]? = some phase ∧ phase.name = pod.podType ∧
      phase.steps.length = pod.count.toNat
  /-- The steps of invalid pods are in error. -/
  invalid : ∀ (place : Nat) (pod : PodSection) (phase : Phase Step),
    file.pods[place]? = some pod → plan.phases[place]? = some phase → pod.faults ≠ [] →
    ∀ step ∈ phase.steps, step.status = .error
  /-- Under a parallel plan the steps of valid pods are complete. -/
  parallel : file.planStrategy = .parallel →
    ∀ (place : Nat) (pod : PodSection) (phase : Phase Step), file.pods[place]? = some pod →
    plan.phases[place]? = some phase → pod.faults = [] → ∀ step ∈ phase.steps, step.status = .complete
  /-- Under a serial plan the steps of the pods before the first that blocks are complete. -/
  before : file.planStrategy = .serial →
    ∀ (place : Nat) (phase : Phase Step), plan.phases[place]? = some phase →
    (∀ (earlier : Nat) (pod : PodSection), earlier ≤ place →
      file.pods[earlier]? = some pod → ¬ pod.Blocks) → ∀ step ∈ phase.steps, step.status = .complete
  /-- And the steps of valid pods after it wait with nothing launched. -/
  after : file.planStrategy = .serial →
    ∀ (earlier place : Nat) (blocking pod : PodSection) (phase : Phase Step), earlier < place →
    file.pods[earlier]? = some blocking → blocking.Blocks → file.pods[place]? = some pod →
    plan.phases[place]? = some phase → pod.faults = [] →
    ∀ step ∈ phase.steps, step.status = .pending ∧ step.tasks = []
  /-- Without invalid pods all is complete. -/
  complete : (∀ pod ∈ file.pods, pod.faults = []) → plan.status = .complete

namespace Rehearsal.Settled

variable {suffix : Nat → String} {rehearsal : Rehearsal} {built : Plan Step}
  {file : ServiceFile} {place : Nat} {phase : Phase Step} {pod : PodSection}

theorem eligible_of_valid (settled : Settled suffix built rehearsal)
    (accepted : Plan.ofService file = .ok built) (inFile : file.pods[place]? = some pod)
    (found : rehearsal.plan.phases[place]? = some phase) (valid : pod.faults = [])
    (incomplete : ¬ Element.isComplete phase = true) :
    Element.isEligible [] phase = true ∧ ∃ index, index ∈ phase.candidates [] := by
  obtain ⟨other, listed, declared⟩ := Plan.pod_of_phase accepted settled.declared found
  have errors : phase.errors = [] := congrArg Phase.errors declared
  refine Phase.exists_candidate (settled.runs.each found) errors ?_ incomplete
  intro step member unfinished
  obtain ⟨index, atPlace⟩ := Plan.exists_stepAt?_of_mem found member
  have faultless : step.errors = [] :=
    (Plan.errors_of_pod accepted settled.declared inFile found member).trans valid
  have pending : step.status = .pending := settled.waiting atPlace faultless fun complete =>
    unfinished (Status.isComplete_iff.mpr complete)
  exact ⟨Status.isPending_iff.mpr (Or.inl pending), faultless⟩

/-- When no step is a candidate, an incomplete phase that comes up is that of an invalid
pod. -/
theorem invalid_of_idle (settled : Settled suffix built rehearsal)
    (accepted : Plan.ofService file = .ok built)
    (idle : rehearsal.plan.candidateSteps [] = []) (inFile : file.pods[place]? = some pod)
    (found : rehearsal.plan.phases[place]? = some phase)
    (incomplete : ¬ Element.isComplete phase = true)
    (reached : rehearsal.plan.strategy.kind = .serial → ∀ earlier < place, ∀ other,
      rehearsal.plan.phases[earlier]? = some other → Element.isComplete other = true) :
    pod.faults ≠ [] := by
  intro valid
  obtain ⟨eligible, index, picked⟩ :=
    settled.eligible_of_valid accepted inFile found valid incomplete
  have chosen : place ∈ rehearsal.plan.candidates [] := by
    apply Plan.mem_candidates_iff.mpr
    refine ⟨settled.runs.whole, phase, found, eligible, ?_⟩
    intro serial earlier smaller other atEarlier
    exact Or.inl (reached serial earlier smaller other atEarlier)
  exact Plan.candidateSteps_ne_nil chosen found picked idle

theorem blocked_of_idle (settled : Settled suffix built rehearsal)
    (accepted : Plan.ofService file = .ok built)
    (idle : rehearsal.plan.candidateSteps [] = [])
    (found : rehearsal.plan.phases[place]? = some phase)
    (incomplete : ¬ Element.isComplete phase = true) :
    ∃ earlier blocking, earlier ≤ place ∧ file.pods[earlier]? = some blocking ∧
      blocking.Blocks := by
  obtain ⟨first, other, early, atFirst, still, before⟩ :=
    Element.exists_first_incomplete found incomplete
  obtain ⟨pod, inFile, declared⟩ := Plan.pod_of_phase accepted settled.declared atFirst
  have faulty := settled.invalid_of_idle accepted idle inFile atFirst still (fun _ => before)
  refine ⟨first, pod, early, inFile, faulty, ?_⟩
  rw [← PodSection.length_steps_of_declared declared]
  apply Nat.pos_of_ne_zero
  intro zero
  apply still
  rw [Phase.isComplete_iff]
  intro step member
  rw [List.eq_nil_of_length_eq_zero zero] at member
  cases member

theorem phase_complete (settled : Settled suffix built rehearsal)
    (accepted : Plan.ofService file = .ok built)
    (idle : rehearsal.plan.candidateSteps [] = [])
    (found : rehearsal.plan.phases[place]? = some phase)
    (clear : ∀ (earlier : Nat) (pod : PodSection), earlier ≤ place →
      file.pods[earlier]? = some pod → ¬ pod.Blocks) : phase.Done := by
  rw [← Phase.isComplete_iff]
  apply Decidable.byContradiction
  intro incomplete
  obtain ⟨earlier, blocking, before, inFile, blocks⟩ :=
    settled.blocked_of_idle accepted idle found incomplete
  exact clear earlier blocking before inFile blocks

theorem untouched_behind (settled : Settled suffix built rehearsal)
    (accepted : Plan.ofService file = .ok built)
    (serial : rehearsal.plan.strategy.kind = .serial) {earlier : Nat} {blocking : PodSection}
    (before : earlier < place) (inFile : file.pods[earlier]? = some blocking)
    (blocks : blocking.Blocks) (found : rehearsal.plan.phases[place]? = some phase)
    {step : Step} (member : step ∈ phase.steps) : step.Untouched := by
  obtain ⟨obstacle, atEarlier, declared⟩ := Plan.phase_of_pod accepted settled.declared inFile
  have inside : 0 < obstacle.steps.length := by
    rw [PodSection.length_steps_of_declared declared]
    exact blocks.2
  have faulty : obstacle.steps[0].errors ≠ [] := by
    rw [Plan.errors_of_pod accepted settled.declared inFile atEarlier (List.getElem_mem inside)]
    exact blocks.1
  have atObstacle : rehearsal.plan.stepAt? ⟨earlier, 0⟩ = some obstacle.steps[0] := by
    rw [Plan.stepAt?_of_phase atEarlier]
    exact List.getElem?_eq_getElem inside
  obtain ⟨index, atStep⟩ := Plan.exists_stepAt?_of_mem found member
  apply Classical.byContradiction
  intro begun
  have complete := settled.begun ⟨serial, before⟩ atObstacle atStep begun
  have error := (settled.invalid atObstacle faulty).status_of_errors faulty
  rw [error] at complete
  cases complete

theorem deployed_of_idle (settled : Settled suffix built rehearsal)
    (accepted : Plan.ofService file = .ok built)
    (idle : rehearsal.plan.candidateSteps [] = []) : file.Deployed rehearsal.plan := by
  have kind : rehearsal.plan.strategy.kind = file.planStrategy := by
    have strategies := congrArg (fun plan => plan.strategy.kind) settled.declared
    rw [Plan.ofService_eq_ok accepted] at strategies
    exact strategies
  have parallel : file.planStrategy = .parallel → ∀ (place : Nat) (pod : PodSection)
      (phase : Phase Step), file.pods[place]? = some pod →
      rehearsal.plan.phases[place]? = some phase → pod.faults = [] → phase.Done := by
    intro parallel place pod phase inFile found valid
    rw [← Phase.isComplete_iff]
    apply Decidable.byContradiction
    intro incomplete
    refine settled.invalid_of_idle accepted idle inFile found incomplete ?_ valid
    intro serial
    rw [kind, parallel] at serial
    cases serial
  refine ⟨?_, ?_, parallel, ?_, ?_, ?_⟩
  · intro place pod inFile
    obtain ⟨phase, found, declared⟩ := Plan.phase_of_pod accepted settled.declared inFile
    exact ⟨phase, found, congrArg Phase.name declared,
      PodSection.length_steps_of_declared declared⟩
  · intro place pod phase inFile found invalid step member
    have faulty : step.errors ≠ [] := by
      rw [Plan.errors_of_pod accepted settled.declared inFile found member]
      exact invalid
    obtain ⟨index, atPlace⟩ := Plan.exists_stepAt?_of_mem found member
    exact (settled.invalid atPlace faulty).status_of_errors faulty
  · intro _ place phase found clear
    exact settled.phase_complete accepted idle found clear
  · intro serial earlier place blocking pod phase before inFile blocks atPlace found valid
      step member
    have untouched := settled.untouched_behind accepted (kind.trans serial) before inFile
      blocks found member
    refine ⟨?_, untouched.tasks⟩
    have errors := Plan.errors_of_pod accepted settled.declared atPlace found member
    rw [untouched.status, Step.restingStatus, errors, valid]
    rfl
  · intro valid
    apply Status.ofParts_eq_complete_iff.mpr
    intro status member
    obtain ⟨phase, inPlan, same⟩ := List.mem_map.mp member
    obtain ⟨place, found⟩ := List.mem_iff_getElem?.mp inPlan
    have done := settled.phase_complete accepted idle found (by
      intro earlier pod _ inFile blocks
      exact blocks.1 (valid pod (List.mem_of_getElem? inFile)))
    rw [← same]
    exact Status.isComplete_iff.mp (Phase.isComplete_iff.mpr done)

end Rehearsal.Settled

namespace Rehearsal

variable {suffix : Nat → String} {built : Plan Step} {file : ServiceFile}

theorem settled_iterate (fresh : TaskId.Fresh suffix) (accepted : Plan.ofService file = .ok built)
    (arrangement : Arrangement) {rehearsal : Rehearsal}
    (settled : Settled suffix built rehearsal) (rounds : Nat) :
    Settled suffix built ((Rehearsal.round suffix arrangement)^[rounds] rehearsal) := by
  induction rounds generalizing rehearsal with
  | zero => exact settled
  | succ rounds ih => exact ih (settled.round fresh accepted)

/-- As many rounds as there are things that can still happen are enough. -/
theorem idle_iterate (fresh : TaskId.Fresh suffix) (accepted : Plan.ofService file = .ok built)
    (arrangement : Arrangement) {rehearsal : Rehearsal}
    (settled : Settled suffix built rehearsal) {rounds : Nat}
    (enough : rehearsal.remaining ≤ rounds) :
    ((Rehearsal.round suffix arrangement)^[rounds] rehearsal).plan.candidateSteps [] = [] := by
  -- a round either changes nothing, now and later, or leaves less that can happen
  induction rounds generalizing rehearsal with
  | zero =>
      apply Classical.byContradiction
      intro busy
      have fewer := settled.remaining_round fresh accepted arrangement busy
      omega
  | succ rounds ih =>
      by_cases idle : rehearsal.plan.candidateSteps [] = []
      · rw [Function.iterate_fixed (settled.round_of_idle idle)]
        exact idle
      · have fewer := settled.remaining_round fresh accepted arrangement idle
        rw [Function.iterate_succ_apply]
        exact ih (settled.round fresh accepted) (by omega)

/-- After one round for every step and one for every name in the list of failures, no
round changes the plan any more, and it is deployed as far as it can be. -/
theorem rounds_converge {suffix : Nat → String} (fresh : TaskId.Fresh suffix)
    (arrangement : Arrangement) {file : ServiceFile} {plan : Plan Step}
    (accepted : Plan.ofService file = .ok plan) (failing : List String) {rounds : Nat}
    (enough : plan.steps.length + failing.toFinset.card ≤ rounds) :
    (∀ more, rounds ≤ more →
      ((Rehearsal.round suffix arrangement)^[more] (Rehearsal.start plan failing)).plan =
        ((Rehearsal.round suffix arrangement)^[rounds] (Rehearsal.start plan failing)).plan) ∧
      file.Deployed
        ((Rehearsal.round suffix arrangement)^[rounds] (Rehearsal.start plan failing)).plan := by
  have settled := Settled.start suffix accepted failing
  have bounded : (Rehearsal.start plan failing).remaining ≤ rounds := by
    have steps := plan.card_unfinished_le
    change plan.unfinished.card + failing.toFinset.card ≤ rounds
    omega
  have idle := idle_iterate fresh accepted arrangement settled bounded
  have last := settled_iterate fresh accepted arrangement settled rounds
  refine ⟨?_, last.deployed_of_idle accepted idle⟩
  intro more later
  obtain ⟨extra, sum⟩ := Nat.exists_eq_add_of_le' later
  rw [sum, Function.iterate_add_apply, Function.iterate_fixed (last.round_of_idle idle)]

/-- Two instances in turn, of which the first fails once. -/
theorem rounds_converge_scaffold :
    let file := ServiceFile.scaffold "search" "index" 2
    let plan := Plan.new Plan.deployName (file.pods.map PodSection.phase) file.planStrategy
    let start := Rehearsal.start plan ["index-0-server"]
    (∀ more, 3 ≤ more → ((Rehearsal.round Nat.repr .byId)^[more] start).plan =
        ((Rehearsal.round Nat.repr .byId)^[3] start).plan) ∧
      file.Deployed ((Rehearsal.round Nat.repr .byId)^[3] start).plan := by
  intro file plan start
  have accepted : Plan.ofService file = .ok plan := rfl
  have enough : plan.steps.length + ["index-0-server"].toFinset.card ≤ 3 := by decide +kernel
  exact rounds_converge TaskId.fresh_repr .byId accepted ["index-0-server"] enough

end Rehearsal

end Rollout
