import Mathlib.Data.List.Basic
import Rollout.Proofs.Plan.Evolution
import Rollout.Proofs.PodFaults

/-! Plans as they are built from a service file: phases and steps are found at the places of their
pods and instances, and the plan is its own declaration.  So a plan with the declaration of a
built one still shows, at each location, the pod that it came from. -/

namespace Rollout

namespace PodSection

theorem getElem?_instances {pod : PodSection} {index : Nat} {podInstance : PodInstance}
    (found : pod.instances[index]? = some podInstance) :
    podInstance.podType = pod.podType ∧ podInstance.index.toNat = index ∧
      podInstance.tasks = pod.taskSpecs := by
  rw [instances, List.getElem?_map] at found
  obtain ⟨number, atIndex, same⟩ := Option.map_eq_some_iff.mp found
  obtain ⟨inside, equal⟩ := List.getElem?_eq_some_iff.mp atIndex
  rw [List.getElem_range] at equal
  rw [List.length_range] at inside
  subst same equal
  refine ⟨rfl, ?_, rfl⟩
  exact UInt32.toNat_ofNat_of_lt' (Nat.lt_trans inside pod.count.toNat_lt)

theorem declared_step (pod : PodSection) (podInstance : PodInstance) :
    (pod.step podInstance).declared = pod.step podInstance := rfl

theorem declared_phase (pod : PodSection) : pod.phase.declared = pod.phase := by
  have steps : pod.phase.steps.map Step.declared = pod.phase.steps := by
    change (pod.instances.map pod.step).map Step.declared = pod.instances.map pod.step
    rw [List.map_map]
    exact List.map_congr_left fun podInstance _ => pod.declared_step podInstance
  unfold Phase.declared
  rw [steps]
  rfl

theorem length_steps_phase (pod : PodSection) : pod.phase.steps.length = pod.count.toNat := by
  change (pod.instances.map pod.step).length = pod.count.toNat
  simp [instances]

theorem length_steps_of_declared {pod : PodSection} {phase : Phase Step}
    (declared : phase.declared = pod.phase) : phase.steps.length = pod.count.toNat := by
  rw [← pod.length_steps_phase, ← declared]
  exact (List.length_map _).symm

theorem nodup_names_of_faultless {pod : PodSection} (faultless : pod.faults = []) :
    (pod.taskSpecs.map (·.name)).Nodup := by
  rw [taskSpecs, List.map_map]
  exact (faults_eq_nil_iff.mp faultless).distinct

theorem firstRepeated?_eq_none {seen : List String} {pods : List PodSection}
    (none : firstRepeated? seen pods = Option.none) :
    (pods.map (·.podType)).Nodup ∧ seen.Disjoint (pods.map (·.podType)) := by
  induction pods generalizing seen with
  | nil => exact ⟨List.nodup_nil, List.disjoint_nil_right seen⟩
  | cons pod rest ih =>
      unfold firstRepeated? at none
      split at none
      · cases none
      · rename_i fresh
        rw [List.contains_iff_mem] at fresh
        obtain ⟨distinct, apart⟩ := ih none
        obtain ⟨unrepeated, others⟩ := List.disjoint_cons_left.mp apart
        exact ⟨List.nodup_cons.mpr ⟨unrepeated, distinct⟩,
          List.disjoint_cons_right.mpr ⟨fresh, others⟩⟩

end PodSection

/-- A step stands for an instance of a pod, whatever became of it. -/
structure Step.Deploys (step : Step) (pod : PodSection) (index : Nat) : Prop where
  listed : pod.instances[index]? = some step.requirement.podInstance
  name : step.name = step.requirement.podInstance.stepName
  launches : step.requirement.tasksToLaunch = step.requirement.podInstance.tasks.map (·.name)
  errors : step.errors = pod.faults

namespace Step.Deploys

variable {step : Step} {pod : PodSection} {index : Nat}

theorem podType_eq (deploys : step.Deploys pod index) :
    step.requirement.podInstance.podType = pod.podType :=
  (PodSection.getElem?_instances deploys.listed).1

theorem index_eq (deploys : step.Deploys pod index) :
    step.requirement.podInstance.index.toNat = index :=
  (PodSection.getElem?_instances deploys.listed).2.1

theorem tasks_eq (deploys : step.Deploys pod index) :
    step.requirement.podInstance.tasks = pod.taskSpecs :=
  (PodSection.getElem?_instances deploys.listed).2.2

end Step.Deploys

namespace Plan

theorem ofService_eq_ok {file : ServiceFile} {plan : Plan Step}
    (built : ofService file = .ok plan) :
    plan = Plan.new deployName (file.pods.map PodSection.phase) file.planStrategy := by
  unfold ofService at built
  split at built
  · cases built
  · split at built
    · cases built
    · exact (Except.ok.inj built).symm

theorem nodup_podTypes {file : ServiceFile} {plan : Plan Step}
    (built : ofService file = .ok plan) : (file.pods.map (·.podType)).Nodup := by
  unfold ofService at built
  split at built
  · cases built
  · split at built
    · cases built
    · rename_i none
      exact (PodSection.firstRepeated?_eq_none none).1

theorem declared_built {file : ServiceFile} {plan : Plan Step}
    (built : ofService file = .ok plan) : plan.declared = plan := by
  have phases : (file.pods.map PodSection.phase).map Phase.declared =
      file.pods.map PodSection.phase := by
    rw [List.map_map]
    exact List.map_congr_left fun pod _ => pod.declared_phase
  rw [ofService_eq_ok built]
  unfold declared
  simp only [Plan.new, phases]
  rfl

theorem phases_built {file : ServiceFile} {plan : Plan Step}
    (built : ofService file = .ok plan) (place : Nat) :
    plan.phases[place]? = (file.pods[place]?).map PodSection.phase := by
  rw [ofService_eq_ok built]
  exact List.getElem?_map

theorem stepAt?_built {file : ServiceFile} {plan : Plan Step}
    (built : ofService file = .ok plan) {location : Location} {step : Step}
    (found : plan.stepAt? location = some step) :
    ∃ pod podInstance, file.pods[location.phase]? = some pod ∧
      pod.instances[location.step]? = some podInstance ∧ step = pod.step podInstance := by
  obtain ⟨phase, inPlan, inPhase⟩ := stepAt?_eq_some_iff.mp found
  rw [phases_built built] at inPlan
  obtain ⟨pod, inFile, rfl⟩ := Option.map_eq_some_iff.mp inPlan
  change (pod.instances.map pod.step)[location.step]? = some step at inPhase
  rw [List.getElem?_map] at inPhase
  obtain ⟨podInstance, inPod, rfl⟩ := Option.map_eq_some_iff.mp inPhase
  exact ⟨pod, podInstance, inFile, inPod, rfl⟩

theorem untouched_of_declared {plan : Plan Step} (same : plan.declared = plan)
    {location : Location} {step : Step} (found : plan.stepAt? location = some step) :
    step.Untouched := by
  have declared := stepAt?_declared plan location
  rw [same, found, Option.map_some, Option.some.injEq] at declared
  rw [declared]
  exact step.untouched_declared

theorem deploys_of_declared {file : ServiceFile} {plan reached : Plan Step}
    (built : ofService file = .ok plan) (same : reached.declared = plan)
    {location : Location} {step : Step} (found : reached.stepAt? location = some step) :
    ∃ pod, file.pods[location.phase]? = some pod ∧ step.Deploys pod location.step := by
  have atStart : plan.stepAt? location = some step.declared := by
    rw [← same, stepAt?_declared, found]
    rfl
  obtain ⟨pod, podInstance, inFile, listed, declared⟩ := stepAt?_built built atStart
  have instances : step.requirement.podInstance = podInstance :=
    congrArg (fun step => step.requirement.podInstance) declared
  subst instances
  exact ⟨pod, inFile, listed, congrArg Step.name declared,
    congrArg (fun step => step.requirement.tasksToLaunch) declared,
    congrArg Step.errors declared⟩

theorem location_eq_of_instance {file : ServiceFile} {plan reached : Plan Step}
    (built : ofService file = .ok plan) (same : reached.declared = plan)
    {first second : Location} {a b : Step}
    (atFirst : reached.stepAt? first = some a) (atSecond : reached.stepAt? second = some b)
    (types : a.requirement.podInstance.podType = b.requirement.podInstance.podType)
    (indices : a.requirement.podInstance.index = b.requirement.podInstance.index) :
    first = second := by
  obtain ⟨pod, inFile, deploys⟩ := deploys_of_declared built same atFirst
  obtain ⟨other, inFile', deploys'⟩ := deploys_of_declared built same atSecond
  have phases : first.phase = second.phase := by
    have inside : first.phase < (file.pods.map (·.podType)).length := by
      rw [List.length_map]
      exact (List.getElem?_eq_some_iff.mp inFile).1
    apply (List.getElem?_inj inside (nodup_podTypes built)).mp
    rw [List.getElem?_map, List.getElem?_map, inFile, inFile', Option.map_some, Option.map_some,
      ← deploys.podType_eq, ← deploys'.podType_eq, types]
  have steps : first.step = second.step := by
    rw [← deploys.index_eq, ← deploys'.index_eq, indices]
  cases first
  cases second
  cases phases
  cases steps
  rfl

theorem phase_of_pod {file : ServiceFile} {plan reached : Plan Step}
    (built : ofService file = .ok plan) (same : reached.declared = plan) {place : Nat}
    {pod : PodSection} (found : file.pods[place]? = some pod) :
    ∃ phase, reached.phases[place]? = some phase ∧ phase.declared = pod.phase := by
  have phases := phases_built built place
  rw [found, ← same] at phases
  change (reached.phases.map Phase.declared)[place]? = some pod.phase at phases
  rw [List.getElem?_map] at phases
  exact Option.map_eq_some_iff.mp phases

theorem pod_of_phase {file : ServiceFile} {plan reached : Plan Step}
    (built : ofService file = .ok plan) (same : reached.declared = plan) {place : Nat}
    {phase : Phase Step} (found : reached.phases[place]? = some phase) :
    ∃ pod, file.pods[place]? = some pod ∧ phase.declared = pod.phase := by
  have phases := phases_built built place
  rw [← same] at phases
  change (reached.phases.map Phase.declared)[place]? = _ at phases
  rw [List.getElem?_map, found] at phases
  obtain ⟨pod, inFile, declared⟩ := Option.map_eq_some_iff.mp phases.symm
  exact ⟨pod, inFile, declared.symm⟩

theorem errors_of_declared {file : ServiceFile} {plan reached : Plan Step}
    (built : ofService file = .ok plan) (same : reached.declared = plan) {location : Location}
    {pod : PodSection} (inFile : file.pods[location.phase]? = some pod) {step : Step}
    (found : reached.stepAt? location = some step) : step.errors = pod.faults := by
  obtain ⟨other, listed, deploys⟩ := deploys_of_declared built same found
  rw [inFile] at listed
  cases listed
  exact deploys.errors

theorem errors_of_pod {file : ServiceFile} {plan reached : Plan Step}
    (built : ofService file = .ok plan) (same : reached.declared = plan) {place : Nat}
    {pod : PodSection} (inFile : file.pods[place]? = some pod) {phase : Phase Step}
    (found : reached.phases[place]? = some phase) {step : Step} (member : step ∈ phase.steps) :
    step.errors = pod.faults := by
  obtain ⟨index, atPlace⟩ := exists_stepAt?_of_mem found member
  exact errors_of_declared built same inFile atPlace

theorem map_name_steps_declared (plan : Plan Step) :
    plan.declared.steps.map (·.name) = plan.steps.map (·.name) := by
  have each : (fun phase : Phase Step => phase.declared.steps.map (·.name)) =
      fun phase => phase.steps.map (·.name) := by
    funext phase
    change (phase.steps.map Step.declared).map (·.name) = phase.steps.map (·.name)
    rw [List.map_map]
    rfl
  change ((plan.phases.map Phase.declared).flatMap (·.steps)).map (·.name) = _
  rw [List.flatMap_map, List.map_flatMap, each, ← List.map_flatMap]
  rfl

end Plan

end Rollout
