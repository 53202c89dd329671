import Rollout.Proofs.Plan.Built

/-! What becomes of a service file.  There is no plan when there are no pods or when a pod type
occurs again; otherwise the plan spells the file out, pod by pod and instance by instance, and
flags the steps of exactly the pods with which something is wrong. -/

namespace Rollout

namespace PodSection

theorem firstRepeated?_eq_some_iff {seen : List String} {pods : List PodSection}
    {name : String} :
    firstRepeated? seen pods = some name ↔
      ∃ before pod after, pods = before ++ pod :: after ∧ pod.podType = name ∧
        (name ∈ seen ∨ name ∈ before.map (·.podType)) ∧
        (before.map (·.podType)).Nodup ∧ seen.Disjoint (before.map (·.podType)) := by
  induction pods generalizing seen with
  | nil =>
      constructor
      · intro impossible
        cases impossible
      · rintro ⟨before, pod, after, same, _⟩
        cases before <;> cases same
  | cons first rest ih =>
      rw [firstRepeated?]
      by_cases occurred : first.podType ∈ seen
      · rw [if_pos (List.contains_iff_mem.mpr occurred)]
        constructor
        · intro same
          cases same
          exact ⟨[], first, rest, rfl, rfl, Or.inl occurred, List.nodup_nil,
            List.disjoint_nil_right seen⟩
        · rintro ⟨before, pod, after, same, rfl, _, _, apart⟩
          cases before with
          | nil =>
              cases same
              rfl
          | cons earlier others =>
              cases same
              exact absurd occurred (List.disjoint_cons_right.mp apart).1
      · rw [if_neg (fun contained => occurred (List.contains_iff_mem.mp contained)), ih]
        constructor
        · rintro ⟨before, pod, after, rfl, called, known, distinct, apart⟩
          obtain ⟨unrepeated, others⟩ := List.disjoint_cons_left.mp apart
          refine ⟨first :: before, pod, after, rfl, called, ?_,
            List.nodup_cons.mpr ⟨unrepeated, distinct⟩,
            List.disjoint_cons_right.mpr ⟨occurred, others⟩⟩
          rw [List.mem_cons] at known
          rw [List.map_cons, List.mem_cons]
          tauto
        · rintro ⟨before, pod, after, same, called, known, distinct, apart⟩
          cases before with
          | nil =>
              cases same
              subst called
              rcases known with inSeen | impossible
              · exact absurd inSeen occurred
              · cases impossible
          | cons earlier others =>
              cases same
              obtain ⟨unrepeated, rest⟩ := List.nodup_cons.mp distinct
              refine ⟨others, pod, after, rfl, called, ?_, rest,
                List.disjoint_cons_left.mpr ⟨unrepeated, (List.disjoint_cons_right.mp apart).2⟩⟩
              rw [List.map_cons, List.mem_cons] at known
              rw [List.mem_cons]
              tauto

theorem firstRepeated?_of_nodup {pods : List PodSection}
    (distinct : (pods.map (·.podType)).Nodup) : firstRepeated? [] pods = none := by
  cases found : firstRepeated? [] pods with
  | none => rfl
  | some name =>
      obtain ⟨before, pod, after, rfl, called, known, _, _⟩ := firstRepeated?_eq_some_iff.mp found
      rw [List.map_append, List.map_cons, called] at distinct
      rcases known with impossible | earlier
      · cases impossible
      · exact absurd rfl ((List.nodup_append.mp distinct).2.2 name earlier name List.mem_cons_self)

end PodSection

structure Step.BuiltFor (step : Step) (pod : PodSection) (index : Nat) : Prop where
  name : step.name = step.requirement.podInstance.stepName
  podType : step.requirement.podInstance.podType = pod.podType
  index : step.requirement.podInstance.index.toNat = index
  tasks : step.requirement.podInstance.tasks =
    pod.tasks.map fun task => ⟨task.name, task.goal.getD .running, task.readinessCheck⟩
  launches : step.requirement.tasksToLaunch = pod.tasks.map (·.name)
  environment : step.requirement.environment = pod.environment.getD .empty
  errors : step.errors = pod.faults
  status : step.status = if pod.faultCount = 0 then .pending else .error
  /-- Nothing was launched and no parameter was set. -/
  fresh : step.tasks = [] ∧ step.prepared = false ∧ step.parameters = .empty

structure Phase.Expands (phase : Phase Step) (pod : PodSection) : Prop where
  name : phase.name = pod.podType
  strategy : phase.strategy = ⟨pod.strategy.getD .serial, false⟩
  errors : phase.errors = []
  count : phase.steps.length = pod.count.toNat
  steps : ∀ (index : Nat) step, phase.steps[index]? = some step → step.BuiltFor pod index

namespace Plan

/-- A plan as the file says it, pod by pod. -/
structure SpellsOut (plan : Plan Step) (file : ServiceFile) : Prop where
  name : plan.name = deployName
  strategy : plan.strategy = ⟨(file.plan.bind (·.strategy)).getD .serial, false⟩
  errors : plan.errors = []
  count : plan.phases.length = file.pods.length
  phases : ∀ (place : Nat) pod, file.pods[place]? = some pod →
    ∃ phase, plan.phases[place]? = some phase ∧ phase.Expands pod

structure Builds (file : ServiceFile) (outcome : Except BuildError (Plan Step)) : Prop where
  noPods : outcome = .error (.noPods file.service.name) ↔ file.pods = []
  /-- The type that is named occurs again after distinct ones. -/
  repeated : ∀ podType, outcome = .error (.duplicateElement deployName podType) ↔
    ∃ before pod after, file.pods = before ++ pod :: after ∧ pod.podType = podType ∧
      podType ∈ before.map (·.podType) ∧ (before.map (·.podType)).Nodup
  noOther : ∀ cause, outcome = .error cause → cause = .noPods file.service.name ∨
    ∃ podType, cause = .duplicateElement deployName podType
  accepted : (∃ plan, outcome = .ok plan) ↔
    file.pods ≠ [] ∧ (file.pods.map (·.podType)).Nodup
  plan : ∀ plan, outcome = .ok plan → plan.SpellsOut file
  faults : ∀ pod ∈ file.pods, pod.faults.length = pod.faultCount
  /-- A pod is flagged when something is wrong with it, and only then. -/
  flagged : ∀ pod ∈ file.pods, pod.faults = [] ↔ pod.Sound

end Plan

theorem PodSection.builtFor_step {pod : PodSection} {index : Nat} {podInstance : PodInstance}
    (listed : pod.instances[index]? = some podInstance) :
    (pod.step podInstance).BuiltFor pod index := by
  obtain ⟨podType, place, tasks⟩ := getElem?_instances listed
  refine ⟨rfl, podType, place, ?_, ?_, rfl, rfl, ?_, rfl, rfl, rfl⟩
  · exact tasks
  · change podInstance.tasks.map (·.name) = _
    rw [tasks, taskSpecs, List.map_map]
    rfl
  · change (if pod.faults.isEmpty then Status.pending else Status.error) = _
    simp only [← length_faults, List.isEmpty_iff, List.length_eq_zero_iff]

theorem PodSection.expands_phase (pod : PodSection) : pod.phase.Expands pod where
  name := rfl
  strategy := rfl
  errors := rfl
  count := pod.length_steps_phase
  steps := by
    intro index step found
    change (pod.instances.map pod.step)[index]? = some step at found
    rw [List.getElem?_map] at found
    obtain ⟨podInstance, listed, rfl⟩ := Option.map_eq_some_iff.mp found
    exact builtFor_step listed

namespace Plan

theorem spellsOut_of_built {file : ServiceFile} {plan : Plan Step}
    (built : ofService file = .ok plan) : plan.SpellsOut file := by
  have phases := phases_built built
  rw [ofService_eq_ok built] at phases ⊢
  refine ⟨rfl, rfl, rfl, ?_, ?_⟩
  · exact List.length_map _
  · intro place pod found
    refine ⟨pod.phase, ?_, pod.expands_phase⟩
    rw [phases, found]
    rfl

theorem ofService_cases (file : ServiceFile) :
    (file.pods = [] ∧ ofService file = .error (.noPods file.service.name)) ∨
      (file.pods ≠ [] ∧ ∃ podType, PodSection.firstRepeated? [] file.pods = some podType ∧
        ofService file = .error (.duplicateElement deployName podType)) ∨
      (file.pods ≠ [] ∧ PodSection.firstRepeated? [] file.pods = none ∧
        ∃ plan, ofService file = .ok plan) := by
  by_cases empty : file.pods = []
  · exact Or.inl ⟨empty, by simp [ofService, empty]⟩
  · cases found : PodSection.firstRepeated? [] file.pods with
    | some podType =>
        exact Or.inr (Or.inl ⟨empty, podType, rfl, by simp [ofService, empty, found]⟩)
    | none => exact Or.inr (Or.inr ⟨empty, rfl, by simp [ofService, empty, found]⟩)

theorem ofService_eq_duplicate_iff {file : ServiceFile} {podType : String} :
    ofService file = .error (.duplicateElement deployName podType) ↔
      PodSection.firstRepeated? [] file.pods = some podType := by
  rcases ofService_cases file with ⟨empty, outcome⟩ | ⟨_, repeated, found, outcome⟩ |
    ⟨_, none, plan, outcome⟩
  · simp [outcome, empty, PodSection.firstRepeated?]
  · simp [outcome, found]
  · simp [outcome, none]

theorem exists_ofService_eq_ok_iff {file : ServiceFile} :
    (∃ plan, ofService file = .ok plan) ↔
      file.pods ≠ [] ∧ (file.pods.map (·.podType)).Nodup := by
  constructor
  · rintro ⟨plan, built⟩
    refine ⟨?_, nodup_podTypes built⟩
    intro empty
    simp [ofService, empty] at built
  · rintro ⟨occupied, distinct⟩
    simp [ofService, occupied, PodSection.firstRepeated?_of_nodup distinct]

/-- Each file is refused for the right reason, or built as it says. -/
theorem builds_ofService (file : ServiceFile) : Builds file (ofService file) where
  noPods := by
    rcases ofService_cases file with ⟨empty, outcome⟩ | ⟨occupied, _, _, outcome⟩ |
      ⟨occupied, _, _, outcome⟩
    · simp [outcome, empty]
    · simp [outcome, occupied]
    · simp [outcome, occupied]
  repeated := by
    intro podType
    rw [ofService_eq_duplicate_iff, PodSection.firstRepeated?_eq_some_iff]
    simp only [List.not_mem_nil, false_or, List.disjoint_nil_left, and_true]
  noOther := by
    intro cause failed
    rcases ofService_cases file with ⟨_, outcome⟩ | ⟨_, podType, _, outcome⟩ |
      ⟨_, _, _, outcome⟩
    · exact Or.inl (Except.error.inj (failed.symm.trans outcome))
    · exact Or.inr ⟨podType, Except.error.inj (failed.symm.trans outcome)⟩
    · rw [outcome] at failed
      cases failed
  accepted := exists_ofService_eq_ok_iff
  plan := fun _ => spellsOut_of_built
  faults := fun pod _ => pod.length_faults
  flagged := fun _ _ => PodSection.faults_eq_nil_iff

end Plan

end Rollout
