import Mathlib.Data.List.Induction
import Rollout.Proofs.Plan.Passes
import Rollout.Proofs.Service.Contents
import Rollout.Proofs.Step.Histories

/-! Parameters of a step over its whole history.  Changing the parameters replaces them, and a
start puts them over the declared environment without writing to it.  So a step starts with what
it was declared as and with the latest parameters only, whatever it went through before. -/

namespace Rollout

/-! ### Layers of values -/

namespace Environment

def names (environment : Environment) : List String :=
  environment.entries.map (·.1)

theorem names_setEntry_of_mem {name value : String} {entries : List (String × String)}
    (present : name ∈ entries.map (·.1)) :
    (setEntry name value entries).map (·.1) = entries.map (·.1) := by
  induction entries with
  | nil => cases present
  | cons head rest ih =>
      obtain ⟨key, held⟩ := head
      by_cases same : key = name
      · subst same
        rw [setEntry, if_pos rfl]
        rfl
      · have among := (List.mem_cons.mp present).resolve_left (Ne.symm same)
        rw [setEntry, if_neg same, List.map_cons, ih among]
        rfl

theorem names_set (environment : Environment) (name value : String) :
    (environment.set name value).names =
      if name ∈ environment.names then environment.names else environment.names ++ [name] := by
  split
  · rename_i present
    exact names_setEntry_of_mem present
  · rename_i absent
    exact (congrArg _ (setEntry_of_notMem absent value)).trans (List.map_append ..)

theorem names_foldl_set {entries : List (String × String)} {environment : Environment}
    (distinct : (entries.map (·.1)).Nodup) :
    (entries.foldl (fun merged entry => merged.set entry.1 entry.2) environment).names =
      environment.names ++ (entries.map (·.1)).filter (· ∉ environment.names) := by
  induction entries generalizing environment with
  | nil => exact (List.append_nil _).symm
  | cons head rest ih =>
      obtain ⟨key, value⟩ := head
      obtain ⟨apart, others⟩ := List.nodup_cons.mp distinct
      rw [List.foldl_cons, ih others, List.map_cons]
      by_cases present : key ∈ environment.names
      · rw [names_set, if_pos present, List.filter_cons_of_neg (by simpa using present)]
      · rw [names_set, if_neg present, List.filter_cons_of_pos (by simpa using present),
          List.append_assoc, List.singleton_append]
        congr 2
        apply List.filter_congr
        intro other member
        have different : other ≠ key := fun same => apart (same ▸ member)
        simp [different]

/-- The overrides append the names that are new. -/
theorem names_merge (environment overrides : Environment) :
    (environment.merge overrides).names =
      environment.names ++ overrides.names.filter (· ∉ environment.names) :=
  names_foldl_set overrides.distinct

theorem entries_ext {first second : List (String × String)}
    (distinct : (first.map (·.1)).Nodup) (names : first.map (·.1) = second.map (·.1))
    (values : ∀ name, first.lookup name = second.lookup name) : first = second := by
  induction first generalizing second with
  | nil => exact (List.map_eq_nil_iff.mp names.symm).symm
  | cons head rest ih =>
      obtain ⟨key, value⟩ := head
      cases second with
      | nil => cases names
      | cons other others =>
          obtain ⟨key', value'⟩ := other
          obtain ⟨rfl, tails⟩ := List.cons.inj names
          obtain ⟨apart, later⟩ := List.nodup_cons.mp distinct
          have atKey : some value = some value' := by simpa using values key
          cases atKey
          congr 1
          refine ih later tails fun name => ?_
          by_cases same : name = key
          · subst same
            rw [lookup_eq_none_of_notMem apart, lookup_eq_none_of_notMem (tails ▸ apart)]
          · simpa [List.lookup_cons, beq_false_of_ne same] using values name

/-- An environment is known by its names in their order and by their values. -/
theorem ext_get? {first second : Environment} (names : first.names = second.names)
    (values : ∀ name, first.get? name = second.get? name) : first = second := by
  obtain ⟨entries, distinct⟩ := first
  obtain ⟨others, _⟩ := second
  have same : entries = others := entries_ext distinct names values
  subst same
  rfl

theorem merge_assoc (environment inner outer : Environment) :
    (environment.merge inner).merge outer = environment.merge (inner.merge outer) := by
  apply ext_get?
  · simp only [names_merge, List.filter_append, List.filter_filter, List.append_assoc]
    congr 2
    apply List.filter_congr
    intro name _
    by_cases name ∈ environment.names <;> simp_all
  · intro name
    simp only [get?_merge, Option.or_assoc]

@[simp] theorem merge_self (environment : Environment) :
    environment.merge environment = environment := by
  apply ext_get?
  · rw [names_merge]
    simp
  · intro name
    rw [get?_merge, Option.or_self]

theorem mem_names_merge {environment overrides : Environment} {name : String} :
    name ∈ (environment.merge overrides).names ↔
      name ∈ overrides.names ∨ name ∈ environment.names := by
  rw [names_merge, List.mem_append, List.mem_filter]
  by_cases present : name ∈ environment.names <;> simp [present]

end Environment

namespace Requirement

@[simp] theorem withEnvironment_withEnvironment (requirement : Requirement)
    (inner outer : Environment) :
    (requirement.withEnvironment inner).withEnvironment outer =
      requirement.withEnvironment (inner.merge outer) := by
  simp only [withEnvironment, Environment.merge_assoc]

theorem withEnvironment_again (requirement : Requirement) (overrides : Environment) :
    (requirement.withEnvironment overrides).withEnvironment overrides =
      requirement.withEnvironment overrides := by
  rw [withEnvironment_withEnvironment, Environment.merge_self]

structure Layered (requirement : Requirement) : Prop where
  merged : ∀ inner outer : Environment,
    (requirement.withEnvironment inner).withEnvironment outer =
      requirement.withEnvironment (inner.merge outer)
  again : ∀ overrides : Environment,
    (requirement.withEnvironment overrides).withEnvironment overrides =
      requirement.withEnvironment overrides

end Requirement

/-! ### The latest parameters -/

namespace Step

def Call.parameters? : Call → Option Environment
  | .act (.parameters values) => some values
  | _ => none

def latestParameters (calls : List Call) : Environment :=
  (calls.filterMap Call.parameters?).getLast?.getD .empty

theorem call_errors (step : Step) (request : Call) :
    (step.call request).errors = step.errors := by
  cases request with
  | start => rfl
  | act action => exact step.act_errors action

theorem call_parameters (step : Step) (request : Call) :
    (step.call request).parameters = request.parameters?.getD step.parameters := by
  cases request with
  | start => rfl
  | act action =>
      cases action with
      | report report => exact (update_frame step report).2.2.2.1
      | _ => rfl

theorem latestParameters_concat (calls : List Call) (last : Call) :
    latestParameters (calls ++ [last]) = last.parameters?.getD (latestParameters calls) := by
  rw [latestParameters, List.filterMap_append]
  cases given : last.parameters? with
  | none => simp [given, latestParameters]
  | some values => simp [given]

/-- Induction on the last call: it gives new parameters or keeps those of the calls before. -/
theorem run_parameters {step : Step} (fresh : step.parameters = .empty) (calls : List Call) :
    (step.run calls).parameters = latestParameters calls := by
  induction calls using List.reverseRecOn with
  | nil => exact fresh
  | append_singleton calls last ih =>
      rw [run_concat, call_parameters, ih, latestParameters_concat]

theorem run_declaration (step : Step) (calls : List Call) :
    (step.run calls).requirement = step.requirement ∧ (step.run calls).errors = step.errors := by
  induction calls generalizing step with
  | nil => exact ⟨rfl, rfl⟩
  | cons request rest ih =>
      obtain ⟨requirement, errors⟩ := ih (step.call request)
      exact ⟨requirement.trans (step.call_requirement request),
        errors.trans (step.call_errors request)⟩

/-- What a step hands out: its declaration as it is, and a start that puts the given values
over the declared environment. -/
structure Supplies (step : Step) (declared : Requirement) (errors : List String)
    (parameters : Environment) : Prop where
  asset : step.requirement = declared
  starts : (∃ started, step.start = some started) ↔ errors = [] ∧ step.status ≠ .complete
  podInstance : ∀ started, step.start = some started → started.podInstance = declared.podInstance
  tasks : ∀ started, step.start = some started → started.tasksToLaunch = declared.tasksToLaunch
  values : ∀ started, step.start = some started → ∀ name,
    started.environment.get? name =
      (parameters.get? name).or (declared.environment.get? name)
  /-- No name has stayed from anything else. -/
  names : ∀ started, step.start = some started → ∀ name,
    name ∈ started.environment.names ↔
      name ∈ parameters.names ∨ name ∈ declared.environment.names

theorem supplies (step : Step) :
    step.Supplies step.requirement step.errors step.parameters where
  asset := rfl
  starts := by
    constructor
    · rintro ⟨started, starts⟩
      obtain ⟨valid, incomplete, _⟩ := start_eq_some_iff.mp starts
      exact ⟨valid, incomplete⟩
    · rintro ⟨valid, incomplete⟩
      exact ⟨_, start_eq_some_iff.mpr ⟨valid, incomplete, rfl⟩⟩
  podInstance := by
    intro started starts
    obtain ⟨_, _, rfl⟩ := start_eq_some_iff.mp starts
    rfl
  tasks := by
    intro started starts
    obtain ⟨_, _, rfl⟩ := start_eq_some_iff.mp starts
    rfl
  values := by
    intro started starts name
    obtain ⟨_, _, rfl⟩ := start_eq_some_iff.mp starts
    exact Environment.get?_merge ..
  names := by
    intro started starts name
    obtain ⟨_, _, rfl⟩ := start_eq_some_iff.mp starts
    exact Environment.mem_names_merge

/-- Through every history a step keeps its declaration, and starts with the latest parameters
over it; parameters that are put over a requirement one after the other are one layer. -/
theorem supplies_of_history (name : String) (status : Status) (declared : Requirement)
    (errors : List String) (calls : List Call) :
    ((new name status declared errors).run calls).Supplies declared errors
        (latestParameters calls) ∧
      ∀ requirement : Requirement, requirement.Layered := by
  constructor
  · obtain ⟨requirement, faults⟩ := run_declaration (new name status declared errors) calls
    have result := supplies ((new name status declared errors).run calls)
    rw [requirement, faults, run_parameters rfl] at result
    exact result
  · intro requirement
    exact ⟨requirement.withEnvironment_withEnvironment, requirement.withEnvironment_again⟩

/-- The parameters outlast a restart, and nothing is left of those before. -/
example :
    let declared : Requirement := ⟨⟨"hello", 0, []⟩, [], .ofList [("A", "1"), ("B", "2")]⟩
    let calls : List Call :=
      [.act (.parameters (.ofList [("C", "9")])), .start,
        .act (.parameters (.ofList [("B", "3")])), .act .restart]
    ((new "hello-0" .pending declared []).run calls).start.map (·.environment.entries) =
      some [("A", "1"), ("B", "3")] := by
  decide +kernel

end Step

end Rollout
