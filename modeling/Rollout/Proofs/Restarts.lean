import Mathlib.Data.List.Induction
import Rollout.Proofs.Arrangements
import Rollout.Proofs.Plan.Built
import Rollout.Proofs.Plan.Tracking

/-! A restart leaves of the past what was declared and what was set: the parameters of the steps
and the interruptions.  So a restarted plan goes on as a new one under the same settings would,
whatever comes; and as no step tracks a task yet, a report only concerns a task that was launched
since. -/

namespace Rollout

/-! ### Settings -/

namespace Operation

variable {σ : Type}

/-- The operation only sets parameters or interruptions. -/
def configures : Operation σ → Bool
  | .onStep _ (.parameters _) => true
  | .interrupt | .proceed | .interruptPhase _ | .proceedPhase _ => true
  | _ => false

end Operation

namespace Plan

private theorem map_eq_of_map_eq {α β γ : Type} {f : α → β} {g : α → γ} {a b : Option α}
    (same : a.map f = b.map f)
    (through : ∀ x y, a = some x → b = some y → f x = f y → g x = g y) : a.map g = b.map g := by
  cases a with
  | none =>
      cases b with
      | none => rfl
      | some y => cases same
  | some x =>
      cases b with
      | none => cases same
      | some y => exact congrArg some (through x y rfl rfl (Option.some.inj same))

structure SameSettings (plan other : Plan Step) : Prop where
  interrupted : plan.strategy.interrupted = other.strategy.interrupted
  phases : ∀ place : Nat, (plan.phases[place]?).map (·.strategy.interrupted) =
    (other.phases[place]?).map (·.strategy.interrupted)
  parameters : ∀ location, (plan.stepAt? location).map (·.parameters) =
    (other.stepAt? location).map (·.parameters)

namespace SameSettings

variable {first second third : Plan Step}

theorem refl (plan : Plan Step) : plan.SameSettings plan :=
  ⟨rfl, fun _ => rfl, fun _ => rfl⟩

theorem trans (same : first.SameSettings second) (same' : second.SameSettings third) :
    first.SameSettings third where
  interrupted := same.interrupted.trans same'.interrupted
  phases := fun place => (same.phases place).trans (same'.phases place)
  parameters := fun location => (same.parameters location).trans (same'.parameters location)

theorem symm (same : first.SameSettings second) : second.SameSettings first where
  interrupted := same.interrupted.symm
  phases := fun place => (same.phases place).symm
  parameters := fun location => (same.parameters location).symm

theorem of_mapSteps (plan : Plan Step) {f : Step → Step}
    (keeps : ∀ step, (f step).parameters = step.parameters) :
    (plan.mapSteps f).SameSettings plan where
  interrupted := rfl
  phases := by
    intro place
    rw [phases_mapSteps]
    cases plan.phases[place]? <;> rfl
  parameters := by
    intro location
    rw [stepAt?_mapSteps]
    cases plan.stepAt? location with
    | none => rfl
    | some step => exact congrArg some (keeps step)

theorem phases_modifyAt (plan : Plan Step) (location : Location) (f : Step → Step) (place : Nat) :
    ((plan.modifyAt location f).phases[place]?).map (·.strategy.interrupted) =
      (plan.phases[place]?).map (·.strategy.interrupted) := by
  rw [Plan.phases_modifyAt]
  split
  · cases plan.phases[place]? <;> rfl
  · rfl

theorem of_modifyAt (plan : Plan Step) (location : Location) {f : Step → Step}
    (keeps : ∀ step, (f step).parameters = step.parameters) :
    (plan.modifyAt location f).SameSettings plan where
  interrupted := rfl
  phases := phases_modifyAt plan location f
  parameters := by
    intro other
    by_cases here : other = location
    · subst here
      rw [stepAt?_modifyAt_self]
      cases plan.stepAt? other with
      | none => rfl
      | some step => exact congrArg some (keeps step)
    · rw [stepAt?_modifyAt_of_ne plan f here]

theorem updateParameters (same : first.SameSettings second) (location : Location)
    (values : Environment) :
    (first.modifyAt location (·.updateParameters values)).SameSettings
      (second.modifyAt location (·.updateParameters values)) where
  interrupted := same.interrupted
  phases := by
    intro place
    rw [phases_modifyAt, phases_modifyAt]
    exact same.phases place
  parameters := by
    intro other
    by_cases here : other = location
    · subst here
      rw [stepAt?_modifyAt_self, stepAt?_modifyAt_self, Option.map_map, Option.map_map]
      exact map_eq_of_map_eq (same.parameters other) fun _ _ _ _ _ => rfl
    · rw [stepAt?_modifyAt_of_ne first _ here, stepAt?_modifyAt_of_ne second _ here]
      exact same.parameters other

theorem modifyPhaseAt (same : first.SameSettings second) (place : Nat) (flag : Bool)
    {f : Phase Step → Phase Step} (sets : ∀ phase, (f phase).strategy.interrupted = flag)
    (steps : ∀ phase, (f phase).steps = phase.steps) :
    (first.modifyPhaseAt place f).SameSettings (second.modifyPhaseAt place f) where
  interrupted := same.interrupted
  phases := by
    intro other
    rw [phases_modifyPhaseAt, phases_modifyPhaseAt, Option.map_map, Option.map_map]
    refine map_eq_of_map_eq (same.phases other) ?_
    intro phase partner _ _ flags
    simp only [Function.comp_apply]
    split
    · rw [sets, sets]
    · exact flags
  parameters := by
    intro location
    rw [stepAt?_modifyPhaseAt _ _ steps, stepAt?_modifyPhaseAt _ _ steps]
    exact same.parameters location

end SameSettings

end Plan

theorem Step.parameters_consider {σ : Type} (evaluate : Evaluator σ) (state : σ) (step : Step) :
    (step.consider evaluate state).parameters = step.parameters := by
  rcases step.consider_cases evaluate state with same | ⟨_, _, _, _, _, same⟩
  · rw [same]
  · rw [same]
    rfl

namespace Session

variable {σ : Type}

theorem sameSettings_perform (session : Session σ) {operation : Operation σ}
    (other : operation.configures = false) :
    (session.perform operation).plan.SameSettings session.plan := by
  cases operation with
  | pass evaluate dirty =>
      apply Plan.runPass_induct (motive := fun pass => pass.plan.SameSettings session.plan)
      · intro pass location same
        rw [Plan.Pass.plan_visit]
        exact (Plan.SameSettings.of_modifyAt _ _ (Step.parameters_consider _ _)).trans same
      · exact .refl session.plan
  | route report =>
      change (session.plan.route report).SameSettings session.plan
      rw [Plan.route_eq_mapSteps]
      exact .of_mapSteps _ fun step => (step.update_frame report).2.2.2.1
  | restart => exact .of_mapSteps _ fun _ => rfl
  | onStep location action =>
      cases action with
      | parameters values => cases other
      | report report => exact .of_modifyAt _ _ fun step => (step.update_frame report).2.2.2.1
      | _ => exact .of_modifyAt _ _ fun _ => rfl
  | attend change => exact .refl session.plan
  | _ => cases other

theorem sameSettings_of_configures {first second : Session σ}
    (same : first.plan.SameSettings second.plan) {operation : Operation σ}
    (configures : operation.configures = true) :
    (first.perform operation).plan.SameSettings (second.perform operation).plan := by
  cases operation with
  | onStep location action =>
      cases action with
      | parameters values => exact same.updateParameters location values
      | _ => cases configures
  | interrupt => exact ⟨rfl, same.phases, same.parameters⟩
  | proceed => exact ⟨rfl, same.phases, same.parameters⟩
  | interruptPhase place => exact same.modifyPhaseAt place true (fun _ => rfl) (fun _ => rfl)
  | proceedPhase place => exact same.modifyPhaseAt place false (fun _ => rfl) (fun _ => rfl)
  | _ => cases configures

theorem sameSettings_filter (plan : Plan Step) (first second : σ)
    (operations : List (Operation σ)) :
    (run ⟨plan, first⟩ (operations.filter Operation.configures)).plan.SameSettings
      (run ⟨plan, second⟩ operations).plan := by
  induction operations using List.reverseRecOn with
  | nil => exact .refl plan
  | append_singleton operations last ih =>
      rw [run_concat, List.filter_append]
      cases configures : last.configures with
      | true =>
          rw [List.filter_singleton, configures, cond_true, run_concat]
          exact sameSettings_of_configures ih configures
      | false =>
          rw [List.filter_singleton, configures, cond_false, List.append_nil]
          exact ih.trans (sameSettings_perform _ configures).symm

end Session

/-! ### Restarting -/

/-- Under one declaration and the same settings, restarts come to the same plan. -/
theorem Plan.restart_eq_of_sameSettings {plan other : Plan Step}
    (declared : plan.declared = other.declared) (same : plan.SameSettings other) :
    plan.restart = other.restart := by
  have name : plan.name = other.name := congrArg (·.name) declared
  have kind : plan.strategy.kind = other.strategy.kind := congrArg (·.strategy.kind) declared
  have errors : plan.errors = other.errors := congrArg (·.errors) declared
  have strategy : ∀ a b : Strategy, a.kind = b.kind → a.interrupted = b.interrupted → a = b := by
    rintro ⟨_, _⟩ ⟨_, _⟩ rfl rfl
    rfl
  -- the settings add the interruptions to the declared outline, the parameters to its steps
  refine ext_stepAt? name (strategy _ _ kind same.interrupted) errors ?_ ?_
  · intro place
    have phases : (plan.phases[place]?).map Phase.declared =
        (other.phases[place]?).map Phase.declared := by
      rw [← List.getElem?_map, ← List.getElem?_map]
      exact congrArg (·.phases[place]?) declared
    rw [restart, restart, frame_mapSteps, frame_mapSteps]
    refine map_eq_of_map_eq phases ?_
    intro phase partner left right inside
    have flags := same.phases place
    rw [left, right] at flags
    have name : phase.name = partner.name := congrArg (·.name) inside
    have kind : phase.strategy.kind = partner.strategy.kind := congrArg (·.strategy.kind) inside
    have errors : phase.errors = partner.errors := congrArg (·.errors) inside
    rw [Phase.frame, Phase.frame, name, errors, strategy _ _ kind (Option.some.inj flags)]
  · intro location
    have steps : (plan.stepAt? location).map Step.declared =
        (other.stepAt? location).map Step.declared := by
      rw [← stepAt?_declared, ← stepAt?_declared, declared]
    have restarted : ∀ step : Step,
        step.restart = step.declared.updateParameters step.parameters := fun _ => rfl
    rw [restart, restart, stepAt?_mapSteps, stepAt?_mapSteps]
    refine map_eq_of_map_eq steps ?_
    intro step partner left right inside
    have values := same.parameters location
    rw [left, right] at values
    have parameters : step.parameters = partner.parameters := Option.some.inj values
    change step.restart = partner.restart
    rw [restarted, restarted, inside, parameters]

theorem Step.Untouched.restart_eq {step : Step} (untouched : step.Untouched) :
    step.restart = step := by
  obtain ⟨status, tasks, prepared⟩ := untouched
  cases step
  cases tasks
  cases prepared
  exact congrArg (Step.mk _ _ _ · _ _ _) status.symm

namespace Session

variable {σ : Type}

/-- A new plan under its settings is as a restart would leave it. -/
theorem restart_run_of_configures {plan : Plan Step} (declared : plan.declared = plan)
    (evaluator : σ) {settings : List (Operation σ)}
    (configures : ∀ operation ∈ settings, operation.configures = true) :
    (run ⟨plan, evaluator⟩ settings).plan.restart = (run ⟨plan, evaluator⟩ settings).plan := by
  apply Plan.mapSteps_eq_self
  intro location step found
  apply Step.Untouched.restart_eq
  refine forall_steps_run (fun operation => operation.configures = true) ?_ ?_
    (fun _ _ => Plan.untouched_of_declared declared) configures found
  · intro evaluate dirty offers
    cases offers
  · intro operation place action sets acts old untouched
    rcases Operation.actionAt_cases acts with ⟨_, rfl, _⟩ | ⟨rfl, _⟩ | rfl
    · cases sets
    · cases sets
    · cases action with
      | parameters values => exact ⟨untouched.status, untouched.tasks, untouched.prepared⟩
      | _ => cases sets

theorem evaluator_run_of_configures (session : Session σ) {settings : List (Operation σ)}
    (configures : ∀ operation ∈ settings, operation.configures = true) :
    (session.run settings).evaluator = session.evaluator := by
  refine run_induct (motive := fun current => current.evaluator = session.evaluator)
    (fun operation => operation.configures = true) ?_ session rfl configures
  intro current operation sets same
  cases operation with
  | pass evaluate dirty => cases sets
  | attend change => cases sets
  | _ => exact same

/-- Of what was done to a built plan, a restart leaves the settings. -/
theorem perform_restart_eq {built : Plan Step} (untouched : built.declared = built)
    {reached : Session σ} (declared : reached.plan.declared = built)
    {settings : List (Operation σ)}
    (configures : ∀ operation ∈ settings, operation.configures = true)
    (same : (run ⟨built, reached.evaluator⟩ settings).plan.SameSettings reached.plan) :
    reached.perform .restart = run ⟨built, reached.evaluator⟩ settings := by
  have both : reached.plan.declared = (run ⟨built, reached.evaluator⟩ settings).plan.declared := by
    rw [declared_run, untouched, declared]
  have restarted : reached.plan.restart = (run ⟨built, reached.evaluator⟩ settings).plan :=
    (Plan.restart_eq_of_sameSettings both same.symm).trans
      (restart_run_of_configures untouched reached.evaluator configures)
  have waiting := evaluator_run_of_configures ⟨built, reached.evaluator⟩ configures
  rw [perform, restarted]
  exact congrArg (mk _) waiting.symm

end Session

/-! ### The restarted plan -/

namespace Session

variable {σ : Type}

def passReports (session : Session σ) : List (Operation σ) → List PassReport
  | [] => []
  | operation :: rest =>
      (match operation with
        | .pass evaluate dirty => [(session.plan.runPass evaluate session.evaluator dirty).report]
        | _ => []) ++ (session.perform operation).passReports rest

theorem tracksAmong_restart (session : Session σ) :
    (session.perform .restart).plan.TracksAmong [] := by
  apply Plan.tracksAmong_of_untouched
  intro location step found
  change (session.plan.mapSteps Step.restart).stepAt? location = some step at found
  rw [Plan.stepAt?_mapSteps] at found
  obtain ⟨old, _, rfl⟩ := Option.map_eq_some_iff.mp found
  exact old.untouched_restart

end Session

/-- A restart leaves nothing of the past but what was set. -/
structure Session.RestartsAsNew {σ : Type} (built : Plan Step) (reached : Session σ) :
    Prop where
  /-- A new plan under the same settings is in the same state, comes to the same states, and
  shows the same reports and tasks. -/
  asNew : ∀ settings : List (Operation σ),
    (∀ operation ∈ settings, operation.configures = true) →
    (run ⟨built, reached.evaluator⟩ settings).plan.SameSettings reached.plan →
    reached.perform .restart = run ⟨built, reached.evaluator⟩ settings ∧
      ∀ further : List (Operation σ),
        (reached.perform .restart).run further =
          run ⟨built, reached.evaluator⟩ (settings ++ further) ∧
        (reached.perform .restart).passReports further =
          (run ⟨built, reached.evaluator⟩ settings).passReports further ∧
        ∀ first second : Arrangement,
          ((reached.perform .restart).run further).plan.ShownAlike first
            (run ⟨built, reached.evaluator⟩ (settings ++ further)).plan second
  /-- A report on a task that was not launched again changes nothing. -/
  stale : ∀ (further : List (Operation σ)) (report : TaskReport),
    report.taskId ∉ (reached.perform .restart).launched further →
    ((reached.perform .restart).run further).plan.route report =
      ((reached.perform .restart).run further).plan

namespace Plan

theorem restartsAsNew_of_declared {σ : Type} {file : ServiceFile} {built : Plan Step}
    (builds : ofService file = .ok built) {reached : Session σ}
    (same : reached.plan.declared = built) : reached.RestartsAsNew built where
  asNew := by
    intro settings configures settled
    have fresh := Session.perform_restart_eq (declared_built builds) same configures settled
    refine ⟨fresh, fun further => ?_⟩
    have reaches : (reached.perform .restart).run further =
        Session.run ⟨built, reached.evaluator⟩ (settings ++ further) := by
      rw [fresh]
      exact (List.foldl_append ..).symm
    refine ⟨reaches, by rw [fresh], fun first second => ?_⟩
    rw [reaches]
    exact Plan.shownAlike _ first second
  stale := by
    intro further report unknown
    obtain ⟨tasks, ids, among⟩ :=
      Session.tracksAmong_run (Session.tracksAmong_restart reached) further
    rw [← ids] at unknown
    exact among.route unknown

/-- From every state of every history, a restarted plan goes on as a new one would under what
the history has set. -/
theorem restarts_as_new_of_history {σ : Type} {file : ServiceFile} {plan : Plan Step}
    (built : ofService file = .ok plan) (evaluator : σ) (history : List (Operation σ)) :
    (Session.run ⟨plan, (Session.run ⟨plan, evaluator⟩ history).evaluator⟩
        (history.filter Operation.configures)).plan.SameSettings
        (Session.run ⟨plan, evaluator⟩ history).plan ∧
      (Session.run ⟨plan, evaluator⟩ history).RestartsAsNew plan := by
  refine ⟨Session.sameSettings_filter plan _ evaluator history, ?_⟩
  apply restartsAsNew_of_declared built
  rw [Session.declared_run]
  exact declared_built built

/-- A server that was deployed and runs is deployed again under a new id. -/
theorem restarts_as_new_of_deployed :
    let pods : List PodSection := [
      ⟨"index", 1, none, none, [⟨"server", none, none⟩]⟩,
      ⟨"web", 1, none, none, [⟨"server", none, none⟩]⟩]
    let file : ServiceFile := ⟨⟨"search", none⟩, none, none, pods⟩
    let plan := Plan.new deployName (file.pods.map PodSection.phase) file.planStrategy
    let deploy : Operation SlotPool := .pass (SlotPool.evaluate Nat.repr) []
    let history : List (Operation SlotPool) :=
      [.interruptPhase 1, deploy, .route (.new "index-0-server__1" .running)]
    let reached := Session.run ⟨plan, SlotPool.unbounded⟩ history
    reached.plan.steps.map (·.status) = [.complete, .pending] ∧
      Session.launched ⟨plan, SlotPool.unbounded⟩ history = ["index-0-server__1"] ∧
      (reached.perform .restart).launched [deploy] = ["index-0-server__2"] ∧
      reached.RestartsAsNew plan := by
  intro pods file plan deploy history reached
  have built : ofService file = .ok plan := rfl
  exact ⟨by decide +kernel, by decide +kernel, by decide +kernel,
    (restarts_as_new_of_history built _ _).2⟩

end Plan

end Rollout
