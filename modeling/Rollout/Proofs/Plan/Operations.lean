import Rollout.Proofs.Broadcast
import Rollout.Proofs.Plan.Passes

/-! Histories of a plan: passes, reports, restarts, changes of single steps, and interruptions, in
any order and with any evaluator.  Every operation but a pass acts on steps by one action each; no
operation changes the declaration. -/

namespace Rollout

/-- A plan with the state of the evaluator that its passes ask. -/
structure Session (σ : Type) where
  plan : Plan Step
  evaluator : σ

/-- What can be done to a plan in operation.  Each pass names the evaluator that it
asks; between passes the evaluator may change on its own. -/
inductive Operation (σ : Type) where
  | pass (evaluate : Evaluator σ) (dirty : List String)
  | route (report : TaskReport)
  | restart
  | onStep (location : Location) (action : Step.Action)
  | interrupt
  | proceed
  | interruptPhase (place : Nat)
  | proceedPhase (place : Nat)
  | attend (change : σ → σ)

namespace Session

variable {σ : Type}

def perform (session : Session σ) : Operation σ → Session σ
  | .pass evaluate dirty =>
      let pass := session.plan.runPass evaluate session.evaluator dirty
      ⟨pass.plan, pass.evaluator⟩
  | .route report => { session with plan := session.plan.route report }
  | .restart => { session with plan := session.plan.restart }
  | .onStep location action =>
      { session with plan := session.plan.modifyAt location (·.act action) }
  | .interrupt => { session with plan := session.plan.interrupt }
  | .proceed => { session with plan := session.plan.proceed }
  | .interruptPhase place =>
      { session with plan := session.plan.modifyPhaseAt place Phase.interrupt }
  | .proceedPhase place =>
      { session with plan := session.plan.modifyPhaseAt place Phase.proceed }
  | .attend change => { session with evaluator := change session.evaluator }

def run (session : Session σ) (operations : List (Operation σ)) : Session σ :=
  operations.foldl perform session

theorem run_concat (session : Session σ) (operations : List (Operation σ))
    (last : Operation σ) :
    session.run (operations ++ [last]) = (session.run operations).perform last := by
  rw [run, List.foldl_append]
  rfl

theorem run_induct {motive : Session σ → Prop} (permitted : Operation σ → Prop)
    (step : ∀ session operation, permitted operation → motive session →
      motive (session.perform operation))
    (session : Session σ) (start : motive session) {operations : List (Operation σ)}
    (allowed : ∀ operation ∈ operations, permitted operation) :
    motive (session.run operations) := by
  induction operations generalizing session with
  | nil => exact start
  | cons operation rest ih =>
      apply ih _ (step session operation (allowed operation List.mem_cons_self) start)
      exact fun other member => allowed other (List.mem_cons_of_mem _ member)

end Session

namespace Plan

theorem phases_modifyPhaseAt (plan : Plan Step) (place : Nat) (f : Phase Step → Phase Step)
    (other : Nat) : (plan.modifyPhaseAt place f).phases[other]? =
      (plan.phases[other]?).map fun phase => if place = other then f phase else phase :=
  List.getElem?_modify f place plan.phases other

theorem stepAt?_modifyPhaseAt (plan : Plan Step) (place : Nat) {f : Phase Step → Phase Step}
    (steps : ∀ phase, (f phase).steps = phase.steps) (location : Location) :
    (plan.modifyPhaseAt place f).stepAt? location = plan.stepAt? location := by
  unfold stepAt?
  rw [phases_modifyPhaseAt]
  cases plan.phases[location.phase]? with
  | none => rfl
  | some phase =>
      simp only [Option.map_some, Option.bind_eq_bind, Option.bind_some]
      split
      · rw [steps]
      · rfl

theorem modifyPhaseAt_evolves (plan : Plan Step) (place : Nat) {f : Phase Step → Phase Step}
    (outline : ∀ phase, (f phase).outline = phase.outline)
    (steps : ∀ phase, (f phase).steps = phase.steps) :
    Evolves (fun _ old new => new = old) plan (plan.modifyPhaseAt place f) := by
  refine Evolves.of_stepAt? rfl ?_ (stepAt?_modifyPhaseAt plan place steps)
  intro other
  rw [phases_modifyPhaseAt]
  cases plan.phases[other]? with
  | none => rfl
  | some phase =>
      simp only [Option.map_some]
      split
      · rw [outline]
      · rfl

end Plan

namespace Operation

variable {σ : Type}

def actionAt : Operation σ → Location → Option Step.Action
  | .route report, _ => some (.report report)
  | .restart, _ => some .restart
  | .onStep place action, location => if location = place then some action else none
  | _, _ => none

theorem actionAt_cases {operation : Operation σ} {location : Location} {action : Step.Action}
    (acts : operation.actionAt location = some action) :
    (∃ report, operation = .route report ∧ action = .report report) ∨
      operation = .restart ∧ action = .restart ∨ operation = .onStep location action := by
  cases operation with
  | route report =>
      cases acts
      exact Or.inl ⟨report, rfl, rfl⟩
  | restart =>
      cases acts
      exact Or.inr (Or.inl ⟨rfl, rfl⟩)
  | onStep place other =>
      simp only [actionAt] at acts
      split at acts
      · rename_i here
        cases acts
        subst here
        exact Or.inr (Or.inr rfl)
      · cases acts
  | _ => cases acts

/-- Offers are left to the passes. -/
def Brokered (operation : Operation σ) : Prop :=
  ∀ location recommendations, operation ≠ .onStep location (.offer recommendations)

theorem Brokered.noOffer {operation : Operation σ} (brokered : operation.Brokered)
    {location : Location} {action : Step.Action}
    (acts : operation.actionAt location = some action) :
    ∀ recommendations, action ≠ .offer recommendations := by
  intro recommendations offer
  subst offer
  rcases actionAt_cases acts with ⟨_, _, other⟩ | ⟨_, other⟩ | single
  · cases other
  · cases other
  · exact brokered location recommendations single

theorem perform_evolves (session : Session σ) (operation : Operation σ)
    (noPass : ∀ evaluate dirty, operation ≠ .pass evaluate dirty) :
    Plan.Evolves (fun location old new => new = (operation.actionAt location).elim old old.act)
      session.plan (session.perform operation).plan := by
  cases operation with
  | pass evaluate dirty => exact False.elim (noPass evaluate dirty rfl)
  | route report =>
      change Plan.Evolves _ session.plan (session.plan.route report)
      rw [Plan.route_eq_mapSteps]
      exact Plan.Evolves.of_mapSteps session.plan (·.update report)
  | restart => exact Plan.Evolves.of_mapSteps session.plan Step.restart
  | onStep place action =>
      refine (Plan.Evolves.of_modifyAt session.plan place (·.act action)).mono ?_
      intro location old new same
      rw [same, actionAt]
      split <;> rfl
  | interrupt => exact Plan.Evolves.of_stepAt? rfl (fun _ => rfl) (fun _ => rfl)
  | proceed => exact Plan.Evolves.of_stepAt? rfl (fun _ => rfl) (fun _ => rfl)
  | interruptPhase place =>
      exact Plan.modifyPhaseAt_evolves session.plan place (fun _ => rfl) (fun _ => rfl)
  | proceedPhase place =>
      exact Plan.modifyPhaseAt_evolves session.plan place (fun _ => rfl) (fun _ => rfl)
  | attend change => exact Plan.Evolves.of_stepAt? rfl (fun _ => rfl) (fun _ => rfl)

end Operation

namespace Session

variable {σ : Type}

/-- The two kinds of operations: a pass offers to candidates, any other operation acts
on the steps. -/
theorem perform_cases (session : Session σ) (operation : Operation σ) :
    (∃ evaluate dirty, operation = .pass evaluate dirty ∧
      Plan.Evolves (fun location old new =>
          new = old ∨ location ∈ session.plan.candidateSteps dirty ∧
            Step.Offered evaluate old new)
        session.plan (session.perform operation).plan) ∨
      Plan.Evolves (fun location old new => new = (operation.actionAt location).elim old old.act)
        session.plan (session.perform operation).plan := by
  cases operation with
  | pass evaluate dirty =>
      exact Or.inl ⟨evaluate, dirty, rfl,
        session.plan.runPass_evolves evaluate session.evaluator dirty⟩
  | _ => exact Or.inr (Operation.perform_evolves session _ (by intros; simp))

theorem forall_steps_perform {P : Step → Prop} {session : Session σ} {operation : Operation σ}
    (offered : ∀ evaluate dirty, operation = .pass evaluate dirty →
      ∀ old new, P old → Step.Offered evaluate old new → P new)
    (acted : ∀ location action, operation.actionAt location = some action →
      ∀ step, P step → P (step.act action))
    (holds : ∀ ⦃location step⦄, session.plan.stepAt? location = some step → P step)
    ⦃location : Location⦄ ⦃step : Step⦄
    (found : (session.perform operation).plan.stepAt? location = some step) : P step := by
  rcases session.perform_cases operation with ⟨evaluate, dirty, pass, evolves⟩ | evolves
  · obtain ⟨old, atBefore, same | ⟨_, outcome⟩⟩ := evolves.step_after found
    · rw [same]
      exact holds atBefore
    · exact offered evaluate dirty pass old step (holds atBefore) outcome
  · obtain ⟨old, atBefore, related⟩ := evolves.step_after found
    cases acts : operation.actionAt location with
    | none =>
        rw [related, acts]
        exact holds atBefore
    | some action =>
        rw [related, acts]
        exact acted location action acts old (holds atBefore)

theorem forall_steps_run {P : Step → Prop} (permitted : Operation σ → Prop)
    (offered : ∀ evaluate dirty, permitted (.pass evaluate dirty) →
      ∀ old new, P old → Step.Offered evaluate old new → P new)
    (acted : ∀ operation location action, permitted operation →
      operation.actionAt location = some action → ∀ step, P step → P (step.act action))
    {session : Session σ}
    (holds : ∀ ⦃location step⦄, session.plan.stepAt? location = some step → P step)
    {operations : List (Operation σ)} (allowed : ∀ operation ∈ operations, permitted operation)
    ⦃location : Location⦄ ⦃step : Step⦄
    (found : (session.run operations).plan.stepAt? location = some step) : P step := by
  refine run_induct (motive := fun current : Session σ =>
    ∀ ⦃location step⦄, current.plan.stepAt? location = some step → P step)
    permitted ?_ session holds allowed found
  intro current operation allow each
  apply forall_steps_perform _ (fun location action => acted operation location action allow) each
  intro evaluate dirty same
  subst same
  exact offered evaluate dirty allow

theorem declared_perform (session : Session σ) (operation : Operation σ) :
    (session.perform operation).plan.declared = session.plan.declared := by
  rcases perform_cases session operation with ⟨evaluate, dirty, _, evolves⟩ | evolves
  · apply evolves.declared_eq
    rintro location old new (same | ⟨_, requirement, state, recommendations, _, _, same⟩)
    · rw [same]
    · rw [same]
      exact Step.declared_act old (.offer recommendations)
  · apply evolves.declared_eq
    intro location old new same
    rw [same]
    cases operation.actionAt location with
    | none => rfl
    | some action => exact Step.declared_act old action

theorem declared_run (session : Session σ) (operations : List (Operation σ)) :
    (session.run operations).plan.declared = session.plan.declared :=
  run_induct (motive := fun current => current.plan.declared = session.plan.declared)
    (fun _ => True)
    (fun current operation _ same => (declared_perform current operation).trans same)
    session rfl (fun _ _ => trivial)

end Session

end Rollout
