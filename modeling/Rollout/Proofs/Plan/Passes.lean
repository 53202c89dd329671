import Rollout.Proofs.Plan.Evolution
import Rollout.Proofs.Plan.Selection

/-! What a pass does to a plan.  A visit puts the requirement of one step to the evaluator and
changes that step only; a pass visits every candidate once, so each candidate was judged as it
stood before the pass. -/

namespace Rollout

namespace Step

variable {σ : Type}

def consider (evaluate : Evaluator σ) (state : σ) (step : Step) : Step :=
  match step.start with
  | none => step
  | some requirement =>
      match (evaluate requirement state).1 with
      | .error _ => step
      | .ok recommendations => step.updateOffer recommendations

/-- A step before and after the outcome of an evaluation of its requirement. -/
def Offered (evaluate : Evaluator σ) (old new : Step) : Prop :=
  ∃ requirement state recommendations, old.start = some requirement ∧
    (evaluate requirement state).1 = .ok recommendations ∧
    new = old.updateOffer recommendations

theorem start_eq_some_iff {step : Step} {requirement : Requirement} :
    step.start = some requirement ↔
      step.errors = [] ∧ step.status ≠ .complete ∧
        step.requirement.withEnvironment step.parameters = requirement := by
  have complete : step.status.isComplete = true ↔ step.status = .complete :=
    Status.isComplete_iff
  by_cases errors : step.errors = [] <;>
    by_cases done : step.status.isComplete = true <;>
    simp_all [Step.start, Step.hasErrors]

theorem consider_of_ok {evaluate : Evaluator σ} {state : σ} {step : Step}
    {requirement : Requirement} {recommendations : List Recommendation}
    (started : step.start = some requirement)
    (answer : (evaluate requirement state).1 = .ok recommendations) :
    step.consider evaluate state = step.updateOffer recommendations := by
  simp only [consider, started, answer]

theorem consider_cases (evaluate : Evaluator σ) (state : σ) (step : Step) :
    step.consider evaluate state = step ∨
      Offered evaluate step (step.consider evaluate state) := by
  cases started : step.start with
  | none =>
      left
      simp only [consider, started]
  | some requirement =>
      cases answer : (evaluate requirement state).1 with
      | error cause =>
          left
          simp only [consider, started, answer]
      | ok recommendations =>
          right
          exact ⟨requirement, state, recommendations, started, answer,
            consider_of_ok started answer⟩

end Step

namespace Plan.Pass

variable {σ : Type} {evaluate : Evaluator σ}

theorem evaluator_visit (evaluate : Evaluator σ) (pass : Pass σ) (location : Location) :
    (pass.visit evaluate location).evaluator =
      ((pass.plan.stepAt? location).bind Step.start).elim pass.evaluator
        fun requirement => (evaluate requirement pass.evaluator).2 := by
  unfold visit
  cases pass.plan.stepAt? location with
  | none => rfl
  | some step =>
      simp only [Option.bind_some]
      cases step.start with
      | none => rfl
      | some requirement =>
          simp only [record]
          cases (evaluate requirement pass.evaluator).1 <;> rfl

theorem plan_visit (evaluate : Evaluator σ) (pass : Pass σ) (location : Location) :
    (pass.visit evaluate location).plan =
      pass.plan.modifyAt location (·.consider evaluate pass.evaluator) := by
  unfold visit
  cases found : pass.plan.stepAt? location with
  | none =>
      refine (modifyAt_eq_self ?_).symm
      intro step atLocation
      rw [found] at atLocation
      cases atLocation
  | some step =>
      have only : ∀ f : Step → Step, f step = step.consider evaluate pass.evaluator →
          pass.plan.modifyAt location f =
            pass.plan.modifyAt location (·.consider evaluate pass.evaluator) := by
        intro f same
        refine modifyAt_congr ?_
        intro other atLocation
        rw [found] at atLocation
        cases atLocation
        exact same
      have still : pass.plan.modifyAt location id = pass.plan := modifyAt_eq_self fun _ _ => rfl
      simp only
      cases started : step.start with
      | none =>
          have idle := only id (by simp only [Step.consider, started, id])
          exact still.symm.trans idle
      | some requirement =>
          cases answer : (evaluate requirement pass.evaluator).1 with
          | error cause =>
              have refused := only id (by simp only [Step.consider, started, answer, id])
              simp only [record, answer]
              exact still.symm.trans refused
          | ok recommendations =>
              simp only [record, answer]
              exact only (·.updateOffer recommendations)
                (Step.consider_of_ok started answer).symm

/-- Visits to different places leave each other's steps alone; what holds of the
evaluator at first, and is kept by every answer, holds at each visit. -/
theorem foldl_visit_evolves {Holds : σ → Prop}
    (keeps : ∀ requirement state, Holds state → Holds (evaluate requirement state).2)
    {locations : List Location} (distinct : locations.Nodup) (pass : Pass σ)
    (start : Holds pass.evaluator) :
    Evolves (fun place old new =>
        if place ∈ locations then ∃ state, Holds state ∧ new = old.consider evaluate state
        else new = old)
      pass.plan (locations.foldl (Pass.visit evaluate) pass).plan ∧
      Holds (locations.foldl (Pass.visit evaluate) pass).evaluator := by
  induction locations generalizing pass with
  | nil =>
      refine ⟨(Evolves.of_stepAt? rfl (fun _ => rfl) (fun _ => rfl)).mono ?_, start⟩
      intro place old new same
      rw [if_neg List.not_mem_nil]
      exact same
  | cons location rest ih =>
      obtain ⟨absent, others⟩ := List.nodup_cons.mp distinct
      have next : Holds (pass.visit evaluate location).evaluator := by
        rw [evaluator_visit]
        cases (pass.plan.stepAt? location).bind Step.start with
        | none => exact start
        | some requirement => exact keeps requirement _ start
      obtain ⟨later, last⟩ := ih others _ next
      refine ⟨?_, last⟩
      have visited := Evolves.of_modifyAt pass.plan location (·.consider evaluate pass.evaluator)
      rw [← plan_visit] at visited
      refine visited.trans later ?_
      intro place old middle new first second
      by_cases here : place = location
      · subst here
        rw [if_pos rfl] at first
        rw [if_neg absent] at second
        rw [if_pos List.mem_cons_self]
        exact ⟨pass.evaluator, start, second.trans first⟩
      · rw [if_neg here] at first
        subst first
        by_cases inRest : place ∈ rest
        · rw [if_pos inRest] at second
          rw [if_pos (List.mem_cons_of_mem _ inRest)]
          exact second
        · rw [if_neg inRest] at second
          have outside : place ∉ location :: rest := by
            rw [List.mem_cons, not_or]
            exact ⟨here, inRest⟩
          rw [if_neg outside]
          exact second

end Plan.Pass

namespace Plan

variable {σ : Type}

/-- After a pass every candidate was considered once, as it stood before the pass, and
no other step has changed. -/
theorem runPass_considers (plan : Plan Step) (evaluate : Evaluator σ) (evaluator : σ)
    (dirty : List String) (Holds : σ → Prop)
    (keeps : ∀ requirement state, Holds state → Holds (evaluate requirement state).2)
    (start : Holds evaluator) :
    Evolves (fun place old new =>
        if place ∈ plan.candidateSteps dirty then
          ∃ state, Holds state ∧ new = old.consider evaluate state
        else new = old)
      plan (plan.runPass evaluate evaluator dirty).plan ∧
      Holds (plan.runPass evaluate evaluator dirty).evaluator :=
  Pass.foldl_visit_evolves keeps (plan.candidateSteps_nodup dirty)
    ⟨plan, evaluator, .empty⟩ start

theorem runPass_evolves (plan : Plan Step) (evaluate : Evaluator σ) (evaluator : σ)
    (dirty : List String) :
    Evolves (fun place old new =>
        new = old ∨ place ∈ plan.candidateSteps dirty ∧ Step.Offered evaluate old new)
      plan (plan.runPass evaluate evaluator dirty).plan := by
  have considered := (plan.runPass_considers evaluate evaluator dirty (fun _ => True)
    (fun _ _ _ => trivial) trivial).1
  refine considered.mono ?_
  intro place old new related
  split at related
  · rename_i candidate
    obtain ⟨state, _, same⟩ := related
    rw [same]
    rcases old.consider_cases evaluate state with idle | offered
    · exact Or.inl idle
    · exact Or.inr ⟨candidate, offered⟩
  · exact Or.inl related

theorem runPass_induct {motive : Pass σ → Prop} {evaluate : Evaluator σ}
    (visit : ∀ pass location, motive pass → motive (pass.visit evaluate location))
    {plan : Plan Step} {evaluator : σ} (dirty : List String)
    (start : motive ⟨plan, evaluator, .empty⟩) :
    motive (plan.runPass evaluate evaluator dirty) := by
  have run : ∀ (locations : List Location) (pass : Pass σ), motive pass →
      motive (locations.foldl (Pass.visit evaluate) pass) := by
    intro locations
    induction locations with
    | nil => intro pass holds; exact holds
    | cons location rest ih => intro pass holds; exact ih _ (visit pass location holds)
  exact run _ _ start

end Plan

end Rollout
