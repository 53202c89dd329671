import Rollout.Offer.Evaluator
import Rollout.Plan.Basic

/-! Offer passes.  A pass asks the plan for phases and each phase for steps, has the requirement
of every step found that way evaluated, and tells the step the outcome. Names that were picked
count as dirty for the phases that follow, so that no two picks of a pass share a name across
phases. -/

namespace Rollout

structure PassReport where
  /-- Steps whose requirement was evaluated, in the order of the visits. -/
  evaluated : List String
  /-- Steps for which a launch was recommended. -/
  launched : List String
  /-- Steps whose evaluation failed; they stay as they were. -/
  failed : List String
  deriving DecidableEq, Repr

namespace PassReport

def empty : PassReport := ⟨[], [], []⟩

end PassReport

namespace Plan

def collect {α : Type} [Element α] (plan : Plan α) (claimed : List String) :
    List Nat → List Location
  | [] => []
  | place :: rest =>
      match plan.phases[place]? with
      | none => plan.collect claimed rest
      | some phase =>
          let picked := phase.candidates claimed
          let names := picked.filterMap fun step => (phase.steps[step]?).map Element.name
          picked.map (fun step => ⟨place, step⟩) ++ plan.collect (claimed ++ names) rest

/-- The steps that may run now, phase by phase.  The phases are chosen once, before
any step is claimed. -/
def candidateSteps {α : Type} [Element α] (plan : Plan α) (dirty : List String) :
    List Location :=
  plan.collect dirty (plan.candidates dirty)

structure Pass (σ : Type) where
  plan : Plan Step
  evaluator : σ
  report : PassReport

def Pass.record {σ : Type} (pass : Pass σ) (location : Location) (name : String)
    (outcome : Evaluation) : Pass σ :=
  let report := { pass.report with evaluated := pass.report.evaluated ++ [name] }
  match outcome with
  | .error _ => { pass with report := { report with failed := report.failed ++ [name] } }
  | .ok recommendations =>
      { pass with
        plan := pass.plan.modifyAt location (·.updateOffer recommendations)
        report :=
          if Recommendation.launchesAny recommendations then
            { report with launched := report.launched ++ [name] }
          else report }

/-- Visits one step.  A step with nothing to start is passed over. -/
def Pass.visit {σ : Type} (evaluate : Evaluator σ) (pass : Pass σ) (location : Location) :
    Pass σ :=
  match pass.plan.stepAt? location with
  | none => pass
  | some step =>
      match step.start with
      | none => pass
      | some requirement =>
          let (outcome, evaluator) := evaluate requirement pass.evaluator
          { pass with evaluator }.record location step.name outcome

def runPass {σ : Type} (plan : Plan Step) (evaluate : Evaluator σ) (evaluator : σ)
    (dirty : List String) : Pass σ :=
  (plan.candidateSteps dirty).foldl (Pass.visit evaluate) ⟨plan, evaluator, .empty⟩

end Plan

end Rollout
