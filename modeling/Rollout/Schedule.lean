import Rollout.Plan.Pass
import Rollout.Plan.Routing

/-! Passes on a clock.  A pass is made at every multiple of the interval, the first one an
interval after the start.  Reports and restarts come in between at times of their own. -/

namespace Rollout

/-- Something that happens between passes: a report is routed, or the plan restarted. -/
structure TimedAction where
  atMs : Nat
  report : Option TaskReport
  deriving DecidableEq, Repr

namespace Schedule

def passesBefore (intervalMs timeMs : Nat) : Nat :=
  (timeMs - 1) / intervalMs

structure Running (σ : Type) where
  plan : Plan Step
  evaluator : σ
  passes : Nat
  evaluations : Nat

namespace Running

def start {σ : Type} (plan : Plan Step) (evaluator : σ) : Running σ :=
  ⟨plan, evaluator, 0, 0⟩

def pass {σ : Type} (evaluate : Evaluator σ) (running : Running σ) : Running σ :=
  let made := running.plan.runPass evaluate running.evaluator []
  { plan := made.plan
    evaluator := made.evaluator
    passes := running.passes + 1
    evaluations := running.evaluations + made.report.evaluated.length }

def passUntil {σ : Type} (evaluate : Evaluator σ) (count : Nat) (running : Running σ) :
    Running σ :=
  (List.range (count - running.passes)).foldl (fun state _ => state.pass evaluate) running

def perform {σ : Type} (action : TimedAction) (running : Running σ) : Running σ :=
  match action.report with
  | some report => { running with plan := running.plan.route report }
  | none => { running with plan := running.plan.restart }

end Running

def run {σ : Type} (evaluate : Evaluator σ) (intervalMs runMs : Nat)
    (actions : List TimedAction) (plan : Plan Step) (evaluator : σ) : Running σ :=
  let acted := actions.foldl
    (fun running action =>
      (running.passUntil evaluate (passesBefore intervalMs (min runMs action.atMs))).perform
        action)
    (Running.start plan evaluator)
  acted.passUntil evaluate (passesBefore intervalMs runMs)

end Schedule

end Rollout
