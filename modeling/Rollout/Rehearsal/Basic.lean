import Rollout.Plan.Build
import Rollout.Rehearsal.Cluster
import Rollout.Router
import Rollout.Schedule

/-! Rehearsals: a plan is deployed against the simulated evaluator and the simulated cluster.  A
round is a pass, followed by the reports on what it launched. -/

namespace Rollout

structure Rehearsal where
  plan : Plan Step
  pool : SlotPool
  cluster : Cluster

inductive RehearsalError where
  | invalidSteps (names : List String)
  | unfinished (timeoutSecs : Nat) (status : Status)
  deriving DecidableEq, Repr

namespace RehearsalError

def message : RehearsalError → String
  | .invalidSteps names => "cannot simulate, invalid steps: " ++ ", ".intercalate names
  | .unfinished timeoutSecs status =>
      "plan did not complete within " ++ toString timeoutSecs ++ "s (status " ++
        status.label ++ ")"

end RehearsalError

namespace Plan

def invalidSteps (plan : Plan Step) : List Step :=
  plan.steps.filter Step.hasErrors

end Plan

namespace Rehearsal

def start (plan : Plan Step) (failing : List String) : Rehearsal :=
  ⟨plan, .unbounded, .new failing⟩

def round (suffix : Nat → String) (arrangement : Arrangement) (rehearsal : Rehearsal) :
    Rehearsal :=
  let pass := rehearsal.plan.runPass (SlotPool.evaluate suffix) rehearsal.pool []
  let (reports, cluster) := rehearsal.cluster.reports arrangement pass.plan
  ⟨pass.plan.routeAll reports, pass.evaluator, cluster⟩

def rounds (suffix : Nat → String) (arrangement : Arrangement) : Nat → Rehearsal → Rehearsal
  | 0, rehearsal => rehearsal
  | n + 1, rehearsal =>
      if rehearsal.plan.isComplete then rehearsal
      else rounds suffix arrangement n (rehearsal.round suffix arrangement)

/-- How many rounds there is time for.  Every step takes one round and every failing
task one more, so that many are enough; passes without an interval take no time. -/
def roundLimit (plan : Plan Step) (failing : List String) (intervalMs timeoutSecs : Nat) :
    Nat :=
  let needed := plan.steps.length + failing.length
  if timeoutSecs = 0 then 0
  else if intervalMs = 0 then needed
  else min needed (Schedule.passesBefore intervalMs (timeoutSecs * 1000))

def clockEnd : Nat := 9223372036854775807

/-- How a rehearsal ends: not at all, when its channel or its deadline cannot be made;
or with a plan, and with an error unless that plan is complete. -/
inductive Ending where
  | aborted
  | ended (plan : Plan Step) (error : Option RehearsalError)

def run (suffix : Nat → String) (arrangement : Arrangement) (clock : Nat)
    (settings : SchedulerSection) (plan : Plan Step) (failing : List String)
    (timeoutSecs : Nat) : Ending :=
  let invalid := plan.invalidSteps
  if !invalid.isEmpty then .ended plan (some (.invalidSteps (invalid.map (·.name))))
  else
    match Capacity.ofNat? settings.capacity.toNat with
    | none => .aborted
    | some _ =>
        if clockEnd < clock + timeoutSecs then .aborted
        else
          let limit := roundLimit plan failing settings.interval.toNat timeoutSecs
          let last := (rounds suffix arrangement limit (start plan failing)).plan
          .ended last
            (if last.isComplete then none else some (.unfinished timeoutSecs last.status))

end Rehearsal

end Rollout
