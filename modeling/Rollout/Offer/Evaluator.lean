import Rollout.Offer.Recommendation

/-! Offer evaluation: from a requirement to recommendations.  An evaluator carries a state of its
own, so that every answer may depend on the ones before it.  The simulated one has a pool of
slots, one for each pod instance it can take. -/

namespace Rollout

inductive EvaluationError where
  | refused (step reason : String)
  | unknownTask (podInstance task : String)
  deriving DecidableEq, Repr

namespace EvaluationError

def message : EvaluationError → String
  | .refused step reason => "offer evaluation failed for " ++ step ++ ": " ++ reason
  | .unknownTask podInstance task =>
      "task " ++ task ++ " is not part of pod instance " ++ podInstance

end EvaluationError

/-- The outcome of one evaluation; an empty list means that no offer matched. -/
abbrev Evaluation := Except EvaluationError (List Recommendation)

abbrev Evaluator (σ : Type) := Requirement → σ → Evaluation × σ

namespace Evaluator

/-- Answers the requirements of some pod instances from a script, and leaves the
others to another evaluator. -/
def scripted {σ : Type} (script : List (String × Evaluation)) (otherwise : Evaluator σ) :
    Evaluator σ := fun requirement state =>
  match script.lookup requirement.name with
  | some outcome => (outcome, state)
  | none => otherwise requirement state

end Evaluator

/-- The state of the simulated evaluator: the free slots, if they are limited, and the
number of tasks launched so far, from which the id suffixes are taken. -/
structure SlotPool where
  free : Option Nat
  launched : Nat
  deriving DecidableEq, Repr

namespace SlotPool

def unbounded : SlotPool := ⟨none, 0⟩

def withSlots (slots : Nat) : SlotPool := ⟨some slots, 0⟩

/-- Gives one slot back.  The pool does not follow the tasks: a slot returns only
this way. -/
def release (pool : SlotPool) : SlotPool :=
  { pool with free := pool.free.map (· + 1) }

def claim? (pool : SlotPool) : Option SlotPool :=
  match pool.free with
  | none => some pool
  | some 0 => none
  | some (n + 1) => some { pool with free := some n }

def descriptor (pod : PodInstance) (suffix : String) (spec : TaskSpec) : TaskDescriptor :=
  let name := pod.taskName spec.name
  ⟨name, TaskId.compose name suffix, spec.goal, spec.readinessCheck⟩

/-- The launches for tasks of the pod; the suffixes are numbered from `next` on.  The
first name that the pod does not have is the error. -/
def launches (suffix : Nat → String) (pod : PodInstance) (next : Nat) :
    List String → Except EvaluationError (List Recommendation)
  | [] => .ok []
  | task :: rest =>
      match pod.task? task with
      | none => .error (.unknownTask pod.name task)
      | some spec => do
          let others ← launches suffix pod (next + 1) rest
          pure (.launch (descriptor pod (suffix next) spec) :: others)

def reservation (pod : PodInstance) : Recommendation :=
  .reserve (pod.name ++ "-resources") pod.name

/-- Matches a requirement with a free slot: a reservation, and a launch for every task.
All tasks must be known before a slot is looked for, and suffixes are used up only by
a match. -/
def evaluate (suffix : Nat → String) : Evaluator SlotPool := fun requirement pool =>
  let pod := requirement.podInstance
  match launches suffix pod (pool.launched + 1) requirement.tasksToLaunch with
  | .error cause => (.error cause, pool)
  | .ok tasks =>
      match pool.claim? with
      | none => (.ok [], pool)
      | some claimed =>
          (.ok (reservation pod :: tasks),
            { claimed with launched := pool.launched + tasks.length })

end SlotPool

end Rollout
