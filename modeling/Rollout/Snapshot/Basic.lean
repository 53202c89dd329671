import Rollout.Plan.Basic

/-! Snapshots: the plan tree at one point in time, detached from the plan, and its text with one
line for each element, error and task. -/

namespace Rollout

structure TaskSnapshot where
  name : String
  taskId : TaskId
  status : Status
  deriving DecidableEq, Repr

/-- An element of the tree.  Plans and phases have a strategy and children, steps
have tasks. -/
inductive Snapshot where
  | node (name : String) (status : Status) (strategy : Option StrategyKind)
      (errors : List String) (children : List Snapshot) (tasks : List TaskSnapshot)
  deriving Repr

namespace TaskSnapshot

def ofTracked (task : TrackedTask) : TaskSnapshot :=
  ⟨task.descriptor.name, task.descriptor.taskId, task.status⟩

end TaskSnapshot

namespace Snapshot

variable {α : Type} [Leaf α]

def ofStep (arrangement : Arrangement) (step : α) : Snapshot :=
  .node (Element.name step) (Element.status step) none (Element.errors step) []
    ((Leaf.trackedTasks arrangement step).map TaskSnapshot.ofTracked)

def ofPhase (arrangement : Arrangement) (phase : Phase α) : Snapshot :=
  .node phase.name phase.status (some phase.strategy.kind) phase.errors
    (phase.steps.map (ofStep arrangement)) []

def ofPlan (arrangement : Arrangement) (plan : Plan α) : Snapshot :=
  .node plan.name plan.status (some plan.strategy.kind) plan.errors
    (plan.phases.map (ofPhase arrangement)) []

/-! ### Text -/

def indent (depth : Nat) : String :=
  String.ofList (List.replicate (2 * depth) ' ')

def strategyText : Option StrategyKind → String
  | none => ""
  | some .serial => " (serial)"
  | some .parallel => " (parallel)"

def elementLine (depth : Nat) (name : String) (status : Status)
    (strategy : Option StrategyKind) : String :=
  indent depth ++ name ++ " [" ++ status.label ++ "]" ++ strategyText strategy

def errorLine (depth : Nat) (error : String) : String :=
  indent (depth + 1) ++ "! " ++ error

def taskLine (depth : Nat) (task : TaskSnapshot) : String :=
  indent (depth + 1) ++ "- " ++ task.name ++ " " ++ task.taskId ++ " [" ++
    task.status.label ++ "]"

mutual

/-- The lines of an element at a depth: its own, its errors, its tasks, and then those
of its children one level deeper. -/
def lines (depth : Nat) : Snapshot → List String
  | .node name status strategy errors children tasks =>
      elementLine depth name status strategy ::
        (errors.map (errorLine depth) ++ tasks.map (taskLine depth) ++
          linesOfAll (depth + 1) children)

def linesOfAll (depth : Nat) : List Snapshot → List String
  | [] => []
  | child :: rest => lines depth child ++ linesOfAll depth rest

end

def render (snapshot : Snapshot) : String :=
  String.join ((snapshot.lines 0).map (· ++ "\n"))

end Snapshot

def Plan.snapshot {α : Type} [Leaf α] (plan : Plan α) (arrangement : Arrangement) : Snapshot :=
  Snapshot.ofPlan arrangement plan

end Rollout
