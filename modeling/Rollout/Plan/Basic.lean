import Rollout.Step

/-! Plans: an ordered group of phases, each an ordered group of steps.  Neither stores a status;
both derive it from their parts whenever it is asked for.  The steps may be of any type that has a
name, a status and errors and can be restarted. -/

namespace Rollout

class Leaf (α : Type) extends Element α where
  restart : α → α
  trackedTasks : Arrangement → α → List TrackedTask

instance : Leaf Step where
  restart := Step.restart
  trackedTasks := Step.trackedTasks

structure Phase (α : Type) where
  name : String
  steps : List α
  strategy : Strategy
  errors : List String
  deriving Repr

structure Plan (α : Type) where
  name : String
  phases : List (Phase α)
  strategy : Strategy
  errors : List String
  deriving Repr

structure Location where
  phase : Nat
  step : Nat
  deriving DecidableEq, Repr

namespace Phase

variable {α : Type}

def new (name : String) (steps : List α) (kind : StrategyKind) : Phase α :=
  ⟨name, steps, .ofKind kind, []⟩

def withErrors (phase : Phase α) (errors : List String) : Phase α :=
  { phase with errors }

def interrupt (phase : Phase α) : Phase α :=
  { phase with strategy := phase.strategy.interrupt }

def proceed (phase : Phase α) : Phase α :=
  { phase with strategy := phase.strategy.proceed }

def mapSteps (f : α → α) (phase : Phase α) : Phase α :=
  { phase with steps := phase.steps.map f }

def modifyAt (phase : Phase α) (place : Nat) (f : α → α) : Phase α :=
  { phase with steps := phase.steps.modify place f }

variable [Element α]

def status (phase : Phase α) : Status :=
  Element.statusOfParts phase.steps

instance : Element (Phase α) where
  name := Phase.name
  status := Phase.status
  errors := Phase.errors

def candidates (phase : Phase α) (dirty : List String) : List Nat :=
  phase.strategy.candidates dirty phase.steps

def child? (phase : Phase α) (name : String) : Option α :=
  Element.find? phase.steps name

end Phase

namespace Plan

variable {α : Type}

def new (name : String) (phases : List (Phase α)) (kind : StrategyKind) : Plan α :=
  ⟨name, phases, .ofKind kind, []⟩

def withErrors (plan : Plan α) (errors : List String) : Plan α :=
  { plan with errors }

def interrupt (plan : Plan α) : Plan α :=
  { plan with strategy := plan.strategy.interrupt }

def proceed (plan : Plan α) : Plan α :=
  { plan with strategy := plan.strategy.proceed }

def steps (plan : Plan α) : List α :=
  plan.phases.flatMap (·.steps)

def mapSteps (f : α → α) (plan : Plan α) : Plan α :=
  { plan with phases := plan.phases.map (Phase.mapSteps f) }

def stepAt? (plan : Plan α) (location : Location) : Option α := do
  let phase ← plan.phases[location.phase]?
  phase.steps[location.step]?

def modifyPhaseAt (plan : Plan α) (place : Nat) (f : Phase α → Phase α) : Plan α :=
  { plan with phases := plan.phases.modify place f }

def modifyAt (plan : Plan α) (location : Location) (f : α → α) : Plan α :=
  plan.modifyPhaseAt location.phase fun phase => phase.modifyAt location.step f

def locationsOf (place : Nat) (phase : Phase α) : List Location :=
  (List.range phase.steps.length).map fun step => ⟨place, step⟩

def locationsFrom (place : Nat) : List (Phase α) → List Location
  | [] => []
  | phase :: rest => locationsOf place phase ++ locationsFrom (place + 1) rest

def locations (plan : Plan α) : List Location :=
  locationsFrom 0 plan.phases

section

variable [Element α]

def status (plan : Plan α) : Status :=
  Element.statusOfParts plan.phases

instance : Element (Plan α) where
  name := Plan.name
  status := Plan.status
  errors := Plan.errors

def isComplete (plan : Plan α) : Bool :=
  plan.status.isComplete

def candidates (plan : Plan α) (dirty : List String) : List Nat :=
  plan.strategy.candidates dirty plan.phases

def child? (plan : Plan α) (name : String) : Option (Phase α) :=
  Element.find? plan.phases name

def phasePlace? (plan : Plan α) (name : String) : Option Nat :=
  plan.phases.findIdx? fun phase => phase.name == name

def locate? (plan : Plan α) (name : String) : Option Location :=
  plan.locations.find? fun location =>
    match plan.stepAt? location with
    | some step => Element.name step == name
    | none => false

def step? (plan : Plan α) (name : String) : Option α :=
  Element.find? plan.steps name

end

def restart [Leaf α] (plan : Plan α) : Plan α :=
  plan.mapSteps Leaf.restart

end Plan

end Rollout
