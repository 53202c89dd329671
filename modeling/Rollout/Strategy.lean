import Rollout.Status

/-! Which parts of a composite element may run next.  A selection looks only at the parts as they
are now.  Names in `dirty` are taken elsewhere: their parts are not selected, and a serial
selection passes over them. -/

namespace Rollout

class Element (α : Type) where
  name : α → String
  status : α → Status
  errors : α → List String

namespace Element

variable {α : Type} [Element α]

def hasErrors (part : α) : Bool :=
  !(errors part).isEmpty

def isPending (part : α) : Bool :=
  (status part).isPending

def isComplete (part : α) : Bool :=
  (status part).isComplete

/-- Whether a part may be handed out: its work is pending, it is valid, and nobody
else has taken its name. -/
def isEligible (dirty : List String) (part : α) : Bool :=
  isPending part && !hasErrors part && !dirty.contains (name part)

def statusOfParts (parts : List α) : Status :=
  Status.ofParts (parts.map status)

def find? (parts : List α) (wanted : String) : Option α :=
  parts.find? fun part => name part == wanted

end Element

/-- One part at a time in declared order, or every part that can run. -/
inductive StrategyKind where
  | serial
  | parallel
  deriving DecidableEq, Repr, Inhabited

namespace StrategyKind

def initial : StrategyKind := .serial

variable {α : Type} [Element α]

/-- Passes over complete and dirty parts; the first other part is selected if it is
eligible, and blocks the ones after it if it is not. -/
def selectSerialFrom (dirty : List String) (index : Nat) : List α → List Nat
  | [] => []
  | part :: rest =>
      if Element.isComplete part || dirty.contains (Element.name part) then
        selectSerialFrom dirty (index + 1) rest
      else if Element.isEligible dirty part then [index]
      else []

def selectParallelFrom (dirty : List String) (index : Nat) : List α → List Nat
  | [] => []
  | part :: rest =>
      if Element.isEligible dirty part then index :: selectParallelFrom dirty (index + 1) rest
      else selectParallelFrom dirty (index + 1) rest

def select (kind : StrategyKind) (dirty : List String) (parts : List α) : List Nat :=
  match kind with
  | .serial => selectSerialFrom dirty 0 parts
  | .parallel => selectParallelFrom dirty 0 parts

end StrategyKind

/-- A way of selecting, and whether handing out is suspended. -/
structure Strategy where
  kind : StrategyKind
  interrupted : Bool
  deriving DecidableEq, Repr

namespace Strategy

def ofKind (kind : StrategyKind) : Strategy := ⟨kind, false⟩

def interrupt (strategy : Strategy) : Strategy :=
  { strategy with interrupted := true }

def proceed (strategy : Strategy) : Strategy :=
  { strategy with interrupted := false }

/-- The places of the parts that are handed out: none while interrupted. -/
def candidates {α : Type} [Element α] (strategy : Strategy) (dirty : List String)
    (parts : List α) : List Nat :=
  if strategy.interrupted then [] else strategy.kind.select dirty parts

end Strategy

end Rollout
