import Rollout.Document.Reading
import Rollout.Step

/-! The written words for goals, task states, statuses and strategies. -/

namespace Rollout

namespace Goal

def word : Goal → String
  | .running => "running"
  | .finished => "finished"

def choices : List (String × Goal) :=
  [Goal.running, .finished].map fun goal => (goal.word, goal)

def toDocument (goal : Goal) : Document := .text goal.word

def read (dialect : Dialect) : Reader Goal := Reader.oneOf dialect choices

end Goal

namespace StrategyKind

def word : StrategyKind → String
  | .serial => "serial"
  | .parallel => "parallel"

def choices : List (String × StrategyKind) :=
  [StrategyKind.serial, .parallel].map fun kind => (kind.word, kind)

def toDocument (kind : StrategyKind) : Document := .text kind.word

def read (dialect : Dialect) : Reader StrategyKind := Reader.oneOf dialect choices

end StrategyKind

namespace Status

def choices : List (String × Status) :=
  all.map fun status => (status.label, status)

def toDocument (status : Status) : Document := .text status.label

def read (dialect : Dialect) : Reader Status := Reader.oneOf dialect choices

end Status

namespace TaskState

def choices : List (String × TaskState) :=
  all.map fun state => (state.label, state)

def toDocument (state : TaskState) : Document := .text state.label

def read (dialect : Dialect) : Reader TaskState := Reader.oneOf dialect choices

end TaskState

namespace Document

def ofOption {α : Type} (write : α → Document) : Option α → Document
  | none => .null
  | some value => write value

def ofList {α : Type} (write : α → Document) (values : List α) : Document :=
  .list (values.map write)

def ofTexts (values : List String) : Document :=
  ofList .text values

def ofWord32 (value : UInt32) : Document := .integer value.toNat

def ofWord64 (value : UInt64) : Document := .integer value.toNat

end Document

end Rollout
