import Rollout.Codec.Service
import Rollout.Toml.Written

/-! Service files as TOML text.  In a written file the plain values of a table come before the
tables in it, and what the file leaves out is left out of the text. -/

namespace Rollout

open Toml (Line)

inductive ServiceTextError where
  /-- It is not TOML. -/
  | syntaxError
  /-- It is TOML, but does not describe a service. -/
  | content (cause : Mismatch)
  deriving Repr

def optionalLine {α : Type} (key : String) (scalar : α → Toml.Scalar) :
    Option α → List Line
  | none => []
  | some value => [.assign key (scalar value)]

def word32Scalar (value : UInt32) : Toml.Scalar := .natural value.toNat

def word64Scalar (value : UInt64) : Toml.Scalar := .natural value.toNat

namespace ReadinessCheck

def lines (check : ReadinessCheck) : List Line := [
  .header ["pods", "tasks", "readiness_check"],
  .assign "command" (.text check.command),
  .assign "interval_secs" (word64Scalar check.intervalSecs),
  .assign "timeout_secs" (word64Scalar check.timeoutSecs)]

end ReadinessCheck

namespace TaskSection

def lines (task : TaskSection) : List Line :=
  .item ["pods", "tasks"] ::
    .assign "name" (.text task.name) ::
    (optionalLine "goal" (fun goal => .text goal.word) task.goal ++
      (match task.readinessCheck with
        | none => []
        | some check => check.lines))

end TaskSection

namespace Environment

def lines (environment : Environment) : List Line :=
  .header ["pods", "env"] ::
    environment.entries.map fun entry => .assign entry.1 (.text entry.2)

end Environment

namespace PodSection

def lines (pod : PodSection) : List Line :=
  .item ["pods"] ::
    .assign "type" (.text pod.podType) ::
    .assign "count" (word32Scalar pod.count) ::
    (optionalLine "strategy" (fun kind => .text kind.word) pod.strategy ++
      (if pod.tasks.isEmpty then [.assign "tasks" .emptyList] else []) ++
      (match pod.environment with
        | none => []
        | some environment => environment.lines) ++
      pod.tasks.flatMap TaskSection.lines)

end PodSection

namespace ServiceSection

def lines (service : ServiceSection) : List Line :=
  .header ["service"] ::
    .assign "name" (.text service.name) ::
    optionalLine "description" .text service.description

end ServiceSection

namespace PlanSection

def lines (plan : PlanSection) : List Line :=
  .header ["plan"] ::
    optionalLine "strategy" (fun kind => .text kind.word) plan.strategy

end PlanSection

namespace SchedulerSection

def lines (scheduler : SchedulerSection) : List Line :=
  .header ["scheduler"] ::
    (optionalLine "pass_interval_ms" word64Scalar scheduler.passIntervalMs ++
      optionalLine "status_channel_capacity" word64Scalar scheduler.statusChannelCapacity)

end SchedulerSection

namespace ServiceFile

/-- The lines of a file.  An empty list of pods is a plain value of the root table. -/
def lines (file : ServiceFile) : List Line :=
  (if file.pods.isEmpty then [.assign "pods" .emptyList] else []) ++
    file.service.lines ++
    (match file.plan with
      | none => []
      | some plan => plan.lines) ++
    (match file.scheduler with
      | none => []
      | some scheduler => scheduler.lines) ++
    file.pods.flatMap PodSection.lines

def toToml (file : ServiceFile) : Except Toml.WriteError String :=
  Toml.write file.lines

def ofToml (text : String) : Except ServiceTextError ServiceFile :=
  match Toml.read? text with
  | none => .error .syntaxError
  | some document =>
      match read .toml document with
      | .ok file => .ok file
      | .error cause => .error (.content cause)

def ofJson (document : Document) : Except Mismatch ServiceFile :=
  read .json document

end ServiceFile

end Rollout
