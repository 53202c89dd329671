import Rollout.Codec.Words

/-! Tasks, pod instances, requirements and reports as documents. -/

namespace Rollout

namespace ReadinessCheck

def shape : RecordShape :=
  ⟨"struct ReadinessCheck", ["command", "interval_secs", "timeout_secs"]⟩

def toDocument (check : ReadinessCheck) : Document :=
  .table [
    ("command", .text check.command),
    ("interval_secs", .ofWord64 check.intervalSecs),
    ("timeout_secs", .ofWord64 check.timeoutSecs)]

def read (dialect : Dialect) : Reader ReadinessCheck :=
  dialect.record shape fun fields =>
    ReadinessCheck.mk
      <$> fields.required "command" Reader.text
      <*> fields.withDefault "interval_secs" defaultInterval Reader.word64
      <*> fields.withDefault "timeout_secs" defaultTimeout Reader.word64

end ReadinessCheck

namespace TaskSpec

def shape : RecordShape :=
  ⟨"struct TaskSpec", ["name", "goal", "readiness_check"]⟩

def toDocument (task : TaskSpec) : Document :=
  .table [
    ("name", .text task.name),
    ("goal", task.goal.toDocument),
    ("readiness_check", .ofOption ReadinessCheck.toDocument task.readinessCheck)]

def read (dialect : Dialect) : Reader TaskSpec :=
  dialect.record shape fun fields =>
    TaskSpec.mk
      <$> fields.required "name" Reader.text
      <*> fields.required "goal" (Goal.read dialect)
      <*> fields.optional "readiness_check" (ReadinessCheck.read dialect)

end TaskSpec

namespace TaskDescriptor

def shape : RecordShape :=
  ⟨"struct TaskDescriptor", ["name", "task_id", "goal", "readiness_check"]⟩

def toDocument (task : TaskDescriptor) : Document :=
  .table [
    ("name", .text task.name),
    ("task_id", .text task.taskId),
    ("goal", task.goal.toDocument),
    ("readiness_check", .ofOption ReadinessCheck.toDocument task.readinessCheck)]

def read (dialect : Dialect) : Reader TaskDescriptor :=
  dialect.record shape fun fields =>
    TaskDescriptor.mk
      <$> fields.required "name" Reader.text
      <*> fields.required "task_id" Reader.text
      <*> fields.required "goal" (Goal.read dialect)
      <*> fields.optional "readiness_check" (ReadinessCheck.read dialect)

end TaskDescriptor

namespace TaskReport

def shape : RecordShape :=
  ⟨"struct TaskStatusEvent", ["task_id", "state", "readiness_check_passed", "message"]⟩

def toDocument (report : TaskReport) : Document :=
  .table [
    ("task_id", .text report.taskId),
    ("state", report.state.toDocument),
    ("readiness_check_passed", .boolean report.readinessCheckPassed),
    ("message", .ofOption .text report.message)]

def read (dialect : Dialect) : Reader TaskReport :=
  dialect.record shape fun fields =>
    TaskReport.mk
      <$> fields.required "task_id" Reader.text
      <*> fields.required "state" (TaskState.read dialect)
      <*> fields.withDefault "readiness_check_passed" false Reader.boolean
      <*> fields.optional "message" Reader.text

end TaskReport

namespace PodInstance

def shape : RecordShape :=
  ⟨"struct PodInstance", ["pod_type", "index", "tasks"]⟩

def toDocument (pod : PodInstance) : Document :=
  .table [
    ("pod_type", .text pod.podType),
    ("index", .ofWord32 pod.index),
    ("tasks", .ofList TaskSpec.toDocument pod.tasks)]

def read (dialect : Dialect) : Reader PodInstance :=
  dialect.record shape fun fields =>
    PodInstance.mk
      <$> fields.required "pod_type" Reader.text
      <*> fields.required "index" Reader.word32
      <*> fields.required "tasks" (Reader.listOf (TaskSpec.read dialect))

end PodInstance

namespace Environment

def toDocument (environment : Environment) : Document :=
  .table (environment.entries.map fun entry => (entry.1, .text entry.2))

def read : Reader Environment := fun document =>
  (Reader.entriesOf Reader.text document).map ofList

end Environment

namespace Requirement

def shape : RecordShape :=
  ⟨"struct PodInstanceRequirement", ["pod_instance", "tasks_to_launch", "environment"]⟩

def toDocument (requirement : Requirement) : Document :=
  .table [
    ("pod_instance", requirement.podInstance.toDocument),
    ("tasks_to_launch", .ofTexts requirement.tasksToLaunch),
    ("environment", requirement.environment.toDocument)]

def read (dialect : Dialect) : Reader Requirement :=
  dialect.record shape fun fields =>
    Requirement.mk
      <$> fields.required "pod_instance" (PodInstance.read dialect)
      <*> fields.required "tasks_to_launch" (Reader.listOf Reader.text)
      <*> fields.required "environment" Environment.read

end Requirement

namespace TrackedTask

def shape : RecordShape :=
  ⟨"struct TrackedTask", ["descriptor", "status"]⟩

def toDocument (task : TrackedTask) : Document :=
  .table [
    ("descriptor", task.descriptor.toDocument),
    ("status", task.status.toDocument)]

def read (dialect : Dialect) : Reader TrackedTask :=
  dialect.record shape fun fields =>
    TrackedTask.mk
      <$> fields.required "descriptor" (TaskDescriptor.read dialect)
      <*> fields.required "status" (Status.read dialect)

end TrackedTask

end Rollout
