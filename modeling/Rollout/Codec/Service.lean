import Rollout.Codec.Task
import Rollout.Service.Basic

/-! Service files as documents. -/

namespace Rollout

namespace ServiceSection

def shape : RecordShape :=
  ⟨"struct ServiceSection", ["name", "description"]⟩

def toDocument (service : ServiceSection) : Document :=
  .table [
    ("name", .text service.name),
    ("description", .ofOption .text service.description)]

def read (dialect : Dialect) : Reader ServiceSection :=
  dialect.record shape fun fields =>
    ServiceSection.mk
      <$> fields.required "name" Reader.text
      <*> fields.optional "description" Reader.text

end ServiceSection

namespace PlanSection

def shape : RecordShape :=
  ⟨"struct PlanConfig", ["strategy"]⟩

def toDocument (plan : PlanSection) : Document :=
  .table [("strategy", .ofOption StrategyKind.toDocument plan.strategy)]

def read (dialect : Dialect) : Reader PlanSection :=
  dialect.record shape fun fields =>
    PlanSection.mk <$> fields.optional "strategy" (StrategyKind.read dialect)

end PlanSection

namespace SchedulerSection

def shape : RecordShape :=
  ⟨"struct SchedulerConfig", ["pass_interval_ms", "status_channel_capacity"]⟩

def toDocument (scheduler : SchedulerSection) : Document :=
  .table [
    ("pass_interval_ms", .ofOption .ofWord64 scheduler.passIntervalMs),
    ("status_channel_capacity", .ofOption .ofWord64 scheduler.statusChannelCapacity)]

def read (dialect : Dialect) : Reader SchedulerSection :=
  dialect.record shape fun fields =>
    SchedulerSection.mk
      <$> fields.optional "pass_interval_ms" Reader.word64
      <*> fields.optional "status_channel_capacity" Reader.size

end SchedulerSection

namespace TaskSection

def shape : RecordShape :=
  ⟨"struct TaskConfig", ["name", "goal", "readiness_check"]⟩

def toDocument (task : TaskSection) : Document :=
  .table [
    ("name", .text task.name),
    ("goal", .ofOption Goal.toDocument task.goal),
    ("readiness_check", .ofOption ReadinessCheck.toDocument task.readinessCheck)]

def read (dialect : Dialect) : Reader TaskSection :=
  dialect.record shape fun fields =>
    TaskSection.mk
      <$> fields.required "name" Reader.text
      <*> fields.optional "goal" (Goal.read dialect)
      <*> fields.optional "readiness_check" (ReadinessCheck.read dialect)

end TaskSection

namespace PodSection

def shape : RecordShape :=
  ⟨"struct PodConfig", ["type", "count", "strategy", "env", "tasks"]⟩

def toDocument (pod : PodSection) : Document :=
  .table [
    ("type", .text pod.podType),
    ("count", .ofWord32 pod.count),
    ("strategy", .ofOption StrategyKind.toDocument pod.strategy),
    ("env", .ofOption Environment.toDocument pod.environment),
    ("tasks", .ofList TaskSection.toDocument pod.tasks)]

def read (dialect : Dialect) : Reader PodSection :=
  dialect.record shape fun fields =>
    PodSection.mk
      <$> fields.required "type" Reader.text
      <*> fields.required "count" Reader.word32
      <*> fields.optional "strategy" (StrategyKind.read dialect)
      <*> fields.optional "env" Environment.read
      <*> fields.withDefault "tasks" [] (Reader.listOf (TaskSection.read dialect))

end PodSection

namespace ServiceFile

def shape : RecordShape :=
  ⟨"struct ServiceConfig", ["service", "plan", "scheduler", "pods"]⟩

def toDocument (file : ServiceFile) : Document :=
  .table [
    ("service", file.service.toDocument),
    ("plan", .ofOption PlanSection.toDocument file.plan),
    ("scheduler", .ofOption SchedulerSection.toDocument file.scheduler),
    ("pods", .ofList PodSection.toDocument file.pods)]

def read (dialect : Dialect) : Reader ServiceFile :=
  dialect.record shape fun fields =>
    ServiceFile.mk
      <$> fields.required "service" (ServiceSection.read dialect)
      <*> fields.optional "plan" (PlanSection.read dialect)
      <*> fields.optional "scheduler" (SchedulerSection.read dialect)
      <*> fields.withDefault "pods" [] (Reader.listOf (PodSection.read dialect))

end ServiceFile

end Rollout
