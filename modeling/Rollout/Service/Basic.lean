import Rollout.Plan.Basic

/-! Service files: the pods of a service, the tasks in each, and the settings that the deployment
may take from the file.  What a file leaves out stays left out here; the defaults are given by
functions. -/

namespace Rollout

structure ServiceSection where
  name : String
  description : Option String
  deriving DecidableEq, Repr

structure PlanSection where
  strategy : Option StrategyKind
  deriving DecidableEq, Repr

structure SchedulerSection where
  passIntervalMs : Option UInt64
  statusChannelCapacity : Option UInt64
  deriving DecidableEq, Repr

structure TaskSection where
  name : String
  goal : Option Goal
  readinessCheck : Option ReadinessCheck
  deriving DecidableEq, Repr

structure PodSection where
  podType : String
  count : UInt32
  strategy : Option StrategyKind
  environment : Option Environment
  tasks : List TaskSection
  deriving DecidableEq, Repr

structure ServiceFile where
  service : ServiceSection
  plan : Option PlanSection
  scheduler : Option SchedulerSection
  pods : List PodSection
  deriving DecidableEq, Repr

namespace SchedulerSection

def empty : SchedulerSection := ⟨none, none⟩

def interval (scheduler : SchedulerSection) : UInt64 :=
  scheduler.passIntervalMs.getD 1000

def capacity (scheduler : SchedulerSection) : UInt64 :=
  scheduler.statusChannelCapacity.getD 256

end SchedulerSection

namespace TaskSection

def spec (task : TaskSection) : TaskSpec :=
  ⟨task.name, task.goal.getD .initial, task.readinessCheck⟩

end TaskSection

namespace PodSection

def taskSpecs (pod : PodSection) : List TaskSpec :=
  pod.tasks.map TaskSection.spec

def instances (pod : PodSection) : List PodInstance :=
  (List.range pod.count.toNat).map fun index =>
    ⟨pod.podType, UInt32.ofNat index, pod.taskSpecs⟩

end PodSection

namespace ServiceFile

def planStrategy (file : ServiceFile) : StrategyKind :=
  (file.plan.bind (·.strategy)).getD .initial

def settings (file : ServiceFile) : SchedulerSection :=
  file.scheduler.getD .empty

def scaffold (name podType : String) (count : UInt32) : ServiceFile where
  service := ⟨name, none⟩
  plan := some ⟨some .serial⟩
  scheduler := none
  pods := [
    { podType
      count
      strategy := some .serial
      environment := none
      tasks := [⟨"server", some .running, none⟩] }]

end ServiceFile

end Rollout
