import Rollout.Plan.Routing
import Rollout.Proofs.Plan.Locations
import Rollout.Proofs.Step.Actions
import Rollout.Proofs.TaskIds

/-! Routing a report by the task name inside its id reaches every step that would take it. The
router compares full names, a step resolves the id on its own; both accept the same ids, so that
telling the report to every step makes the same plan. -/

namespace Rollout

namespace Step

theorem owns_of_goalOf {step : Step} {id : TaskId} {fullName : String} {goal : Goal}
    (named : id.resolve = .ok fullName) (resolved : step.goalOf id = .ok goal) :
    step.owns fullName = true := by
  unfold goalOf at resolved
  rw [named] at resolved
  exact PodInstance.owns_of_goalOf resolved

theorem receive_eq_update {report : TaskReport} {fullName : String}
    (named : report.taskId.resolve = .ok fullName) (step : Step) :
    step.receive fullName report = step.update report := by
  unfold receive
  split
  · rfl
  · rename_i foreign
    cases resolved : step.goalOf report.taskId with
    | error cause => exact (update_of_unresolved resolved).symm
    | ok goal => exact False.elim (foreign (owns_of_goalOf named resolved))

theorem update_of_malformed {report : TaskReport} {cause : LookupError}
    (malformed : report.taskId.resolve = .error cause) (step : Step) :
    step.update report = step := by
  refine update_of_unresolved (?_ : step.goalOf report.taskId = .error cause)
  unfold goalOf
  rw [malformed]
  rfl

end Step

namespace Plan

theorem route_eq_mapSteps (plan : Plan Step) (report : TaskReport) :
    plan.route report = plan.mapSteps (·.update report) := by
  unfold route
  split
  · rename_i cause malformed
    exact (mapSteps_eq_self fun _ step _ => Step.update_of_malformed malformed step).symm
  · rename_i fullName named
    have receives : Step.receive fullName report = (·.update report) :=
      funext (Step.receive_eq_update named)
    rw [receives]

/-- Routing loses nothing: the plan is the one in which every step, in order, was told
the report.  Nothing is assumed about the plan or the id. -/
theorem route_eq_broadcast (plan : Plan Step) (report : TaskReport) :
    plan.route report =
      plan.locations.foldl (fun plan location => plan.modifyAt location (·.update report))
        plan := by
  rw [foldl_modifyAt_locations, route_eq_mapSteps]

theorem stepAt?_route (plan : Plan Step) (report : TaskReport) (location : Location) :
    (plan.route report).stepAt? location =
      (plan.stepAt? location).map (·.update report) := by
  rw [route_eq_mapSteps, stepAt?_mapSteps]

end Plan

end Rollout
