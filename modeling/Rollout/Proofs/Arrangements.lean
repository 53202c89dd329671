import Mathlib.Data.List.Forall2
import Mathlib.Data.List.Nodup
import Mathlib.Data.List.Perm.Basic
import Rollout.Snapshot.Basic

/-! What a plan shows of its tasks.  A step shows them by name, and tasks of one name as they come
out of its map, which may give them in any order.  So one state can be shown in several ways, but
they have the same tasks under the same names in the same places; and there is only one way where
no step tracks two tasks of one name. -/

namespace Rollout

/-! ### Steps -/

theorem TrackedTask.byName_iff {a b : TrackedTask} :
    byName a b = true ↔ a.descriptor.name ≤ b.descriptor.name :=
  decide_eq_true_iff

namespace Step

theorem trackedTasks_perm (arrangement : Arrangement) (step : Step) :
    (step.trackedTasks arrangement).Perm step.tasks :=
  (List.mergeSort_perm _ TrackedTask.byName).trans (arrangement.perm step.tasks)

theorem mem_trackedTasks {arrangement : Arrangement} {step : Step} {task : TrackedTask} :
    task ∈ step.trackedTasks arrangement ↔ task ∈ step.tasks :=
  (step.trackedTasks_perm arrangement).mem_iff

theorem nodup_trackedTasks (arrangement : Arrangement) {step : Step}
    (distinct : (step.tasks.map TrackedTask.taskId).Nodup) :
    ((step.trackedTasks arrangement).map TrackedTask.taskId).Nodup :=
  ((step.trackedTasks_perm arrangement).map TrackedTask.taskId).nodup_iff.mpr distinct

theorem trackedTasks_perm_of_any (first second : Arrangement) (step : Step) :
    (step.trackedTasks first).Perm (step.trackedTasks second) :=
  (step.trackedTasks_perm first).trans (step.trackedTasks_perm second).symm

theorem pairwise_trackedTasks (arrangement : Arrangement) (step : Step) :
    (step.trackedTasks arrangement).Pairwise
      fun a b => a.descriptor.name ≤ b.descriptor.name := by
  refine List.Pairwise.imp TrackedTask.byName_iff.mp (List.pairwise_mergeSort ?_ ?_ _)
  · intro a b c before after
    rw [TrackedTask.byName_iff] at before after ⊢
    exact String.le_trans before after
  · intro a b
    rw [Bool.or_eq_true, TrackedTask.byName_iff, TrackedTask.byName_iff]
    exact String.le_total a.descriptor.name b.descriptor.name

theorem names_trackedTasks (first second : Arrangement) (step : Step) :
    (step.trackedTasks first).map (·.descriptor.name) =
      (step.trackedTasks second).map (·.descriptor.name) := by
  refine List.Perm.eq_of_pairwise (fun _ _ _ _ => String.le_antisymm)
    (List.pairwise_map.mpr (step.pairwise_trackedTasks first))
    (List.pairwise_map.mpr (step.pairwise_trackedTasks second)) ?_
  exact (step.trackedTasks_perm_of_any first second).map _

/-- Tasks of different names leave no choice. -/
theorem trackedTasks_eq_of_distinct {step : Step}
    (distinct : (step.tasks.map (·.descriptor.name)).Nodup) (first second : Arrangement) :
    step.trackedTasks first = step.trackedTasks second := by
  refine List.Perm.eq_of_pairwise ?_ (step.pairwise_trackedTasks first)
    (step.pairwise_trackedTasks second) (step.trackedTasks_perm_of_any first second)
  intro a b inFirst inSecond before after
  exact List.inj_on_of_nodup_map distinct (mem_trackedTasks.mp inFirst)
    (mem_trackedTasks.mp inSecond) (String.le_antisymm before after)

end Step

/-! ### Snapshots -/

namespace Snapshot

/-- The same tree, but for the order among tasks of one name. -/
inductive Alike : Snapshot → Snapshot → Prop where
  | node {name : String} {status : Status} {strategy : Option StrategyKind}
      {errors : List String} {children others : List Snapshot} {tasks shown : List TaskSnapshot}
      (parts : List.Forall₂ Alike children others) (perm : tasks.Perm shown)
      (names : tasks.map (·.name) = shown.map (·.name)) :
      Alike (.node name status strategy errors children tasks)
        (.node name status strategy errors others shown)

theorem forall₂_map {α : Type} {f g : α → Snapshot} {parts : List α}
    (each : ∀ part ∈ parts, Alike (f part) (g part)) :
    List.Forall₂ Alike (parts.map f) (parts.map g) := by
  rw [List.forall₂_map_left_iff, List.forall₂_map_right_iff, List.forall₂_same]
  exact each

theorem alike_ofStep (first second : Arrangement) (step : Step) :
    Alike (ofStep first step) (ofStep second step) := by
  refine .node .nil ((step.trackedTasks_perm_of_any first second).map _) ?_
  rw [List.map_map, List.map_map]
  exact step.names_trackedTasks first second

theorem alike_ofPhase (first second : Arrangement) (phase : Phase Step) :
    Alike (ofPhase first phase) (ofPhase second phase) :=
  .node (forall₂_map fun step _ => alike_ofStep first second step) .nil rfl

end Snapshot

/-! ### Plans -/

namespace Plan

theorem tracked_perm (arrangement : Arrangement) (plan : Plan Step) :
    (plan.steps.flatMap (Step.trackedTasks arrangement)).Perm (plan.steps.flatMap (·.tasks)) :=
  List.Perm.flatMap_left plan.steps fun step _ => step.trackedTasks_perm arrangement

theorem alike_snapshot (first second : Arrangement) (plan : Plan Step) :
    Snapshot.Alike (plan.snapshot first) (plan.snapshot second) :=
  .node (Snapshot.forall₂_map fun phase _ => Snapshot.alike_ofPhase first second phase) .nil rfl

theorem snapshot_eq_of_trackedTasks_eq {first second : Arrangement} {plan : Plan Step}
    (same : ∀ step ∈ plan.steps, step.trackedTasks first = step.trackedTasks second) :
    plan.snapshot first = plan.snapshot second := by
  refine congrArg (Snapshot.node _ _ _ _ · []) (List.map_congr_left fun phase inPlan => ?_)
  refine congrArg (Snapshot.node _ _ _ _ · []) (List.map_congr_left fun step inPhase => ?_)
  have shown := same step (List.mem_flatMap.mpr ⟨phase, inPlan, inPhase⟩)
  exact congrArg (fun tasks => Snapshot.node step.name step.status none step.errors []
    (tasks.map TaskSnapshot.ofTracked)) shown

/-- Two plans show the same, but for the order among tasks of one name. -/
structure ShownAlike (plan : Plan Step) (first : Arrangement) (other : Plan Step)
    (second : Arrangement) : Prop where
  tasks : List.Forall₂
    (fun a b => (a.trackedTasks first).Perm (b.trackedTasks second) ∧
      (a.trackedTasks first).map (·.descriptor.name) =
        (b.trackedTasks second).map (·.descriptor.name))
    plan.steps other.steps
  snapshots : Snapshot.Alike (plan.snapshot first) (other.snapshot second)
  /-- It is the same in one order, and in any where no step tracks two tasks of one name. -/
  exactly : (first = second ∨
      ∀ step ∈ plan.steps, (step.tasks.map (·.descriptor.name)).Nodup) →
    plan.steps.map (Step.trackedTasks first) = other.steps.map (Step.trackedTasks second) ∧
      plan.snapshot first = other.snapshot second

theorem shownAlike (plan : Plan Step) (first second : Arrangement) :
    plan.ShownAlike first plan second where
  tasks := List.forall₂_same.mpr fun step _ =>
    ⟨step.trackedTasks_perm_of_any first second, step.names_trackedTasks first second⟩
  snapshots := plan.alike_snapshot first second
  exactly := by
    intro fixed
    have same : ∀ step ∈ plan.steps, step.trackedTasks first = step.trackedTasks second := by
      intro step member
      rcases fixed with rfl | distinct
      · rfl
      · exact Step.trackedTasks_eq_of_distinct (distinct step member) first second
    exact ⟨List.map_congr_left same, snapshot_eq_of_trackedTasks_eq same⟩

end Plan

end Rollout
