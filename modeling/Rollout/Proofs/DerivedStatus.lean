import Mathlib.Data.List.Induction
import Rollout.Proofs.Step.Coherence

/-! The status of a step can be told from its tracked tasks and the prepared flag.  With tasks it
is the least of theirs.  Without tasks it is prepared or pending, as the flag says; only a
completion by force, which leaves no other mark on a step without tasks, has to be looked up in
the history.  The flag in turn says that an offer was taken since the step was last pending. -/

namespace Rollout.Step

/-! ### What the history tells -/

def Call.IsOffer : Call → Prop
  | .act (.offer _) => True
  | _ => False

/-- An offer and a restart end what a completion by force has declared. -/
def Call.Resets : Call → Prop
  | .act (.offer _) => True
  | .act .restart => True
  | _ => False

/-- The step was completed by force, and neither restarted nor offered to since. -/
def Forced (calls : List Call) : Prop :=
  Since (fun request => request = .act .complete) (fun request => ¬ request.Resets) calls

def OfferedSincePending (step : Step) (calls : List Call) : Prop :=
  Since (fun entry => entry.1.IsOffer ∧ entry.2.status ≠ .pending)
    (fun entry => entry.2.status ≠ .pending) (step.trace calls)

theorem forced_concat_iff {calls : List Call} {last : Call} :
    Forced (calls ++ [last]) ↔ last = .act .complete ∨ Forced calls ∧ ¬ last.Resets :=
  since_concat_iff

theorem offeredSincePending_concat_iff {step : Step} {calls : List Call} {last : Call} :
    step.OfferedSincePending (calls ++ [last]) ↔
      last.IsOffer ∧ ((step.run calls).call last).status ≠ .pending ∨
        step.OfferedSincePending calls ∧ ((step.run calls).call last).status ≠ .pending := by
  unfold OfferedSincePending
  rw [trace_concat, since_concat_iff]

/-! ### The flag -/

theorem Coherent.offered {step : Step} (coherent : step.Coherent) {request : Call}
    (offers : request.IsOffer) :
    (step.call request).prepared = true ∧ (step.call request).status ≠ .pending := by
  match request, offers with
  | .act (.offer recommendations), _ =>
      exact ⟨rfl, (coherent.updateOffer recommendations).apart rfl⟩

/-- Only an offer raises the flag, and only pending takes it down. -/
theorem Coherent.prepared_call_iff {step : Step} (coherent : step.Coherent) {request : Call}
    (noOffer : ¬ request.IsOffer) :
    (step.call request).prepared = true ↔
      step.prepared = true ∧ (step.call request).status ≠ .pending := by
  have still : step.prepared = true ↔ step.prepared = true ∧ step.status ≠ .pending :=
    ⟨fun prepared => ⟨prepared, coherent.apart prepared⟩, fun both => both.1⟩
  cases request with
  | start => exact still
  | act action =>
      cases action with
      | offer recommendations => exact False.elim (noOffer trivial)
      | report report =>
          change (step.update report).prepared = true ↔
            step.prepared = true ∧ (step.update report).status ≠ .pending
          rcases update_cases step report with same | ⟨_, _, _, _, _, moved⟩
          · rw [same]
            exact still
          · rw [moved]
            exact settle_prepared_iff _
      | parameters values => exact still
      | restart =>
          have pending : step.restart.status = .pending := coherent.restingStatus_eq .pending
          constructor
          · intro impossible
            cases impossible
          · exact fun both => False.elim (both.2 pending)
      | complete =>
          have complete : step.forceComplete.status = .complete :=
            coherent.restingStatus_eq .complete
          refine ⟨fun prepared => ⟨prepared, fun pending => ?_⟩, fun both => both.1⟩
          have impossible := complete.symm.trans pending
          cases impossible

theorem Coherent.prepared_run_iff {step : Step} (coherent : step.Coherent)
    (unprepared : step.prepared = false) (calls : List Call) :
    (step.run calls).prepared = true ↔ step.OfferedSincePending calls := by
  -- on the last call, because the right-hand side looks back from the end
  induction calls using List.reverseRecOn with
  | nil =>
      constructor
      · intro prepared
        rw [show step.run [] = step from rfl, unprepared] at prepared
        cases prepared
      · exact fun offered => False.elim (not_since_nil offered)
  | append_singleton calls last ih =>
      have reached := coherent.run calls
      rw [run_concat, offeredSincePending_concat_iff, ← ih]
      by_cases offers : last.IsOffer
      · obtain ⟨prepared, unpending⟩ := reached.offered offers
        exact ⟨fun _ => Or.inl ⟨offers, unpending⟩, fun _ => prepared⟩
      · rw [reached.prepared_call_iff offers]
        exact ⟨Or.inr, fun either => either.resolve_left fun begun => offers begun.1⟩

/-! ### Steps without tasks -/

/-- A step without tasks is complete under a standing completion by force, and has the
status that the flag implies otherwise. -/
structure Idle (step : Step) (calls : List Call) : Prop where
  forced : Forced calls → step.status = .complete
  waiting : ¬ Forced calls → step.status = step.derivedStatus

theorem Idle.still {step : Step} {calls : List Call} (idle : Idle step calls) {last : Call}
    (others : last ≠ .act .complete) (keeps : ¬ last.Resets) : Idle step (calls ++ [last]) where
  forced := by
    intro forced
    rcases forced_concat_iff.mp forced with completes | ⟨before, _⟩
    · exact False.elim (others completes)
    · exact idle.forced before
  waiting := by
    intro unforced
    exact idle.waiting fun before => unforced (forced_concat_iff.mpr (Or.inr ⟨before, keeps⟩))

theorem idle_reset {step : Step} (calls : List Call) {last : Call} (resets : last.Resets)
    (derived : step.status = step.derivedStatus) : Idle step (calls ++ [last]) where
  waiting := fun _ => derived
  forced := by
    intro forced
    rcases forced_concat_iff.mp forced with completes | ⟨_, keeps⟩
    · rw [completes] at resets
      exact False.elim resets
    · exact False.elim (keeps resets)

theorem Coherent.idle_run {step : Step} (coherent : step.Coherent)
    (start : step.status = step.derivedStatus) (calls : List Call)
    (untracked : (step.run calls).tasks = []) : Idle (step.run calls) calls := by
  induction calls using List.reverseRecOn with
  | nil => exact ⟨fun forced => False.elim (not_since_nil forced), fun _ => start⟩
  | append_singleton calls last ih =>
      rw [run_concat] at untracked ⊢
      have reached := coherent.run calls
      generalize step.run calls = current at ih untracked reached ⊢
      cases last with
      | start => exact (ih untracked).still (by simp) id
      | act action =>
          cases action with
          | offer recommendations =>
              exact idle_reset calls trivial (updateOffer_status current recommendations)
          | report report =>
              -- a report adds and removes no task, and without tasks it is ignored
              have before : current.tasks = [] := by
                have descriptors := (update_frame current report).2.2.2.2
                rw [show (current.update report).tasks = [] from untracked] at descriptors
                exact List.map_eq_nil_iff.mp descriptors.symm
              have same : current.update report = current := by
                apply update_of_untracked
                intro task member
                rw [before] at member
                cases member
              rw [show current.call (.act (.report report)) = current from same]
              exact (ih before).still (by simp) id
          | parameters values =>
              have still : Idle current (calls ++ [.act (.parameters values)]) :=
                (ih untracked).still (by simp) id
              exact ⟨still.forced, still.waiting⟩
          | restart => exact idle_reset calls trivial (reached.restingStatus_eq .pending)
          | complete =>
              refine ⟨fun _ => reached.restingStatus_eq .complete, fun unforced => ?_⟩
              exact False.elim (unforced (forced_concat_iff.mpr (Or.inl rfl)))

/-! ### Every history -/

structure StatusDerived (initial : Step) (calls : List Call) : Prop where
  /-- With tasks the status is the least of theirs. -/
  least : (initial.run calls).tasks ≠ [] →
    (∃ task ∈ (initial.run calls).tasks, task.status = (initial.run calls).status) ∧
      ∀ task ∈ (initial.run calls).tasks, (initial.run calls).status ≤ task.status
  /-- Without tasks only completion by force completes the step. -/
  forced_iff : (initial.run calls).tasks = [] →
    ((initial.run calls).status = .complete ↔ Forced calls)
  /-- Without tasks and force the flag decides. -/
  flagged : (initial.run calls).tasks = [] → ¬ Forced calls →
    (initial.run calls).status =
      if (initial.run calls).prepared then .prepared else .pending
  /-- The flag stands for an offer since the step was last pending. -/
  prepared_iff : (initial.run calls).prepared = true ↔ initial.OfferedSincePending calls
  /-- A pending step is not prepared. -/
  apart : ¬ ((initial.run calls).prepared = true ∧ (initial.run calls).status = .pending)
  /-- Neither a task nor the step is in error. -/
  sound : (∀ task ∈ (initial.run calls).tasks, task.status ≠ .error) ∧
    (initial.run calls).status ≠ .error
  /-- The statuses of the tasks are never a mixture without a rule, so that the previous
  status is not asked for. -/
  ruled : (initial.run calls).tasks ≠ [] →
    Status.rule? ((initial.run calls).tasks.map (·.status)) = some (initial.run calls).status

theorem statusDerived_of_coherent {initial : Step} (coherent : initial.Coherent)
    (untracked : initial.tasks = []) (unprepared : initial.prepared = false)
    (pending : initial.status = .pending) (calls : List Call) :
    StatusDerived initial calls := by
  have reached := coherent.run calls
  have start : initial.status = initial.derivedStatus := by
    rw [derivedStatus_of_untracked untracked, unprepared]
    exact pending
  have idle := coherent.idle_run start calls
  have flagged : (initial.run calls).tasks = [] → ¬ Forced calls →
      (initial.run calls).status =
        if (initial.run calls).prepared then .prepared else .pending := by
    intro none unforced
    rw [(idle none).waiting unforced, derivedStatus_of_untracked none]
  have forced_iff : (initial.run calls).tasks = [] →
      ((initial.run calls).status = .complete ↔ Forced calls) := by
    intro none
    refine ⟨fun complete => ?_, (idle none).forced⟩
    by_contra unforced
    have status := flagged none unforced
    rw [complete] at status
    split at status <;> cases status
  refine ⟨?_, forced_iff, flagged, coherent.prepared_run_iff unprepared calls,
    fun both => reached.apart both.1 both.2, ⟨reached.sound, ?_⟩, ?_⟩
  · exact fun tracked => ⟨reached.exists_status_eq tracked, fun _ => reached.status_le⟩
  · intro failed
    by_cases none : (initial.run calls).tasks = []
    · by_cases forced : Forced calls
      · rw [(idle none).forced forced] at failed
        cases failed
      · rw [flagged none forced] at failed
        split at failed <;> cases failed
    · obtain ⟨task, member, same⟩ := reached.exists_status_eq none
      exact reached.sound task member (same.trans failed)
  · intro tracked
    have occupied : (initial.run calls).tasks.map (·.status) ≠ [] := by simpa using tracked
    rw [Status.rule?_eq_aggregate occupied (initial.run calls).status,
      ← derivedStatus_of_tasks tracked, ← reached.derived tracked]

/-- In every history of a step that is built pending and valid, its status can be told
from its tasks, its flag and a completion by force that still stands. -/
theorem status_derived_of_history (name : String) (requirement : Requirement)
    (calls : List Call) : StatusDerived (.new name .pending requirement []) calls :=
  statusDerived_of_coherent (coherent_new name .pending requirement) rfl rfl rfl calls

end Rollout.Step
