import Rollout.Proofs.Step.Actions

/-! Histories of a single step: everything that can be asked of it, in any order, with any
recommendations and reports.  A history is a list of calls; its trace also holds the steps in
between, so that it can be said what has been so since a certain event. -/

namespace Rollout

/-- Something began, and has been kept by all that came after it. -/
def Since {α : Type} (begins keeps : α → Prop) (history : List α) : Prop :=
  ∃ before event after, history = before ++ event :: after ∧ begins event ∧
    ∀ later ∈ after, keeps later

section

variable {α : Type} {begins keeps : α → Prop}

theorem not_since_nil : ¬ Since begins keeps [] := by
  rintro ⟨before, event, after, same, _⟩
  cases before <;> cases same

theorem concat_eq_append_cons_iff {history before after : List α} {last event : α} :
    history ++ [last] = before ++ event :: after ↔
      (history = before ∧ last = event ∧ after = []) ∨
        ∃ inner, history = before ++ event :: inner ∧ after = inner ++ [last] := by
  constructor
  · intro same
    rcases List.eq_nil_or_concat after with none | ⟨inner, final, shape⟩
    · subst none
      obtain ⟨earlier, ends⟩ := List.append_inj' same rfl
      exact Or.inl ⟨earlier, List.singleton_inj.mp ends, rfl⟩
    · rw [List.concat_eq_append] at shape
      subst shape
      rw [← List.cons_append, ← List.append_assoc] at same
      obtain ⟨earlier, ends⟩ := List.append_inj' same rfl
      cases ends
      exact Or.inr ⟨inner, earlier, rfl⟩
  · rintro (⟨rfl, rfl, rfl⟩ | ⟨inner, rfl, rfl⟩)
    · rfl
    · rw [List.append_assoc, List.cons_append]

theorem since_concat_iff {history : List α} {last : α} :
    Since begins keeps (history ++ [last]) ↔
      begins last ∨ Since begins keeps history ∧ keeps last := by
  constructor
  · rintro ⟨before, event, after, same, begun, kept⟩
    rcases concat_eq_append_cons_iff.mp same with ⟨_, rfl, _⟩ | ⟨inner, earlier, rfl⟩
    · exact Or.inl begun
    · refine Or.inr ⟨⟨before, event, inner, earlier, begun, ?_⟩, ?_⟩
      · exact fun later member => kept later (List.mem_append_left _ member)
      · exact kept last (List.mem_append_right _ (List.mem_singleton.mpr rfl))
  · rintro (begun | ⟨⟨before, event, after, same, begun, kept⟩, lastKeeps⟩)
    · refine ⟨history, last, [], rfl, begun, ?_⟩
      intro later impossible
      cases impossible
    · refine ⟨before, event, after ++ [last], ?_, begun, ?_⟩
      · rw [same, List.append_assoc, List.cons_append]
      · intro later member
        rcases List.mem_append.mp member with inner | final
        · exact kept later inner
        · rw [List.mem_singleton.mp final]
          exact lastKeeps

end

namespace Step

/-- What can be asked of a step: its requirement, which changes nothing, or a change. -/
inductive Call where
  | start
  | act (action : Action)

def call (step : Step) : Call → Step
  | .start => step
  | .act action => step.act action

def run (step : Step) (calls : List Call) : Step :=
  calls.foldl call step

def trace (step : Step) : List Call → List (Call × Step)
  | [] => []
  | request :: rest => (request, step.call request) :: trace (step.call request) rest

theorem run_concat (step : Step) (calls : List Call) (last : Call) :
    step.run (calls ++ [last]) = (step.run calls).call last := by
  rw [run, List.foldl_append]
  rfl

theorem trace_concat (step : Step) (calls : List Call) (last : Call) :
    step.trace (calls ++ [last]) =
      step.trace calls ++ [(last, (step.run calls).call last)] := by
  induction calls generalizing step with
  | nil => rfl
  | cons request rest ih => exact congrArg _ (ih (step.call request))

theorem run_induct {motive : Step → Prop} (permitted : Call → Prop)
    (keeps : ∀ step request, permitted request → motive step → motive (step.call request))
    {step : Step} (start : motive step) {calls : List Call}
    (allowed : ∀ request ∈ calls, permitted request) : motive (step.run calls) := by
  induction calls generalizing step with
  | nil => exact start
  | cons request rest ih =>
      apply ih (keeps step request (allowed request List.mem_cons_self) start)
      exact fun other member => allowed other (List.mem_cons_of_mem _ member)

theorem call_requirement (step : Step) (request : Call) :
    (step.call request).requirement = step.requirement := by
  cases request with
  | start => rfl
  | act action => exact step.act_requirement action

end Step

end Rollout
