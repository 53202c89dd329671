import Rollout.CommandLine.Outcome

/-! What can keep a rehearsal from beginning.  A plan is validated without a look at the scheduler
section of its file, while a rehearsal makes a channel of the capacity that the section gives, and
a deadline on the clock.  So a file that passes validation is rehearsed exactly when the channel
and the deadline can be made; nothing else ends the run abruptly. -/

namespace Rollout

namespace Rehearsal

structure Feasible (settings : SchedulerSection) (clock timeoutSecs : Nat) : Prop where
  room : 0 < settings.capacity.toNat
  permits : settings.capacity.toNat < channelLimit
  deadline : clock + timeoutSecs ≤ clockEnd

def shortfall (last : Plan Step) (timeoutSecs : Nat) : Option RehearsalError :=
  if last.isComplete then none else some (.unfinished timeoutSecs last.status)

variable {plan : Plan Step} {settings : SchedulerSection} {clock timeoutSecs : Nat}

theorem run_of_feasible (suffix : Nat → String) (arrangement : Arrangement)
    (valid : plan.invalidSteps = [])
    (feasible : Feasible settings clock timeoutSecs) (failing : List String) :
    ∃ last, run suffix arrangement clock settings plan failing timeoutSecs =
      .ended last (shortfall last timeoutSecs) := by
  have made : (Capacity.ofNat? settings.capacity.toNat).isSome = true :=
    Capacity.ofNat?_isSome_iff.mpr ⟨feasible.room, feasible.permits⟩
  obtain ⟨capacity, made⟩ := Option.isSome_iff_exists.mp made
  have inTime : ¬ clockEnd < clock + timeoutSecs := Nat.not_lt.mpr feasible.deadline
  simp only [run, valid, List.isEmpty_nil, Bool.not_true, Bool.false_eq_true, if_false, made,
    if_neg inTime]
  exact ⟨_, rfl⟩

theorem run_of_not_feasible (suffix : Nat → String) (arrangement : Arrangement)
    (valid : plan.invalidSteps = [])
    (infeasible : ¬ Feasible settings clock timeoutSecs) (failing : List String) :
    run suffix arrangement clock settings plan failing timeoutSecs = .aborted := by
  simp only [run, valid, List.isEmpty_nil, Bool.not_true, Bool.false_eq_true, if_false]
  cases made : Capacity.ofNat? settings.capacity.toNat with
  | none => rfl
  | some capacity =>
      have fits := Capacity.ofNat?_isSome_iff.mp (Option.isSome_of_eq_some made)
      have late : clockEnd < clock + timeoutSecs :=
        Nat.lt_of_not_le fun inTime => infeasible ⟨fits.1, fits.2, inTime⟩
      exact if_pos late

end Rehearsal

namespace CommandLine

open Rehearsal (Feasible shortfall)

theorem Outcome.printed_ending_eq_success_iff {output : String} {complaint : Option String} :
    (printed output complaint).ending = .success ↔ complaint = none := by
  cases complaint <;> simp [printed]

theorem Outcome.validation_ending_eq_success_iff {arrangement : Arrangement}
    {file : ServiceFile} {format : Format} :
    (validation arrangement file format).ending = .success ↔
      ∃ plan, Plan.ofService file = .ok plan ∧ plan.invalidSteps = [] := by
  unfold validation
  cases built : Plan.ofService file with
  | error cause => simp [failed]
  | ok plan => simp [printed_ending_eq_success_iff]

theorem Outcome.printed_ending_ne_aborted (output : String) (complaint : Option String) :
    (printed output complaint).ending ≠ .aborted := by
  cases complaint <;> simp [printed]

variable {suffix : Nat → String} {arrangement : Arrangement} {clock : Nat}
  {content : Except FileError ByteArray} {file : ServiceFile} {plan : Plan Step}

theorem Job.validated_iff {format : Format} :
    ((Job.validate format).run suffix arrangement clock content).ending = .success ↔
      ∃ file plan, ServiceFile.load content = .ok file ∧ Plan.ofService file = .ok plan ∧
        plan.invalidSteps = [] := by
  unfold run
  cases loaded : ServiceFile.load content with
  | error cause => simp [Outcome.failed]
  | ok file => simp [Outcome.validation_ending_eq_success_iff]

/-- How the rehearsals of a file end, for all lists of failing tasks, timeouts and formats. -/
structure Rehearses (suffix : Nat → String) (arrangement : Arrangement) (clock : Nat)
    (content : Except FileError ByteArray) (settings : SchedulerSection) : Prop where
  aborts : ∀ failing timeoutSecs format,
    ((Job.simulate failing timeoutSecs format).run suffix arrangement clock content).ending =
        .aborted ↔
      ¬ Feasible settings clock timeoutSecs
  silent : ∀ failing timeoutSecs format, ¬ Feasible settings clock timeoutSecs →
    ((Job.simulate failing timeoutSecs format).run suffix arrangement clock content).output = ""
  /-- The run shows how far it came, and complains of nothing else than the time. -/
  shows : ∀ failing timeoutSecs format, Feasible settings clock timeoutSecs →
    ∃ last, (Job.simulate failing timeoutSecs format).run suffix arrangement clock content =
      .printed (format.show arrangement last)
        ((shortfall last timeoutSecs).map RehearsalError.message)

theorem Job.simulate_of_feasible (loaded : ServiceFile.load content = .ok file)
    (built : Plan.ofService file = .ok plan) (valid : plan.invalidSteps = []) {timeoutSecs : Nat}
    (feasible : Feasible file.settings clock timeoutSecs) (failing : List String)
    (format : Format) :
    ∃ last, (Job.simulate failing timeoutSecs format).run suffix arrangement clock content =
      .printed (format.show arrangement last)
        ((shortfall last timeoutSecs).map RehearsalError.message) := by
  obtain ⟨last, ended⟩ := Rehearsal.run_of_feasible suffix arrangement valid feasible failing
  exact ⟨last, by simp only [run, loaded, Outcome.simulation, built, ended]⟩

theorem Job.simulate_of_not_feasible (loaded : ServiceFile.load content = .ok file)
    (built : Plan.ofService file = .ok plan) (valid : plan.invalidSteps = []) {timeoutSecs : Nat}
    (infeasible : ¬ Feasible file.settings clock timeoutSecs) (failing : List String)
    (format : Format) :
    (Job.simulate failing timeoutSecs format).run suffix arrangement clock content =
      ⟨"", .aborted⟩ := by
  have ended := Rehearsal.run_of_not_feasible suffix arrangement valid infeasible failing
  simp only [run, loaded, Outcome.simulation, built, ended]

/-- A file that passes validation is rehearsed exactly when its channel and the deadline can
be made, in whatever order the tasks then come. -/
theorem rehearses_of_validated {format : Format}
    (validated : ((Job.validate format).run suffix arrangement clock content).ending = .success) :
    ∃ file, ServiceFile.load content = .ok file ∧
      ∀ order, Rehearses suffix order clock content file.settings := by
  obtain ⟨file, plan, loaded, built, valid⟩ := Job.validated_iff.mp validated
  refine ⟨file, loaded, fun order => ?_⟩
  have shows := @Job.simulate_of_feasible suffix order clock _ _ _ loaded built valid
  have silent := @Job.simulate_of_not_feasible suffix order clock _ _ _ loaded built valid
  refine ⟨?_, ?_, ?_⟩
  · intro failing timeoutSecs shown
    constructor
    · intro aborted feasible
      obtain ⟨last, same⟩ := shows feasible failing shown
      rw [same] at aborted
      exact Outcome.printed_ending_ne_aborted _ _ aborted
    · intro infeasible
      rw [silent infeasible]
  · intro failing timeoutSecs shown infeasible
    rw [silent infeasible]
  · intro failing timeoutSecs shown feasible
    exact shows feasible failing shown

def roomless : Except FileError ByteArray :=
  .ok ("[service]\nname = \"search\"\n\n[scheduler]\nstatus_channel_capacity = 0\n\n" ++
    "[[pods]]\ntype = \"index\"\ncount = 1\n\n[[pods.tasks]]\nname = \"server\"\n").toUTF8

theorem validated_roomless :
    ((Job.validate .text).run Nat.repr .byId 0 roomless).ending = .success := by
  decide +kernel

theorem rehearses_of_roomless :
    ((Job.validate .text).run Nat.repr .byId 0 roomless).ending = .success ∧
      ∃ file, ServiceFile.load roomless = .ok file ∧
        ∀ order, Rehearses Nat.repr order 0 roomless file.settings :=
  ⟨validated_roomless, rehearses_of_validated validated_roomless⟩

/-- Validation does not see that there is no room, and the rehearsal ends abruptly. -/
theorem aborts_after_validation :
    ¬ ∀ (suffix : Nat → String) (arrangement : Arrangement) (clock : Nat)
        (content : Except FileError ByteArray),
      ((Job.validate .text).run suffix arrangement clock content).ending = .success →
        ∀ failing,
          ((Job.simulate failing 30 .text).run suffix arrangement clock content).ending ≠
            .aborted := by
  intro rehearsed
  exact rehearsed Nat.repr .byId 0 roomless validated_roomless [] (by decide +kernel)

end CommandLine

end Rollout
