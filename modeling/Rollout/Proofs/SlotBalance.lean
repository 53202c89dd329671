import Rollout.Proofs.Offer.Slots
import Rollout.Proofs.Progress
import Rollout.Proofs.Restarts

/-! A plan in operation on a pool of slots.  To the pool every history of the plan is a history of
calls: the demands of the steps that each pass hands out, in order, and the slots given back in
between.  A built plan demands tasks that the pod has, and at least one; so no demand fails, each
match is reported as a launch, and the slots bound the launches of the whole history. -/

namespace Rollout

namespace Operation

/-- Passes ask the pool, and between them the pool gets slots back. -/
def Draws (suffix : Nat → String) : Operation SlotPool → Prop
  | .pass evaluate _ => evaluate = SlotPool.evaluate suffix
  | .attend change => change = SlotPool.release
  | _ => True

def attends {σ : Type} : Operation σ → Bool
  | .attend _ => true
  | _ => false

end Operation

/-! ### Calls -/

namespace SlotPool

theorem serve_evaluate (suffix : Nat → String) (pool : SlotPool)
    (requirements : List Requirement) :
    serve suffix pool (requirements.map .evaluate) =
      (evaluate suffix).answers pool requirements := by
  induction requirements generalizing pool with
  | nil => rfl
  | cons requirement rest ih => simp only [List.map_cons, serve, Evaluator.answers, ih]

end SlotPool

namespace Session

def callsBy (session : Session SlotPool) : Operation SlotPool → List SlotPool.Call
  | .pass _ dirty => ((session.plan.handedOut dirty).map Step.demand).map .evaluate
  | .attend _ => [.release]
  | _ => []

def calls (session : Session SlotPool) : List (Operation SlotPool) → List SlotPool.Call
  | [] => []
  | operation :: rest => session.callsBy operation ++ (session.perform operation).calls rest

variable {suffix : Nat → String} {session : Session SlotPool}

theorem evaluator_perform {operation : Operation SlotPool} (draws : operation.Draws suffix) :
    (session.perform operation).evaluator =
      (SlotPool.serve suffix session.evaluator (session.callsBy operation)).2 := by
  cases operation with
  | pass evaluate dirty =>
      cases draws
      rw [callsBy, SlotPool.serve_evaluate]
      exact (session.plan.visited_runPass _ session.evaluator dirty).evaluator
  | attend change =>
      cases draws
      rfl
  | _ => rfl

theorem countP_releases_callsBy (operation : Operation SlotPool) :
    (session.callsBy operation).countP SlotPool.Call.releases =
      if operation.attends then 1 else 0 := by
  cases operation with
  | pass evaluate dirty =>
      rw [callsBy, List.map_map, List.countP_map]
      exact List.countP_eq_zero.mpr fun _ _ => Bool.false_ne_true
  | _ => rfl

end Session

/-! ### Reports -/

theorem PassReport.length_launched_ofOutcomes (entries : List (String × Evaluation)) :
    (ofOutcomes entries).launched.length = (entries.map (·.2)).countP Evaluation.launches := by
  rw [ofOutcomes, List.length_map, ← List.countP_eq_length_filter, List.countP_map]
  rfl

theorem PassReport.failed_ofOutcomes_eq_nil {entries : List (String × Evaluation)}
    (sound : ∀ outcome ∈ entries.map (·.2), outcome.isOk = true) :
    (ofOutcomes entries).failed = [] := by
  rw [ofOutcomes, List.map_eq_nil_iff, List.filter_eq_nil_iff]
  intro entry member
  simp [sound entry.2 (List.mem_map_of_mem member)]

theorem Plan.map_snd_verdicts {σ : Type} (plan : Plan Step) (evaluate : Evaluator σ) (state : σ)
    (dirty : List String) :
    (plan.verdicts evaluate state dirty).map (·.2) =
      (evaluate.answers state ((plan.handedOut dirty).map Step.demand)).1 := by
  apply List.map_snd_zip
  rw [Evaluator.length_answers, List.length_map]

/-- The outcome is not a failure, and a match holds a launch. -/
def Evaluation.Serves (outcome : Evaluation) : Prop :=
  outcome.isOk = true ∧ Evaluation.launches outcome = Evaluation.matched outcome

/-- A step with known tasks is served, whether or not there is a slot for it. -/
theorem Step.Launchable.serves {step : Step} (launchable : step.Launchable)
    (suffix : Nat → String) (pool : SlotPool) :
    Evaluation.Serves (SlotPool.evaluate suffix step.demand pool).1 := by
  by_cases exhausted : pool.free = some 0
  · rw [SlotPool.evaluate_of_exhausted suffix step.demand exhausted launchable.known]
    exact ⟨rfl, rfl⟩
  · obtain ⟨tasks, same, each⟩ :=
      SlotPool.evaluate_of_known suffix step.demand exhausted launchable.known
    obtain ⟨task, launch⟩ := SlotPool.exists_launch each launchable.asks
    rw [same]
    exact ⟨rfl, List.any_eq_true.mpr ⟨_, List.mem_cons_of_mem _ launch, rfl⟩⟩

namespace Plan

/-- A pass on a pool reports one launch for each match, and no failure. -/
theorem report_runPass_of_pool (suffix : Nat → String) {file : ServiceFile}
    {plan reached : Plan Step} (built : ofService file = .ok plan)
    (same : reached.declared = plan) (pool : SlotPool) (dirty : List String) :
    (reached.runPass (SlotPool.evaluate suffix) pool dirty).report.failed = [] ∧
      (reached.runPass (SlotPool.evaluate suffix) pool dirty).report.launched.length =
        ((SlotPool.evaluate suffix).answers pool
          ((reached.handedOut dirty).map Step.demand)).1.countP Evaluation.matched := by
  have answer : ∀ requirement ∈ (reached.handedOut dirty).map Step.demand,
      ∀ state : SlotPool, True →
        Evaluation.Serves (SlotPool.evaluate suffix requirement state).1 ∧ True := by
    intro requirement member state _
    obtain ⟨step, rfl, launchable⟩ := exists_launchable_of_mem_demands built same member
    exact ⟨launchable.serves suffix state, trivial⟩
  have served : ∀ outcome ∈ ((SlotPool.evaluate suffix).answers pool
      ((reached.handedOut dirty).map Step.demand)).1, Evaluation.Serves outcome :=
    Evaluator.forall_answers (fun _ => True) Evaluation.Serves answer trivial
  have listed : ((reached.verdicts (SlotPool.evaluate suffix) pool dirty).map
      fun verdict => (verdict.1.name, verdict.2)).map (·.2) =
      ((SlotPool.evaluate suffix).answers pool ((reached.handedOut dirty).map Step.demand)).1 := by
    rw [List.map_map, ← reached.map_snd_verdicts]
    rfl
  rw [report_runPass]
  constructor
  · apply PassReport.failed_ofOutcomes_eq_nil
    rw [listed]
    exact fun outcome member => (served outcome member).1
  · rw [PassReport.length_launched_ofOutcomes, listed]
    apply List.countP_congr
    intro outcome member
    rw [(served outcome member).2]

end Plan

/-! ### Runs -/

namespace Session

/-- What the passes of a run report as launched, one entry for each report of a step. -/
def launchesReported {σ : Type} (session : Session σ) (operations : List (Operation σ)) :
    List String :=
  (session.passReports operations).flatMap (·.launched)

theorem passReports_cons {σ : Type} (session : Session σ) (operation : Operation σ)
    (rest : List (Operation σ)) : session.passReports (operation :: rest) =
      session.passReports [operation] ++ (session.perform operation).passReports rest := by
  simp only [passReports, List.append_nil]

variable {suffix : Nat → String}

theorem evaluator_run {operations : List (Operation SlotPool)}
    (draws : ∀ operation ∈ operations, operation.Draws suffix) (session : Session SlotPool) :
    (session.run operations).evaluator =
      (SlotPool.serve suffix session.evaluator (session.calls operations)).2 := by
  induction operations generalizing session with
  | nil => rfl
  | cons operation rest ih =>
      obtain ⟨now, later⟩ := List.forall_mem_cons.mp draws
      rw [calls, SlotPool.serve_append, ← evaluator_perform now]
      exact ih later (session.perform operation)

theorem countP_releases_calls (session : Session SlotPool)
    (operations : List (Operation SlotPool)) :
    (session.calls operations).countP SlotPool.Call.releases =
      operations.countP Operation.attends := by
  induction operations generalizing session with
  | nil => rfl
  | cons operation rest ih =>
      rw [calls, List.countP_append, countP_releases_callsBy, ih, List.countP_cons, Nat.add_comm]

theorem reports_perform {file : ServiceFile} {plan : Plan Step}
    (built : Plan.ofService file = .ok plan) {session : Session SlotPool}
    (same : session.plan.declared = plan) {operation : Operation SlotPool}
    (draws : operation.Draws suffix) :
    (∀ report ∈ session.passReports [operation], report.failed = []) ∧
      (session.launchesReported [operation]).length =
        (SlotPool.serve suffix session.evaluator (session.callsBy operation)).1.countP
          Evaluation.matched := by
  cases operation with
  | pass evaluate dirty =>
      cases draws
      obtain ⟨sound, launched⟩ :=
        Plan.report_runPass_of_pool suffix built same session.evaluator dirty
      constructor
      · exact List.forall_mem_singleton.mpr sound
      · rw [callsBy, SlotPool.serve_evaluate, ← launched]
        simp [launchesReported, passReports]
  | _ => exact ⟨List.forall_mem_nil _, rfl⟩

/-- Every match in the history of a built plan is reported as a launch, and none fails. -/
theorem reports_run {file : ServiceFile} {plan : Plan Step}
    (built : Plan.ofService file = .ok plan) {session : Session SlotPool}
    (same : session.plan.declared = plan) {operations : List (Operation SlotPool)}
    (draws : ∀ operation ∈ operations, operation.Draws suffix) :
    (∀ report ∈ session.passReports operations, report.failed = []) ∧
      (session.launchesReported operations).length =
        (SlotPool.serve suffix session.evaluator (session.calls operations)).1.countP
          Evaluation.matched := by
  induction operations generalizing session with
  | nil => exact ⟨List.forall_mem_nil _, rfl⟩
  | cons operation rest ih =>
      obtain ⟨now, later⟩ := List.forall_mem_cons.mp draws
      obtain ⟨sound, count⟩ := reports_perform built same now
      obtain ⟨soundAfter, countAfter⟩ :=
        ih ((declared_perform session operation).trans same) later
      constructor
      · rw [passReports_cons]
        exact List.forall_mem_append.mpr ⟨sound, soundAfter⟩
      · have split : session.launchesReported (operation :: rest) =
            session.launchesReported [operation] ++
              (session.perform operation).launchesReported rest := by
          rw [launchesReported, passReports_cons, List.flatMap_append]
          rfl
        rw [split, List.length_append, count, countAfter, calls, SlotPool.serve_append,
          List.countP_append, evaluator_perform now]

structure Rationed (start : Session SlotPool) (slots : Nat)
    (operations : List (Operation SlotPool)) : Prop where
  sound : ∀ report ∈ start.passReports operations, report.failed = []
  /-- A slot is free again only because it was given back. -/
  balance : ∃ free, (start.run operations).evaluator.free = some free ∧
    free + (start.launchesReported operations).length =
      slots + operations.countP Operation.attends
  bound : (start.launchesReported operations).length ≤
    slots + operations.countP Operation.attends

theorem rationed_of_built {file : ServiceFile} {plan : Plan Step}
    (built : Plan.ofService file = .ok plan) (slots : Nat)
    {operations : List (Operation SlotPool)}
    (draws : ∀ operation ∈ operations, operation.Draws suffix) :
    Rationed ⟨plan, SlotPool.withSlots slots⟩ slots operations := by
  let start : Session SlotPool := ⟨plan, SlotPool.withSlots slots⟩
  have declared : start.plan.declared = plan := Plan.declared_built built
  have limited : start.evaluator.free = some slots := rfl
  obtain ⟨sound, count⟩ := reports_run built declared draws
  obtain ⟨free, last, balance⟩ :=
    SlotPool.serve_balance suffix (start.calls operations) limited
  rw [← count, countP_releases_calls] at balance
  have reached : (start.run operations).evaluator.free = some free := by
    rw [evaluator_run draws]
    exact last
  exact ⟨sound, ⟨free, reached, balance⟩, balance ▸ Nat.le_add_left _ free⟩

end Session

namespace SlotPool

structure KeepsSlots (suffix : Nat → String) (slots : Nat) : Prop where
  balance : ∀ calls : List Call, ∃ free,
    (serve suffix (withSlots slots) calls).2.free = some free ∧
      free + (serve suffix (withSlots slots) calls).1.countP Evaluation.matched =
        slots + calls.countP Call.releases
  allOrNothing : ∀ (calls : List Call) (requirement : Requirement),
    AllOrNothing suffix requirement (serve suffix (withSlots slots) calls).2
  /-- The launches of a built plan are bounded by the slots, whatever happens to it. -/
  rationed : ∀ (file : ServiceFile) (plan : Plan Step), Plan.ofService file = .ok plan →
    ∀ operations : List (Operation SlotPool),
      (∀ operation ∈ operations, operation.Draws suffix) →
        Session.Rationed ⟨plan, withSlots slots⟩ slots operations

/-- A pool with a number of slots never loses a slot and never makes one up. -/
theorem keepsSlots_of_legible {suffix : Nat → String} (legible : TaskId.Legible suffix)
    (slots : Nat) : KeepsSlots suffix slots where
  balance := fun calls => serve_balance suffix calls rfl
  allOrNothing := fun _ requirement => allOrNothing_of_legible legible requirement _
  rationed := fun _ _ built _ draws => Session.rationed_of_built built slots draws

/-- One slot, taken, missed, given back and taken again; and a service that waits for it. -/
theorem keepsSlots_of_hexadecimal :
    let suffix := TaskId.suffixesFrom 0xab
    let pod : PodInstance := ⟨"index", 0, [⟨"server", .running, none⟩, ⟨"init", .finished, none⟩]⟩
    let calls : List Call := [.evaluate (.ofInstance pod),
      .evaluate ⟨pod, ["init", "ghost"], .empty⟩, .evaluate (.ofInstance pod), .release,
      .evaluate ⟨pod, ["init"], .empty⟩]
    let pods : List PodSection := [⟨"index", 2, some .parallel, none, [⟨"server", none, none⟩]⟩]
    let file : ServiceFile := ⟨⟨"search", none⟩, none, none, pods⟩
    let plan := Plan.new Plan.deployName (file.pods.map PodSection.phase) file.planStrategy
    let operations : List (Operation SlotPool) :=
      [.pass (evaluate suffix) [], .attend release, .pass (evaluate suffix) ["index-0:[server]"]]
    (serve suffix (withSlots 1) calls).1.map (·.toOption.map (·.length)) =
        [some 3, none, some 0, some 2] ∧
      (serve suffix (withSlots 1) calls).2.free = some 0 ∧
      Plan.ofService file = .ok plan ∧
      (∀ operation ∈ operations, operation.Draws suffix) ∧
      Session.launchesReported ⟨plan, withSlots 1⟩ operations =
        ["index-0:[server]", "index-1:[server]"] ∧
      KeepsSlots suffix 1 := by
  intro suffix pod calls pods file plan operations
  have built : Plan.ofService file = .ok plan := rfl
  have draws : ∀ operation ∈ operations, operation.Draws suffix := by
    simp [operations, Operation.Draws]
  exact ⟨by decide +kernel, by decide +kernel, built, draws, by decide +kernel,
    keepsSlots_of_legible (TaskId.legible_suffixesFrom 0xab) 1⟩

end SlotPool

end Rollout
