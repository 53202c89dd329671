import Rollout.Router

/-! Reports on their way through the channel of a router.  Senders, the router and whoever stops
it act in any order, and a router that could both take a report and stop does either.  Every
accepted report is taken, waits, or was dropped when the router was told to stop; the plan has
seen exactly the taken ones, in the order in which they were accepted. A router that stops for
want of senders has taken them all. -/

namespace Rollout

namespace Plan

theorem routeAll_append (plan : Plan Step) (first second : List TaskReport) :
    plan.routeAll (first ++ second) = (plan.routeAll first).routeAll second :=
  List.foldl_append

end Plan

namespace Router

/-! ### What an action does to reports -/

def acceptedBy (_ : Router) : Action → List TaskReport
  | .send report => [report]
  | _ => []

def takenBy (router : Router) : Action → List TaskReport
  | .take => router.queue.take 1
  | _ => []

def droppedBy (router : Router) : Action → List TaskReport
  | .halt => router.queue
  | _ => []

/-- What is seen of each action in its turn, as long as the actions are possible. -/
def along (seen : Router → Action → List TaskReport) (router : Router) :
    List Action → List TaskReport
  | [] => []
  | action :: rest =>
      match router.act? action with
      | none => []
      | some next => seen router action ++ next.along seen rest

def accepted (router : Router) (actions : List Action) : List TaskReport :=
  router.along acceptedBy actions

def taken (router : Router) (actions : List Action) : List TaskReport :=
  router.along takenBy actions

def dropped (router : Router) (actions : List Action) : List TaskReport :=
  router.along droppedBy actions

variable {router next last : Router} {action : Action} {actions : List Action}

theorem along_cons {seen : Router → Action → List TaskReport}
    (done : router.act? action = some next) (rest : List Action) :
    router.along seen (action :: rest) = seen router action ++ next.along seen rest := by
  simp only [along, done]

theorem acts?_cons_eq_some_iff :
    router.acts? (action :: actions) = some last ↔
      ∃ next, router.act? action = some next ∧ next.acts? actions = some last := by
  rw [acts?, List.foldlM_cons]
  exact Option.bind_eq_some_iff

/-- Everything that an action can do, with the condition under which it can be done. -/
inductive Acted (router : Router) : Action → Router → Prop
  | cloned (present : 0 < router.senders) :
      Acted router .clone { router with senders := router.senders + 1 }
  | left (present : 0 < router.senders) :
      Acted router .drop { router with senders := router.senders - 1 }
  | sent {report : TaskReport} (runs : router.running = true) (present : 0 < router.senders)
      (room : router.queue.length < router.capacity.value) :
      Acted router (.send report) { router with queue := router.queue ++ [report] }
  | signalled : Acted router .signal { router with stopping := true }
  | took {report : TaskReport} {rest : List TaskReport} (runs : router.running = true)
      (first : router.queue = report :: rest) :
      Acted router .take { router with plan := router.plan.route report, queue := rest }
  | closed (runs : router.running = true) (empty : router.queue = [])
      (alone : router.senders = 0) :
      Acted router .close { router with running := false }
  | halted (runs : router.running = true) (told : router.stopping = true) :
      Acted router .halt { router with running := false, queue := [] }

theorem act?_eq_some_iff : router.act? action = some next ↔ Acted router action next := by
  constructor
  · intro done
    cases action with
    | clone =>
        simp only [act?, Option.ite_none_right_eq_some, Option.some.injEq] at done
        exact done.2 ▸ .cloned done.1
    | drop =>
        simp only [act?, Option.ite_none_right_eq_some, Option.some.injEq] at done
        exact done.2 ▸ .left done.1
    | send report =>
        simp only [act?, Option.ite_none_right_eq_some, Option.some.injEq] at done
        obtain ⟨⟨runs, present, room⟩, same⟩ := done
        exact same ▸ .sent runs present room
    | signal =>
        cases done
        exact .signalled
    | take =>
        simp only [act?] at done
        split at done
        · rename_i report rest runs first
          cases done
          exact .took runs first
        · cases done
    | close =>
        simp only [act?, Option.ite_none_right_eq_some, Option.some.injEq] at done
        obtain ⟨⟨runs, empty, alone⟩, same⟩ := done
        exact same ▸ .closed runs empty alone
    | halt =>
        simp only [act?, Option.ite_none_right_eq_some, Option.some.injEq] at done
        exact done.2 ▸ .halted done.1.1 done.1.2
  · intro acted
    cases acted with
    | cloned present => simp [act?, present]
    | left present => simp [act?, present]
    | sent runs present room => simp [act?, runs, present, room]
    | signalled => rfl
    | took runs first => simp [act?, runs, first]
    | closed runs empty alone => simp [act?, runs, empty, alone]
    | halted runs told => simp [act?, runs, told]

/-! ### A stopped router -/

structure Quiet (router : Router) (action : Action) (next : Router) : Prop where
  plan : next.plan = router.plan
  queue : next.queue = router.queue
  stopped : next.running = false
  accepted : acceptedBy router action = []
  taken : takenBy router action = []
  dropped : droppedBy router action = []
  noStop : action ≠ .close ∧ action ≠ .halt

theorem Acted.quiet (acted : Acted router action next) (stopped : router.running = false) :
    Quiet router action next := by
  have impossible : router.running ≠ true := by simp [stopped]
  cases acted with
  | cloned _ => exact ⟨rfl, rfl, stopped, rfl, rfl, rfl, nofun, nofun⟩
  | left _ => exact ⟨rfl, rfl, stopped, rfl, rfl, rfl, nofun, nofun⟩
  | signalled => exact ⟨rfl, rfl, stopped, rfl, rfl, rfl, nofun, nofun⟩
  | sent runs _ _ => exact absurd runs impossible
  | took runs _ => exact absurd runs impossible
  | closed runs _ _ => exact absurd runs impossible
  | halted runs _ => exact absurd runs impossible

/-- Nothing happens to plan, queue and reports any more, and the router stays stopped. -/
structure Rests (router : Router) (actions : List Action) (last : Router) : Prop where
  plan : last.plan = router.plan
  queue : last.queue = router.queue
  stopped : last.running = false
  accepted : router.accepted actions = []
  taken : router.taken actions = []
  dropped : router.dropped actions = []
  noStop : .close ∉ actions ∧ .halt ∉ actions

theorem rests_of_stopped (stopped : router.running = false)
    (reached : router.acts? actions = some last) : Rests router actions last := by
  induction actions generalizing router with
  | nil =>
      cases reached
      exact ⟨rfl, rfl, stopped, rfl, rfl, rfl, List.not_mem_nil, List.not_mem_nil⟩
  | cons action rest ih =>
      obtain ⟨next, done, continued⟩ := acts?_cons_eq_some_iff.mp reached
      have first := (act?_eq_some_iff.mp done).quiet stopped
      have later := ih first.stopped continued
      refine ⟨later.plan.trans first.plan, later.queue.trans first.queue, later.stopped,
        ?_, ?_, ?_, ?_, ?_⟩
      · rw [accepted, along_cons done, first.accepted]
        exact later.accepted
      · rw [taken, along_cons done, first.taken]
        exact later.taken
      · rw [dropped, along_cons done, first.dropped]
        exact later.dropped
      · exact List.not_mem_cons_of_ne_of_not_mem first.noStop.1.symm later.noStop.1
      · exact List.not_mem_cons_of_ne_of_not_mem first.noStop.2.symm later.noStop.2

theorem send_of_stopped (stopped : router.running = false) (report : TaskReport) :
    router.send report = .error .channelClosed := by
  simp [send, stopped]

theorem sendAll_of_stopped (stopped : router.running = false) (reports : List TaskReport) :
    router.sendAll reports = (reports.map fun _ => .error .channelClosed, router) := by
  induction reports with
  | nil => rfl
  | cons report rest ih => simp only [sendAll, send_of_stopped stopped, ih, List.map_cons]

/-! ### Accounting for every report -/

theorem Acted.accounted (acted : Acted router action next) :
    router.queue ++ acceptedBy router action =
        takenBy router action ++ (next.queue ++ droppedBy router action) ∧
      next.plan = router.plan.routeAll (takenBy router action) := by
  cases acted with
  | cloned _ => exact ⟨rfl, rfl⟩
  | left _ => exact ⟨rfl, rfl⟩
  | sent _ _ _ => exact ⟨(List.append_nil _).symm, rfl⟩
  | signalled => exact ⟨rfl, rfl⟩
  | took _ first =>
      constructor
      · simp [acceptedBy, takenBy, droppedBy, first]
      · simp [takenBy, first, Plan.routeAll]
  | closed _ _ _ => exact ⟨rfl, rfl⟩
  | halted _ _ => exact ⟨List.append_nil _, rfl⟩

theorem Acted.dropped_eq_nil (acted : Acted router action next) (runs : next.running = true) :
    droppedBy router action = [] ∧ action ≠ .close ∧ action ≠ .halt := by
  cases acted with
  | closed _ _ _ => cases runs
  | halted _ _ => cases runs
  | _ => exact ⟨rfl, nofun, nofun⟩

/-- What waited and what was accepted is what was taken, what waits, and what was dropped,
in this order; and the plan has seen what was taken. -/
theorem acts?_accounted (reached : router.acts? actions = some last) :
    router.queue ++ router.accepted actions =
        router.taken actions ++ (last.queue ++ router.dropped actions) ∧
      last.plan = router.plan.routeAll (router.taken actions) := by
  induction actions generalizing router with
  | nil =>
      cases reached
      exact ⟨rfl, rfl⟩
  | cons action rest ih =>
      obtain ⟨next, done, continued⟩ := acts?_cons_eq_some_iff.mp reached
      have acted := act?_eq_some_iff.mp done
      obtain ⟨queued, routed⟩ := acted.accounted
      rw [accepted, taken, dropped, along_cons done, along_cons done, along_cons done,
        ← List.append_assoc, queued]
      cases runs : next.running with
      | false =>
          -- only here can something be dropped, and nothing follows it
          have rests := rests_of_stopped runs continued
          constructor
          · rw [← accepted, ← taken, ← dropped, rests.accepted, rests.taken, rests.dropped,
              rests.queue, List.append_nil, List.append_nil, List.append_nil]
          · rw [← taken, rests.taken, rests.plan, routed, List.append_nil]
      | true =>
          obtain ⟨laterQueued, laterRouted⟩ := ih continued
          rw [(acted.dropped_eq_nil runs).1]
          constructor
          · rw [List.append_nil, List.append_assoc, ← accepted, laterQueued, List.nil_append,
              ← List.append_assoc]
            rfl
          · rw [laterRouted, routed, Plan.routeAll_append]
            rfl

/-! ### How a router comes to its end -/

/-- A router still runs, has stopped because it was empty and left by its senders, or has
stopped because it was told to. -/
inductive Ending (router : Router) (actions : List Action) (last : Router) : Prop
  | running (runs : last.running = true) (nothing : router.dropped actions = [])
      (noStop : .close ∉ actions ∧ .halt ∉ actions)
  | drained (stopped : last.running = false) (empty : last.queue = [])
      (nothing : router.dropped actions = []) (how : .close ∈ actions ∧ .halt ∉ actions)
  | told (stopped : last.running = false) (empty : last.queue = [])
      (how : .halt ∈ actions ∧ .close ∉ actions)

theorem Ending.cons (done : router.act? action = some next)
    (nothing : droppedBy router action = []) (noStop : action ≠ .close ∧ action ≠ .halt)
    (ending : Ending next actions last) : Ending router (action :: actions) last := by
  have same : router.dropped (action :: actions) = next.dropped actions := by
    rw [dropped, along_cons done, nothing]
    rfl
  have close : .close ∈ action :: actions ↔ .close ∈ actions := by simp [noStop.1.symm]
  have halt : .halt ∈ action :: actions ↔ .halt ∈ actions := by simp [noStop.2.symm]
  cases ending with
  | running runs none absent =>
      exact .running runs (same.trans none) (by rwa [close, halt])
  | drained stopped empty none how =>
      exact .drained stopped empty (same.trans none) (by rwa [close, halt])
  | told stopped empty how => exact .told stopped empty (by rwa [close, halt])

theorem acts?_ending (runs : router.running = true)
    (reached : router.acts? actions = some last) : Ending router actions last := by
  induction actions generalizing router with
  | nil =>
      cases reached
      exact .running runs rfl ⟨List.not_mem_nil, List.not_mem_nil⟩
  | cons action rest ih =>
      obtain ⟨next, done, continued⟩ := acts?_cons_eq_some_iff.mp reached
      have acted := act?_eq_some_iff.mp done
      cases still : next.running with
      | true =>
          obtain ⟨nothing, noStop⟩ := acted.dropped_eq_nil still
          exact (ih still continued).cons done nothing noStop
      | false =>
          have rests := rests_of_stopped still continued
          cases acted with
          | closed _ empty _ =>
              refine .drained rests.stopped (rests.queue.trans empty) ?_ ?_
              · rw [dropped, along_cons done]
                exact rests.dropped
              · exact ⟨List.mem_cons_self, by simp [rests.noStop.2]⟩
          | halted _ _ =>
              refine .told rests.stopped rests.queue ?_
              exact ⟨List.mem_cons_self, by simp [rests.noStop.1]⟩
          | _ => exact absurd (still.symm.trans runs) Bool.false_ne_true

theorem acts?_room (reached : router.acts? actions = some last)
    (room : router.queue.length ≤ router.capacity.value) :
    last.queue.length ≤ last.capacity.value := by
  induction actions generalizing router with
  | nil =>
      cases reached
      exact room
  | cons action rest ih =>
      obtain ⟨next, done, continued⟩ := acts?_cons_eq_some_iff.mp reached
      apply ih continued
      cases act?_eq_some_iff.mp done with
      | sent _ _ free => simpa [Nat.succ_le_iff] using free
      | took _ first =>
          rw [first, List.length_cons] at room
          exact Nat.le_of_succ_le room
      | halted _ _ => exact Nat.zero_le _
      | _ => exact room

/-! ### Sending to a router that runs -/

theorem acts?_append (first second : List Action) :
    router.acts? (first ++ second) = (router.acts? first).bind (acts? · second) :=
  List.foldlM_append

theorem drain_of_running (runs : router.running = true) :
    router.drain = { router with plan := router.plan.routeAll router.queue, queue := [] } :=
  if_pos runs

theorem acts?_takes (runs : router.running = true) :
    router.acts? (List.replicate router.queue.length .take) = some router.drain := by
  rw [drain_of_running runs]
  induction waiting : router.queue generalizing router with
  | nil =>
      have still : router = { router with queue := [] } := by rw [← waiting]
      exact congrArg some still
  | cons report rest ih =>
      have done := act?_eq_some_iff.mpr (.took runs waiting)
      rw [List.length_cons, List.replicate_succ]
      exact acts?_cons_eq_some_iff.mpr ⟨_, done, ih runs rfl⟩

theorem acts?_send (runs : router.running = true) (present : 0 < router.senders)
    (room : router.queue.length < router.capacity.value) (report : TaskReport) :
    router.acts? [.send report] = some { router with queue := router.queue ++ [report] } :=
  acts?_cons_eq_some_iff.mpr ⟨_, act?_eq_some_iff.mpr (.sent runs present room), rfl⟩

/-- A report is accepted, at the latest when the router has taken what is in the way. -/
theorem exists_acts?_send (runs : router.running = true) (present : 0 < router.senders)
    (report : TaskReport) :
    ∃ waits next, router.send report = .ok next ∧
      router.acts? (List.replicate waits .take ++ [.send report]) = some next := by
  by_cases room : router.queue.length < router.capacity.value
  · refine ⟨0, { router with queue := router.queue ++ [report] }, ?_, ?_⟩
    · simp only [send, runs, room, if_true]
    · exact acts?_send runs present room report
  · refine ⟨router.queue.length, { router.drain with queue := router.drain.queue ++ [report] },
      ?_, ?_⟩
    · simp only [send, runs, room, if_true, if_false]
    · rw [acts?_append, acts?_takes runs, Option.bind_some, drain_of_running runs]
      refine acts?_send ?_ ?_ ?_ report
      · exact runs
      · exact present
      · exact router.capacity.positive

/-! ### Every schedule of a router -/

structure Delivers (plan : Plan Step) (start : Router) (actions : List Action)
    (reached : Router) : Prop where
  /-- Accepted reports are taken, wait, or were dropped at a stop, in this order. -/
  accounted : start.accepted actions =
    start.taken actions ++ (reached.queue ++ start.dropped actions)
  /-- None is delivered twice, passed over or out of its turn. -/
  inOrder : start.taken actions <+: start.accepted actions
  applied : reached.plan = plan.routeAll (start.taken actions)
  room : reached.queue.length ≤ reached.capacity.value
  ending : Ending start actions reached
  /-- A router that was left by its senders has delivered everything. -/
  complete : .close ∈ actions → start.taken actions = start.accepted actions
  /-- While the router runs, no report is refused. -/
  accepts : reached.running = true → 0 < reached.senders → ∀ report, ∃ waits next,
    reached.send report = .ok next ∧
      reached.acts? (List.replicate waits .take ++ [.send report]) = some next
  /-- After it has stopped every report is refused, and changes nothing. -/
  refuses : reached.running = false → ∀ reports,
    (∀ report ∈ reports, reached.send report = .error .channelClosed ∧
      reached.act? (.send report) = none) ∧
    reached.sendAll reports = (reports.map fun _ => .error .channelClosed, reached)
  rests : reached.running = false → ∀ later last, reached.acts? later = some last →
    Rests reached later last

/-- In whatever order senders, router and shutdown act, the plan has seen a first part of
the accepted reports, and all of them if the router stopped because its senders left. -/
theorem delivers_of_schedule (plan : Plan Step) (capacity : Capacity) {actions : List Action}
    {reached : Router} (possible : (start plan capacity).acts? actions = some reached) :
    Delivers plan (start plan capacity) actions reached := by
  obtain ⟨accounted, applied⟩ := acts?_accounted possible
  have ending := acts?_ending rfl possible
  refine ⟨accounted, ⟨_, accounted.symm⟩, applied, acts?_room possible (Nat.zero_le _), ending,
    ?_, fun runs present report => exists_acts?_send runs present report, ?_,
    fun stopped later last continued => rests_of_stopped stopped continued⟩
  · intro close
    cases ending with
    | running _ _ noStop => exact absurd close noStop.1
    | drained _ empty nothing _ =>
        rw [empty, nothing, List.append_nil, List.append_nil] at accounted
        exact accounted.symm
    | told _ _ how => exact absurd close how.2
  · intro stopped reports
    refine ⟨?_, sendAll_of_stopped stopped reports⟩
    intro report _
    refine ⟨send_of_stopped stopped report, ?_⟩
    simp [act?, stopped]

/-- Two senders, one of which leaves.  The first report completes the step; the second is
dropped, because the router is told to stop before it takes it. -/
theorem delivers_of_interrupted_schedule :
    let requirement := Requirement.ofInstance ⟨"index", 0, [⟨"server", .running, none⟩]⟩
    let server : TaskDescriptor := ⟨"index-0-server", "index-0-server__1", .running, none⟩
    let step := (Step.new "index-0:[server]" .pending requirement []).updateOffer [.launch server]
    let plan := Plan.new "deploy" [Phase.new "index" [step] .serial] .serial
    let up := TaskReport.new "index-0-server__1" .running
    let lost := TaskReport.new "index-0-server__1" .lost
    let router := start plan ⟨1, by decide, by decide⟩
    let actions : List Action :=
      [.clone, .send up, .take, .drop, .signal, .send lost, .halt, .clone]
    ∃ reached, router.acts? actions = some reached ∧ router.taken actions = [up] ∧
      router.dropped actions = [lost] ∧ plan.status = .starting ∧
      reached.plan.status = .complete ∧ Delivers plan router actions reached := by
  intro requirement server step plan up lost router actions
  refine ⟨_, rfl, rfl, rfl, by decide +kernel, by decide +kernel, ?_⟩
  exact delivers_of_schedule plan _ rfl

end Router

end Rollout
