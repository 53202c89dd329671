import Rollout.Plan.Routing

/-! The router and its channel.  Reports wait in a bounded queue until the router takes them, in
the order in which they were accepted.  The router stops when it is told to, and then drops what
is waiting; or when the queue is empty and no sender is left. -/

namespace Rollout

/-- No channel can hold this many reports: its counter has 61 bits. -/
def channelLimit : Nat := 2305843009213693952

/-- How many reports a channel can hold.  A channel without room, or with more than the
permits of its counter, cannot be made. -/
structure Capacity where
  value : Nat
  positive : 0 < value
  bounded : value < channelLimit
  deriving DecidableEq, Repr

namespace Capacity

def ofNat? (value : Nat) : Option Capacity :=
  if positive : 0 < value then
    if bounded : value < channelLimit then some ⟨value, positive, bounded⟩ else none
  else none

theorem ofNat?_isSome_iff {value : Nat} :
    (ofNat? value).isSome = true ↔ 0 < value ∧ value < channelLimit := by
  unfold ofNat?
  by_cases positive : 0 < value
  · by_cases bounded : value < channelLimit
    · simp [positive]
    · simp [positive]
  · simp [positive]

end Capacity

inductive SendError where
  | channelClosed
  deriving DecidableEq, Repr

namespace SendError

def message : SendError → String
  | .channelClosed => "status channel closed"

end SendError

/-- A router with its channel: the plan it delivers to, the accepted reports that wait,
the senders that are left, and whether it was told to stop and whether it runs. -/
structure Router where
  plan : Plan Step
  capacity : Capacity
  queue : List TaskReport
  senders : Nat
  stopping : Bool
  running : Bool

namespace Router

def start (plan : Plan Step) (capacity : Capacity) : Router :=
  ⟨plan, capacity, [], 1, false, true⟩

inductive Action where
  /-- A sender is copied. -/
  | clone
  /-- A sender goes away. -/
  | drop
  /-- A sender puts a report into the queue. -/
  | send (report : TaskReport)
  /-- The router is told to stop, or whoever could tell it goes away. -/
  | signal
  /-- The router takes a report from the queue and delivers it. -/
  | take
  /-- The router finds the queue empty and no sender left, and stops. -/
  | close
  /-- The router notices that it was told to stop, and stops. -/
  | halt
  deriving DecidableEq, Repr

def act? (router : Router) : Action → Option Router
  | .clone => if 0 < router.senders then some { router with senders := router.senders + 1 } else none
  | .drop => if 0 < router.senders then some { router with senders := router.senders - 1 } else none
  | .send report =>
      if router.running ∧ 0 < router.senders ∧ router.queue.length < router.capacity.value then
        some { router with queue := router.queue ++ [report] }
      else none
  | .signal => some { router with stopping := true }
  | .take =>
      match router.running, router.queue with
      | true, report :: rest => some { router with plan := router.plan.route report, queue := rest }
      | _, _ => none
  | .close =>
      if router.running ∧ router.queue = [] ∧ router.senders = 0 then
        some { router with running := false }
      else none
  | .halt =>
      if router.running ∧ router.stopping then
        some { router with running := false, queue := [] }
      else none

def acts? (router : Router) (actions : List Action) : Option Router :=
  actions.foldlM act? router

def drain (router : Router) : Router :=
  if router.running then { router with plan := router.plan.routeAll router.queue, queue := [] }
  else router

/-- Sends a report.  When there is no room, the router first takes what waits. -/
def send (router : Router) (report : TaskReport) : Except SendError Router :=
  if router.running then
    let ready := if router.queue.length < router.capacity.value then router else router.drain
    .ok { ready with queue := ready.queue ++ [report] }
  else .error .channelClosed

def sendAll (router : Router) : List TaskReport → List (Except SendError Unit) × Router
  | [] => ([], router)
  | report :: rest =>
      match router.send report with
      | .ok next =>
          let (outcomes, last) := next.sendAll rest
          (.ok () :: outcomes, last)
      | .error cause =>
          let (outcomes, last) := router.sendAll rest
          (.error cause :: outcomes, last)

def finish (router : Router) : Router :=
  { router.drain with senders := 0, running := false }

def shutDown (router : Router) : Router :=
  { router with stopping := true, running := false, queue := [] }

end Router

end Rollout
