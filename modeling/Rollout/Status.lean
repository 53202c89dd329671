/-! The status of a plan element, and how the statuses of several parts make one: the whole is
only as far as its least advanced part. -/

namespace Rollout

/-- How far an element has come, from the least advanced to the most. -/
inductive Status where
  | error
  | pending
  | prepared
  | starting
  | complete
  deriving DecidableEq, Repr, Inhabited

namespace Status

def all : List Status := [.error, .pending, .prepared, .starting, .complete]

def rank : Status → Nat
  | .error => 0
  | .pending => 1
  | .prepared => 2
  | .starting => 3
  | .complete => 4

instance : LE Status := ⟨fun a b => a.rank ≤ b.rank⟩

instance (a b : Status) : Decidable (a ≤ b) :=
  inferInstanceAs (Decidable (a.rank ≤ b.rank))

def initial : Status := .pending

def label : Status → String
  | .error => "ERROR"
  | .pending => "PENDING"
  | .prepared => "PREPARED"
  | .starting => "STARTING"
  | .complete => "COMPLETE"

/-- Work that may be offered: nothing was launched yet, or the launch was not
confirmed. -/
def isPending : Status → Bool
  | .pending => true
  | .prepared => true
  | _ => false

def isComplete (status : Status) : Bool :=
  status == .complete

/-- The least advanced of several statuses.  Completion needs every one of them to
be complete; an empty list leaves the previous status, and so would a mixture for
which there is no rule. -/
def aggregate (statuses : List Status) (previous : Status) : Status :=
  if statuses.isEmpty then previous
  else if statuses.contains .error then .error
  else if statuses.contains .pending then .pending
  else if statuses.contains .prepared then .prepared
  else if statuses.contains .starting then .starting
  else if statuses.all isComplete then .complete
  else previous

/-- The status of an element made of parts: complete when there are none. -/
def ofParts (statuses : List Status) : Status :=
  if statuses.isEmpty then .complete else aggregate statuses .pending

def sorted (statuses : List Status) : List Status :=
  statuses.mergeSort fun a b => a ≤ b

theorem rank_injective {a b : Status} (same : a.rank = b.rank) : a = b := by
  cases a <;> cases b <;> first | rfl | cases same

theorem le_refl (a : Status) : a ≤ a := Nat.le_refl a.rank

theorem le_trans {a b c : Status} (first : a ≤ b) (second : b ≤ c) : a ≤ c :=
  Nat.le_trans first second

theorem le_antisymm {a b : Status} (first : a ≤ b) (second : b ≤ a) : a = b :=
  rank_injective (Nat.le_antisymm first second)

theorem le_complete (a : Status) : a ≤ .complete := by
  cases a <;> decide

@[simp] theorem ofParts_nil : ofParts [] = .complete := rfl

end Status

end Rollout
