import Rollout.Decimal.Shortest

/-! Documents: the values that configuration texts and messages hold.  One type serves every
format; no format produces all of its cases. -/

namespace Rollout

inductive FloatValue where
  | finite (negative : Bool) (magnitude : Binary)
  | infinite (negative : Bool)
  | notANumber
  deriving DecidableEq, Repr

namespace FloatValue

def write (style : NumberStyle) : FloatValue → String
  | .finite negative magnitude => style.write negative magnitude
  | .infinite false => "inf"
  | .infinite true => "-inf"
  | .notANumber => "NaN"

end FloatValue

/-- A value of a document.  The entries of a table keep their order, and a reader of
tables visits them in that order.  A date or time is kept as written.  A list whose
items were written as tables with headers of their own is told apart from a list that
was written as one value. -/
inductive Document where
  | null
  | boolean (value : Bool)
  | integer (value : Int)
  | float (value : FloatValue)
  | text (value : String)
  | moment (written : String)
  | list (items : List Document)
  | tables (items : List Document)
  | table (entries : List (String × Document))
  deriving Repr, Inhabited

namespace Document

/-- The key under which a date or time is found when a table is wanted. -/
def momentKey : String := "$__toml_private_datetime"

/-- The entries of a table; a date or time is a table with one entry. -/
def entries? : Document → Option (List (String × Document))
  | .table entries => some entries
  | .moment written => some [(momentKey, .text written)]
  | _ => none

def items? : Document → Option (List Document)
  | .list items => some items
  | .tables items => some items
  | _ => none

def findKey? (key : String) : List (String × Document) → Option (Nat × Document)
  | [] => none
  | (name, value) :: rest =>
      if name = key then some (0, value)
      else (findKey? key rest).map fun found => (found.1 + 1, found.2)

def get? (key : String) (document : Document) : Option Document := do
  let entries ← document.entries?
  (findKey? key entries).map (·.2)

mutual

def nesting : Document → Nat
  | .list items => nestingOfItems items + 1
  | .tables items => nestingOfItems items + 1
  | .table entries => nestingOfEntries entries + 1
  | _ => 0

def nestingOfItems : List Document → Nat
  | [] => 0
  | item :: rest => max item.nesting (nestingOfItems rest)

def nestingOfEntries : List (String × Document) → Nat
  | [] => 0
  | (_, value) :: rest => max value.nesting (nestingOfEntries rest)

end

theorem nesting_le_nestingOfItems {item : Document} {items : List Document}
    (member : item ∈ items) : item.nesting ≤ nestingOfItems items := by
  induction items with
  | nil => cases member
  | cons head rest ih =>
      rw [nestingOfItems]
      rcases List.mem_cons.mp member with atHead | inRest
      · subst atHead
        exact Nat.le_max_left _ _
      · exact Nat.le_trans (ih inRest) (Nat.le_max_right _ _)

theorem nesting_le_nestingOfEntries {key : String} {value : Document}
    {entries : List (String × Document)} (member : (key, value) ∈ entries) :
    value.nesting ≤ nestingOfEntries entries := by
  induction entries with
  | nil => cases member
  | cons head rest ih =>
      obtain ⟨name, first⟩ := head
      rw [nestingOfEntries]
      rcases List.mem_cons.mp member with atHead | inRest
      · cases atHead
        exact Nat.le_max_left _ _
      · exact Nat.le_trans (ih inRest) (Nat.le_max_right _ _)

end Document

end Rollout
