import Rollout.Document.Mismatch

/-! Typed reading of documents.  A record is read field by field, and when several fields are bad
the one that stands first in the document is reported; a field that is missing is reported only
when no field is bad, and in declared order. -/

namespace Rollout

/-- Where a document comes from.  The sources differ in how they treat surplus list
items and names with content.  A value is `retained` when it was held back until
the tag beside it had been seen. -/
inductive Dialect where
  | json
  | retained
  | toml
  deriving DecidableEq, Repr

namespace Dialect

def numberStyle : Dialect → NumberStyle
  | .json => .compact
  | .retained => .compact
  | .toml => .positional

end Dialect

abbrev Reader (α : Type) := Document → Except Mismatch α

/-- A value, or a failure and its rank.  Of two failures the one of lower rank
counts, and of equal ranks the one that was asked for first. -/
inductive Attempt (α : Type) where
  | done (value : α)
  | failed (rank : Nat) (cause : Mismatch)

namespace Attempt

def map {α β : Type} (f : α → β) : Attempt α → Attempt β
  | .done value => .done (f value)
  | .failed rank cause => .failed rank cause

def combine {α β : Type} : Attempt (α → β) → Attempt α → Attempt β
  | .done f, .done value => .done (f value)
  | .done _, .failed rank cause => .failed rank cause
  | .failed rank cause, .done _ => .failed rank cause
  | .failed rank cause, .failed rank' cause' =>
      if rank ≤ rank' then .failed rank cause else .failed rank' cause'

instance : Applicative Attempt where
  pure := .done
  seq f x := combine f (x ())
  map := map

def ofRead {α : Type} (rank : Nat) : Except Mismatch α → Attempt α
  | .ok value => .done value
  | .error cause => .failed rank cause

def result {α : Type} : Attempt α → Except Mismatch α
  | .done value => .ok value
  | .failed _ cause => .error cause

@[simp] theorem result_done {α : Type} (value : α) :
    (Attempt.done value).result = .ok value := rfl

@[simp] theorem map_done {α β : Type} (f : α → β) (value : α) :
    f <$> Attempt.done value = Attempt.done (f value) := rfl

@[simp] theorem seq_done {α β : Type} (f : α → β) (value : α) :
    (Attempt.done f <*> Attempt.done value) = Attempt.done (f value) := rfl

@[simp] theorem ofRead_ok {α : Type} (rank : Nat) (value : α) :
    ofRead rank (.ok value) = Attempt.done value := rfl

end Attempt

/-- The two written forms of a record: a table of named fields, or a list that gives
the fields in declared order. -/
inductive FieldSource where
  | named (entries : List (String × Document))
  | listed (items : List Document)

structure Fields where
  shape : RecordShape
  source : FieldSource

namespace Fields

def place (fields : Fields) (name : String) : Nat :=
  fields.shape.fields.idxOf name

def find? (fields : Fields) (name : String) : Option (Nat × Document) :=
  match fields.source with
  | .named entries => Document.findKey? name entries
  | .listed items =>
      let place := fields.place name
      items[place]?.map fun item => (place, item)

/-- The failure for a field that is not there.  Its rank is past all entries, or the
place at which the list ended too early. -/
def absent {α : Type} (fields : Fields) (name : String) : Attempt α :=
  match fields.source with
  | .named entries => .failed entries.length (.missingField name)
  | .listed _ =>
      let place := fields.place name
      .failed place (.tooShort place fields.shape)

def required {α : Type} (fields : Fields) (name : String) (read : Reader α) : Attempt α :=
  match fields.find? name with
  | some (rank, document) => Attempt.ofRead rank (read document)
  | none => fields.absent name

def withDefault {α : Type} (fields : Fields) (name : String) (default : α)
    (read : Reader α) : Attempt α :=
  match fields.find? name with
  | some (rank, document) => Attempt.ofRead rank (read document)
  | none => .done default

/-- A field that may be null, or left out of a table, but not out of a list. -/
def optional {α : Type} (fields : Fields) (name : String) (read : Reader α) :
    Attempt (Option α) :=
  match fields.find? name with
  | some (_, .null) => .done none
  | some (rank, document) => Attempt.ofRead rank ((read document).map some)
  | none =>
      match fields.source with
      | .named _ => .done none
      | .listed _ => fields.absent name

end Fields

namespace Dialect

def surplus? (dialect : Dialect) (length : Nat) (shape : RecordShape) : Option Mismatch :=
  if length ≤ shape.fields.length then none
  else
    match dialect with
    | .json => some (.tooLong length)
    | .retained => some (.wrongCount length shape.fields.length)
    | .toml => none

/-- Reads a record.  Surplus list items matter only when all fields are good. -/
def record {α : Type} (dialect : Dialect) (shape : RecordShape)
    (build : Fields → Attempt α) : Reader α := fun document =>
  match document.items? with
  | some items => do
      let value ← (build ⟨shape, .listed items⟩).result
      match dialect.surplus? items.length shape with
      | none => pure value
      | some cause => throw cause
  | none =>
      match document.entries? with
      | some entries => (build ⟨shape, .named entries⟩).result
      | none => .error (.wrongKind document (.record shape))

/-- The content of a name that was given as the key of a table: nothing is allowed
in it.  An empty list does for an empty table, so a list that was written as a value is
refused as a table with entries is; tables under headers are refused as a list. -/
def noContent (dialect : Dialect) : Reader Unit
  | .null => .ok ()
  | .table [] =>
      match dialect with
      | .json => .error (.wrongKind (.table []) .unit)
      | _ => .ok ()
  | document =>
      match dialect, document with
      | .toml, .table _ => .error .contentTable
      | .toml, .list [] => .ok ()
      | .toml, .list _ => .error .contentTable
      | .toml, .tables _ => .error .contentList
      | .toml, other => .error (.contentKind other)
      | _, other => .error (.wrongKind other .unit)

end Dialect

namespace Reader

def text : Reader String
  | .text value => .ok value
  | document => .error (.wrongKind document .text)

def boolean : Reader Bool
  | .boolean value => .ok value
  | document => .error (.wrongKind document .boolean)

def natural (width : Width) : Reader Nat
  | .integer value =>
      if 0 ≤ value ∧ value < width.bound then .ok value.toNat
      else .error (.outOfRange value width)
  | document => .error (.wrongKind document (.natural width))

def word32 : Reader UInt32 := fun document =>
  (natural .word32 document).map UInt32.ofNat

def word64 : Reader UInt64 := fun document =>
  (natural .word64 document).map UInt64.ofNat

def size : Reader UInt64 := fun document =>
  (natural .size document).map UInt64.ofNat

def listOf {α : Type} (read : Reader α) : Reader (List α) := fun document =>
  match document.items? with
  | some items => items.mapM read
  | none => .error (.wrongKind document .sequence)

def entriesOf {α : Type} (read : Reader α) : Reader (List (String × α)) := fun document =>
  match document.entries? with
  | some entries => entries.mapM fun entry => (read entry.2).map fun value => (entry.1, value)
  | none => .error (.wrongKind document .map)

def named {α : Type} (choices : List (String × α)) (name : String) : Except Mismatch α :=
  match choices.lookup name with
  | some value => .ok value
  | none => .error (.unknownVariant name (choices.map (·.1)))

/-- One of several names: as a text, or as the only key of a table. -/
def oneOf {α : Type} (dialect : Dialect) (choices : List (String × α)) : Reader α
  | .text name => named choices name
  | .table [(name, content)] => do
      let value ← named choices name
      dialect.noContent content
      pure value
  | document =>
      match dialect, document with
      | .toml, .table [] => .error .noVariant
      | .toml, .table _ => .error .severalVariants
      | .toml, _ => .error .notTextOrTable
      | _, .table _ => .error .notSingleKey
      | _, other => .error (.wrongKind other .choice)

end Reader

end Rollout
