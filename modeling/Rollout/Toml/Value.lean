import Rollout.Toml.Number
import Rollout.Toml.Tree

/-! Values in TOML text: strings, numbers, booleans, and lists and inline tables of values.  Lists
may be spread over lines, inline tables may not. -/

namespace Rollout.Toml

open Text (Scan)

/-- The items of a list after its opening bracket.  A comma may follow the last item.
Each item uses one unit of `fuel`. -/
def items (value : Scan Document) : Nat → Scan (List Document)
  | 0, _ => none
  | fuel + 1, s =>
      match skipLayout s with
      | ']' :: rest => some ([], rest)
      | s => do
          let (item, s) ← value s
          match skipLayout s with
          | ',' :: rest =>
              let (found, rest) ← items value fuel rest
              pure (item :: found, rest)
          | ']' :: rest => pure ([item], rest)
          | _ => none

/-- The assignments of an inline table, of which there is at least one.  A comma has to
be followed by another one. -/
def inlineAssignments (value : Scan Document) :
    Nat → Scan (List (List String × Document))
  | 0, _ => none
  | fuel + 1, s => do
      let (key, s) ← key? s
      match s with
      | '=' :: s =>
          let (document, s) ← value (skipBlanks s)
          match skipBlanks s with
          | ',' :: rest =>
              let (found, rest) ← inlineAssignments value fuel rest
              pure ((key, document) :: found, rest)
          | '\x7d' :: rest => pure ([(key, document)], rest)
          | _ => none
      | _ => none

def inlineTable? (assignments : List (List String × Document)) : Option Document := do
  let entries ← assignments.foldlM
    (fun (entries : Entries) assignment => entries.assign assignment.1 assignment.2) []
  pure entries.toDocument

def inlineTable (value : Scan Document) (s : List Char) : Option (Document × List Char) :=
  match skipBlanks s with
  | '\x7d' :: rest => some (.table [], rest)
  | s => do
      let (assignments, rest) ← inlineAssignments value (s.length + 1) s
      let table ← inlineTable? assignments
      pure (table, rest)

def scalar? : Scan Document
  | 't' :: 'r' :: 'u' :: 'e' :: rest => some (.boolean true, rest)
  | 'f' :: 'a' :: 'l' :: 's' :: 'e' :: rest => some (.boolean false, rest)
  | '"' :: rest => (string? ('"' :: rest)).map fun found => (.text (String.ofList found.1), found.2)
  | '\x27' :: rest =>
      (string? ('\x27' :: rest)).map fun found => (.text (String.ofList found.1), found.2)
  | s => number? s

/-- A value.  The first argument says how many lists and inline tables may be opened
inside one another. -/
def valueWithin : Nat → Scan Document
  | 0, '[' :: _ => none
  | 0, '\x7b' :: _ => none
  | depth + 1, '[' :: rest =>
      (items (valueWithin depth) (rest.length + 1) rest).map fun found =>
        (.list found.1, found.2)
  | depth + 1, '\x7b' :: rest => inlineTable (valueWithin depth) rest
  | _, s => scalar? s

def value? : Scan Document :=
  valueWithin (nestingLimit - 1)

end Rollout.Toml
