import Rollout.Toml.Value

/-! A TOML text is a sequence of statements, each on lines of its own: headers, and assignments to
the table whose header came last. -/

namespace Rollout.Toml

open Text (Scan)

inductive Statement where
  /-- `key = value`; the key may have several parts. -/
  | assign (key : List String) (value : Document)
  /-- `[path]` -/
  | header (path : List String)
  /-- `[[path]]` -/
  | item (path : List String)
  deriving Repr

namespace Statement

def scan? : Scan Statement
  | '[' :: '[' :: rest => do
      let (path, s) ← key? rest
      match s with
      | ']' :: ']' :: s =>
          let rest ← lineEnd? s
          pure (.item path, rest)
      | _ => none
  | '[' :: rest => do
      let (path, s) ← key? rest
      match s with
      | ']' :: s =>
          let rest ← lineEnd? s
          pure (.header path, rest)
      | _ => none
  | s => do
      let (key, s) ← key? s
      match s with
      | '=' :: s =>
          let (value, s) ← value? (skipBlanks s)
          let rest ← lineEnd? s
          pure (.assign key value, rest)
      | _ => none

/-- All statements of a text.  Each statement, comment or empty line uses one unit of
`fuel`. -/
def scanAllWithin : Nat → List Char → Option (List Statement)
  | 0, _ => none
  | fuel + 1, s =>
      match skipBlanks s with
      | [] => some []
      | s =>
          match lineEnd? s with
          | some rest => scanAllWithin fuel rest
          | none => do
              let (statement, rest) ← scan? s
              let statements ← scanAllWithin fuel rest
              pure (statement :: statements)

def scanAll (s : List Char) : Option (List Statement) :=
  scanAllWithin (s.length + 1) s

end Statement

structure Building where
  root : Entries
  current : List String

namespace Building

def start : Building := ⟨[], []⟩

def apply (building : Building) : Statement → Option Building
  | .assign key value => do
      let root ← building.root.assignUnder building.current key value
      pure { building with root }
  | .header path => do
      let root ← building.root.openHeader Entries.declareTable path
      pure ⟨root, path⟩
  | .item path => do
      let root ← building.root.openHeader Entries.declareItem path
      pure ⟨root, path⟩

end Building

def build? (statements : List Statement) : Option Document := do
  let building ← statements.foldlM Building.apply .start
  pure building.root.toDocument

def skipMark : List Char → List Char
  | '\uFEFF' :: rest => rest
  | s => s

def read? (text : String) : Option Document := do
  let statements ← Statement.scanAll (skipMark text.toList)
  build? statements

end Rollout.Toml
