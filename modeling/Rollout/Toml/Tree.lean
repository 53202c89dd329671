import Rollout.Document.Basic

/-! How the tables of a TOML text grow.  A table may be spread over several headers and dotted
keys, but each part may be defined only once; whether a table can still be extended depends on how
it came about. -/

namespace Rollout.Toml

inductive Origin where
  /-- By a header of its own, or as an item of a list of tables. -/
  | declared
  /-- As the parent of a table with a header. -/
  | implied
  /-- By a dotted key. -/
  | dotted
  deriving DecidableEq, Repr

/-- A value, a table, or a list of tables; lists of tables keep the last one first. -/
inductive Node where
  | value (document : Document)
  | table (origin : Origin) (entries : List (String × Node))
  | tables (last : List (String × Node)) (earlier : List (List (String × Node)))
  deriving Inhabited

abbrev Entries := List (String × Node)

namespace Entries

def find? (entries : Entries) (key : String) : Option Node :=
  entries.lookup key

def replace (entries : Entries) (key : String) (node : Node) : Entries :=
  entries.map fun entry => if entry.1 = key then (key, node) else entry

def remove (entries : Entries) (key : String) : Entries :=
  entries.filter fun entry => entry.1 != key

def add (entries : Entries) (key : String) (node : Node) : Entries :=
  entries ++ [(key, node)]

/-- Changes the table at the end of a path.  A missing table on the way is created
with the given origin.  A list of tables stands for its last table.  A value is no
table, and a dotted path does not pass through a declared table. -/
def descend (origin : Origin) (change : Origin → Entries → Option Entries) :
    Origin → List String → Entries → Option Entries
  | here, [], entries => change here entries
  | _, key :: path, entries =>
      match find? entries key with
      | none => do
          let inner ← descend origin change origin path []
          pure (add entries key (.table origin inner))
      | some (.value _) => none
      | some (.table found inner) =>
          if origin = .dotted ∧ found = .declared then none
          else do
            let inner ← descend origin change found path inner
            pure (replace entries key (.table found inner))
      | some (.tables last earlier) => do
          let last ← descend origin change .declared path last
          pure (replace entries key (.tables last earlier))

/-- Sets a value under a new key.  After a dotted path the table must have been made by
dotted keys. -/
def insertNew (isDottedPath : Bool) (key : String) (document : Document) (here : Origin)
    (entries : Entries) : Option Entries :=
  if isDottedPath && here != .dotted then none
  else if (find? entries key).isSome then none
  else some (add entries key (.value document))

def splitKey : List String → Option (List String × String)
  | [] => none
  | [last] => some ([], last)
  | part :: rest => (splitKey rest).map fun found => (part :: found.1, found.2)

def assign (entries : Entries) (key : List String) (document : Document) : Option Entries := do
  let (path, last) ← splitKey key
  descend .dotted (insertNew (!path.isEmpty) last document) .declared path entries

/-- Declares a table.  If it was implied before, it keeps what it holds and moves to
the end. -/
def declareTable (last : String) (_ : Origin) (entries : Entries) : Option Entries :=
  match find? entries last with
  | none => some (add entries last (.table .declared []))
  | some (.table .implied inner) =>
      some (add (remove entries last) last (.table .declared inner))
  | some _ => none

def declareItem (last : String) (_ : Origin) (entries : Entries) : Option Entries :=
  match find? entries last with
  | none => some (add entries last (.tables [] []))
  | some (.tables current earlier) =>
      some (replace entries last (.tables [] (current :: earlier)))
  | some _ => none

def openHeader (declare : String → Origin → Entries → Option Entries)
    (entries : Entries) (path : List String) : Option Entries := do
  let (parents, last) ← splitKey path
  descend .implied (declare last) .declared parents entries

def assignUnder (entries : Entries) (header : List String) (key : List String)
    (document : Document) : Option Entries :=
  descend .implied (fun _ inner => assign inner key document) .declared header entries

end Entries

mutual

def Node.toDocument : Node → Document
  | .value document => document
  | .table _ entries => .table (documentsOfEntries entries)
  | .tables last earlier =>
      .tables (documentsOfTables earlier [.table (documentsOfEntries last)])

def documentsOfEntries : List (String × Node) → List (String × Document)
  | [] => []
  | (key, node) :: rest => (key, node.toDocument) :: documentsOfEntries rest

def documentsOfTables : List (List (String × Node)) → List Document → List Document
  | [], following => following
  | entries :: rest, following =>
      documentsOfTables rest (.table (documentsOfEntries entries) :: following)

end

def Entries.toDocument (entries : Entries) : Document :=
  .table (documentsOfEntries entries)

end Rollout.Toml
