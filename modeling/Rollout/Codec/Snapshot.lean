import Rollout.Codec.Words
import Rollout.Snapshot.Basic

/-! Snapshots as documents.  An absent strategy and empty lists are left out of the document, and
what is left out is read as absent or empty. -/

namespace Rollout

namespace TaskSnapshot

def shape : RecordShape :=
  ⟨"struct TaskSnapshot", ["name", "task_id", "status"]⟩

def toDocument (task : TaskSnapshot) : Document :=
  .table [
    ("name", .text task.name),
    ("task_id", .text task.taskId),
    ("status", task.status.toDocument)]

def read (dialect : Dialect) : Reader TaskSnapshot :=
  dialect.record shape fun fields =>
    TaskSnapshot.mk
      <$> fields.required "name" Reader.text
      <*> fields.required "task_id" Reader.text
      <*> fields.required "status" (Status.read dialect)

end TaskSnapshot

namespace Snapshot

def shape : RecordShape :=
  ⟨"struct ElementSnapshot", ["name", "status", "strategy", "errors", "children", "tasks"]⟩

def listEntry (key : String) : List Document → List (String × Document)
  | [] => []
  | items => [(key, .list items)]

def strategyEntry : Option StrategyKind → List (String × Document)
  | none => []
  | some kind => [("strategy", kind.toDocument)]

mutual

def toDocument : Snapshot → Document
  | .node name status strategy errors children tasks =>
      .table (
        ("name", .text name) :: ("status", status.toDocument) ::
          (strategyEntry strategy ++
            listEntry "errors" (errors.map .text) ++
            listEntry "children" (toDocuments children) ++
            listEntry "tasks" (tasks.map TaskSnapshot.toDocument)))

def toDocuments : List Snapshot → List Document
  | [] => []
  | child :: rest => toDocument child :: toDocuments rest

end

def readWithin (dialect : Dialect) : Nat → Reader Snapshot
  | 0, document => .error (.wrongKind document (.record shape))
  | levels + 1, document =>
      dialect.record shape (fun fields =>
        Snapshot.node
          <$> fields.required "name" Reader.text
          <*> fields.required "status" (Status.read dialect)
          <*> fields.optional "strategy" (StrategyKind.read dialect)
          <*> fields.withDefault "errors" [] (Reader.listOf Reader.text)
          <*> fields.withDefault "children" [] (Reader.listOf (readWithin dialect levels))
          <*> fields.withDefault "tasks" [] (Reader.listOf (TaskSnapshot.read dialect)))
        document

/-- Reads a tree.  Every level below the first is nested in another one. -/
def read (dialect : Dialect) : Reader Snapshot := fun document =>
  readWithin dialect (document.nesting + 1) document

end Snapshot

end Rollout
