/-! Task ids.  An id is a task name, two underscores and a suffix that makes it unique, so the
name can be recovered from a report that carries only the id.  The split is at the last pair of
underscores: a name may hold any number of them. -/

namespace Rollout

abbrev TaskId := String

namespace TaskId

def separator : String := "__"

def compose (name suffix : String) : TaskId :=
  name ++ separator ++ suffix

def splitLast : List Char → Option (List Char × List Char)
  | [] => none
  | c :: rest =>
      match splitLast rest with
      | some (before, after) => some (c :: before, after)
      | none =>
          match c, rest with
          | '_', '_' :: after => some ([], after)
          | _, _ => none

/-- The task name inside an id.  An id without a name or without a suffix is
malformed. -/
def taskName? (id : TaskId) : Option String :=
  match splitLast id.toList with
  | some (before, after) =>
      if before.isEmpty || after.isEmpty then none else some (String.ofList before)
  | none => none

end TaskId

end Rollout
