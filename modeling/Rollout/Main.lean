import Rollout.CommandLine.Outcome
import Rollout.Task.Suffix

/-! The program: arguments and files come in, a plan and a complaint go out. -/

namespace Rollout

def FileError.ofSystem : IO.Error → FileError
  | .permissionDenied .. => .denied
  | .inappropriateType _ code _ => if code = 20 then .notDirectory else .directory
  | .invalidArgument _ code _ => if code = 36 then .nameTooLong else .absent
  | _ => .absent

def fileContent (path : String) : IO (Except FileError ByteArray) := do
  try
    return .ok (← IO.FS.readBinFile path)
  catch cause =>
    return .error (.ofSystem cause)

def randomStart : IO Nat := do
  let bytes ← IO.getRandomBytes 16
  return bytes.toList.foldl (fun number byte => 256 * number + byte.toNat) 0

end Rollout

def main (arguments : List String) : IO UInt32 := do
  let start ← Rollout.randomStart
  let clock := (← IO.monoMsNow) / 1000
  let outcome ← Rollout.CommandLine.run "rollout" (Rollout.TaskId.suffixesFrom start)
    Rollout.Arrangement.byId clock Rollout.fileContent arguments
  IO.print outcome.output
  match outcome.ending with
  | .failure message => IO.eprintln message
  | .misuse cause => IO.eprintln ("error: " ++ cause.message)
  | _ => pure ()
  return outcome.ending.exitCode
