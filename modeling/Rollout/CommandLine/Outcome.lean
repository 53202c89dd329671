import Rollout.Codec.Snapshot
import Rollout.CommandLine.Arguments
import Rollout.Json.Printer
import Rollout.Rehearsal.Basic
import Rollout.Service.File

/-! Runs of the command line.  A run prints a plan, or says why it cannot; a plan with invalid
steps and an unfinished rehearsal are printed first and complained about afterwards. -/

namespace Rollout.CommandLine

inductive Ending where
  | success
  /-- With a complaint. -/
  | failure (message : String)
  /-- Before it began: its arguments were wrong. -/
  | misuse (cause : ArgumentError)
  /-- Abruptly, with nothing printed. -/
  | aborted
  deriving DecidableEq, Repr

namespace Ending

def exitCode : Ending → UInt32
  | .success => 0
  | .failure _ => 1
  | .misuse _ => 2
  | .aborted => 101

end Ending

structure Outcome where
  output : String
  ending : Ending
  deriving DecidableEq, Repr

namespace Outcome

def failed (message : String) : Outcome := ⟨"", .failure ("Error: " ++ message)⟩

def printed (output : String) (complaint : Option String) : Outcome :=
  match complaint with
  | none => ⟨output, .success⟩
  | some message => ⟨output, .failure ("Error: " ++ message)⟩

end Outcome

def Format.show (arrangement : Arrangement) (plan : Plan Step) : Format → String
  | .text => (plan.snapshot arrangement).render
  | .json => Json.pretty (plan.snapshot arrangement).toDocument ++ "\n"

/-- The complaint about an error with a cause.  The cause is indented, every line of
it. -/
def causedBy (message cause : String) : String :=
  message ++ "\n\nCaused by:\n    " ++ "\n    ".intercalate (cause.splitOn "\n")

def Outcome.validation (arrangement : Arrangement) (file : ServiceFile) (format : Format) :
    Outcome :=
  match Plan.ofService file with
  | .error cause => .failed cause.message
  | .ok plan =>
      let invalid := plan.invalidSteps.length
      .printed (format.show arrangement plan)
        (if invalid = 0 then none
        else some (toString invalid ++ " step(s) in " ++ file.service.name ++
          " have validation errors"))

def Outcome.simulation (suffix : Nat → String) (arrangement : Arrangement) (clock : Nat)
    (file : ServiceFile) (failing : List String) (timeoutSecs : Nat) (format : Format) :
    Outcome :=
  match Plan.ofService file with
  | .error cause => .failed (causedBy cause.qualifiedMessage cause.message)
  | .ok plan =>
      match Rehearsal.run suffix arrangement clock file.settings plan failing timeoutSecs with
      | .aborted => ⟨"", .aborted⟩
      | .ended last error =>
          .printed (format.show arrangement last) (error.map RehearsalError.message)

def version : String := "0.1.0"

def qualifiedName (program : String) : Option Verb → String
  | none => program
  | some verb => program ++ "-" ++ verb.name

def usage (program : String) : Option Verb → String
  | none => "Usage: " ++ program ++ " <validate|simulate|help>\n"
  | some .validate => "Usage: " ++ program ++ " validate [--format FORMAT] PATH\n"
  | some .simulate =>
      "Usage: " ++ program ++
        " simulate [--fail TASK]... [--timeout-secs SECONDS] [--format FORMAT] PATH\n"

def Job.run (suffix : Nat → String) (arrangement : Arrangement) (clock : Nat)
    (content : Except FileError ByteArray) (job : Job) : Outcome :=
  match ServiceFile.load content, job with
  | .error cause, _ => .failed cause.message
  | .ok file, .validate format => .validation arrangement file format
  | .ok file, .simulate failing timeoutSecs format =>
      .simulation suffix arrangement clock file failing timeoutSecs format

/-- A run, given its arguments, the second of the clock, and a way to get the content
of a file. -/
def run {m : Type → Type} [Monad m] (program : String) (suffix : Nat → String)
    (arrangement : Arrangement) (clock : Nat)
    (content : String → m (Except FileError ByteArray)) (arguments : List String) :
    m Outcome :=
  match readRequest arguments with
  | .error cause => pure ⟨"", .misuse cause⟩
  | .ok (.help verb) => pure ⟨usage program verb, .success⟩
  | .ok (.version verb) =>
      pure ⟨qualifiedName program verb ++ " " ++ version ++ "\n", .success⟩
  | .ok (.job path job) => do
      let found ← content path
      pure (job.run suffix arrangement clock found)

end Rollout.CommandLine
