import Rollout.Service.Text

/-! Service files on disk.  Whatever keeps a file from being read is known before its text is
looked at. -/

namespace Rollout

inductive FileError where
  | absent
  | denied
  | notDirectory
  | directory
  | nameTooLong
  | notText
  deriving DecidableEq, Repr

namespace FileError

def message : FileError → String
  | .absent => "No such file or directory (os error 2)"
  | .denied => "Permission denied (os error 13)"
  | .notDirectory => "Not a directory (os error 20)"
  | .directory => "Is a directory (os error 21)"
  | .nameTooLong => "File name too long (os error 36)"
  | .notText => "stream did not contain valid UTF-8"

end FileError

inductive LoadError where
  | file (cause : FileError)
  | text (cause : ServiceTextError)
  deriving Repr

namespace LoadError

def message : LoadError → String
  | .file cause => cause.message
  | .text _ => "TOML parse error"

end LoadError

namespace ServiceFile

def ofBytes (bytes : ByteArray) : Except LoadError ServiceFile :=
  match String.fromUTF8? bytes with
  | none => .error (.file .notText)
  | some text => (ofToml text).mapError .text

def load (content : Except FileError ByteArray) : Except LoadError ServiceFile :=
  match content with
  | .error cause => .error (.file cause)
  | .ok bytes => ofBytes bytes

end ServiceFile

end Rollout
