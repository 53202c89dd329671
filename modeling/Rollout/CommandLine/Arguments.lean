/-! Arguments: what a run was asked to do.  Arguments are taken from left to right, and the first
fault decides; a request for help or for the version counts unless a fault came before it. -/

namespace Rollout.CommandLine

inductive Format where
  | text
  | json
  deriving DecidableEq, Repr

namespace Format

/-- Any name but one asks for text. -/
def ofName (name : String) : Format :=
  if name = "json" then .json else .text

end Format

inductive Verb where
  | validate
  | simulate
  deriving DecidableEq, Repr

namespace Verb

def all : List Verb := [.validate, .simulate]

def name : Verb → String
  | .validate => "validate"
  | .simulate => "simulate"

def ofName? (name : String) : Option Verb :=
  all.find? fun verb => verb.name == name

end Verb

inductive OptionKey where
  | format
  | fail
  | timeoutSecs
  deriving DecidableEq, Repr

namespace OptionKey

def long : OptionKey → String
  | .format => "format"
  | .fail => "fail"
  | .timeoutSecs => "timeout-secs"

def letter? : OptionKey → Option Char
  | .format => some 'f'
  | _ => none

end OptionKey

def Verb.options : Verb → List OptionKey
  | .validate => [.format]
  | .simulate => [.fail, .timeoutSecs, .format]

inductive Job where
  | validate (format : Format)
  | simulate (failing : List String) (timeoutSecs : Nat) (format : Format)
  deriving DecidableEq, Repr

inductive Request where
  | help (verb : Option Verb)
  | version (verb : Option Verb)
  | job (path : String) (job : Job)
  deriving DecidableEq, Repr

inductive ArgumentError where
  | missingCommand
  | unknownCommand (name : String)
  | unknownOption (written : String)
  | unexpectedValue (written : String)
  | missingValue (key : OptionKey)
  | repeatedOption (key : OptionKey)
  | malformedNumber (written : String)
  | missingPath
  | emptyPath
  | surplus (written : String)
  deriving DecidableEq, Repr

namespace ArgumentError

def message : ArgumentError → String
  | .missingCommand => "a command is required"
  | .unknownCommand name => "unrecognized command '" ++ name ++ "'"
  | .unknownOption written => "unexpected option '" ++ written ++ "'"
  | .unexpectedValue written => "unexpected value in '" ++ written ++ "'"
  | .missingValue key => "a value is required for '--" ++ key.long ++ "'"
  | .repeatedOption key => "'--" ++ key.long ++ "' cannot be used more than once"
  | .malformedNumber written => "'" ++ written ++ "' is not a number of seconds"
  | .missingPath => "a path is required"
  | .emptyPath => "the path is empty"
  | .surplus written => "unexpected argument '" ++ written ++ "'"

end ArgumentError

/-! ### The form of one argument -/

inductive Form where
  /-- All arguments after this one are plain. -/
  | plainFromHere
  | long (name : String) (value : Option String)
  | short (letter : Char) (rest : List Char)
  | plain (written : String)
  deriving DecidableEq, Repr

namespace Form

def splitValue : List Char → List Char × Option (List Char)
  | [] => ([], none)
  | '=' :: value => ([], some value)
  | c :: rest =>
      let (name, value) := splitValue rest
      (c :: name, value)

/-- A lone dash is plain. -/
def of (written : String) : Form :=
  match written.toList with
  | ['-', '-'] => .plainFromHere
  | '-' :: '-' :: rest =>
      let (name, value) := splitValue rest
      .long (String.ofList name) (value.map String.ofList)
  | '-' :: letter :: rest => .short letter rest
  | _ => .plain written

end Form

inductive Inquiry where
  | help
  | version
  deriving DecidableEq, Repr

namespace Inquiry

def ofLong? (name : String) : Option Inquiry :=
  if name = "help" then some .help
  else if name = "version" then some .version
  else none

def ofLetter? (letter : Char) : Option Inquiry :=
  if letter = 'h' then some .help
  else if letter = 'V' then some .version
  else none

def request (verb : Option Verb) : Inquiry → Request
  | .help => .help verb
  | .version => .version verb

end Inquiry

inductive Meaning where
  | plainFromHere
  | inquiry (asked : Inquiry)
  | option (key : OptionKey) (value : Option String)
  | plain (written : String)
  deriving DecidableEq, Repr

namespace Meaning

/-- Letters after that of an inquiry are not looked at; those after the letter of an
option are its value, with or without an equals sign in front. -/
def of (options : List OptionKey) (written : String) : Except ArgumentError Meaning :=
  match Form.of written with
  | .plainFromHere => .ok .plainFromHere
  | .plain written => .ok (.plain written)
  | .long name value =>
      match Inquiry.ofLong? name, options.find? (fun key => key.long == name) with
      | some asked, _ =>
          if value.isSome then .error (.unexpectedValue written) else .ok (.inquiry asked)
      | none, some key => .ok (.option key value)
      | none, none => .error (.unknownOption written)
  | .short letter rest =>
      match Inquiry.ofLetter? letter, options.find? (fun key => key.letter? == some letter) with
      | some asked, _ => .ok (.inquiry asked)
      | none, some key =>
          .ok (.option key
            (match rest with
              | [] => none
              | '=' :: value => some (String.ofList value)
              | value => some (String.ofList value)))
      | none, none => .error (.unknownOption written)

end Meaning

/-! ### A command and its arguments -/

/-- A number of seconds: decimal digits, with or without a plus sign, below 2^64. -/
def seconds? (written : String) : Option Nat :=
  let digits :=
    match written.toList with
    | '+' :: rest => rest
    | characters => characters
  if digits.isEmpty || !digits.all Char.isDigit then none
  else
    let value := digits.foldl (fun total digit => 10 * total + (digit.toNat - '0'.toNat)) 0
    if value < UInt64.size then some value else none

structure Draft where
  path : Option String
  format : Option Format
  failing : List String
  timeoutSecs : Option Nat
  deriving DecidableEq, Repr

namespace Draft

def empty : Draft := ⟨none, none, [], none⟩

/-- Takes the value of an option.  Only one option may be repeated. -/
def takeOption (draft : Draft) (key : OptionKey) (value : String) :
    Except ArgumentError Draft :=
  match key with
  | .fail => .ok { draft with failing := draft.failing ++ [value] }
  | .format =>
      if draft.format.isSome then .error (.repeatedOption key)
      else .ok { draft with format := some (.ofName value) }
  | .timeoutSecs =>
      if draft.timeoutSecs.isSome then .error (.repeatedOption key)
      else
        match seconds? value with
        | some seconds => .ok { draft with timeoutSecs := some seconds }
        | none => .error (.malformedNumber value)

def takePlain (draft : Draft) (written : String) : Except ArgumentError Draft :=
  if draft.path.isSome then .error (.surplus written)
  else if written.isEmpty then .error .emptyPath
  else .ok { draft with path := some written }

def defaultTimeoutSecs : Nat := 30

def finish (verb : Verb) (draft : Draft) : Except ArgumentError Request :=
  match draft.path with
  | none => .error .missingPath
  | some path =>
      let format := draft.format.getD .text
      .ok (.job path
        (match verb with
          | .validate => .validate format
          | .simulate =>
              .simulate draft.failing (draft.timeoutSecs.getD defaultTimeoutSecs) format))

end Draft

def isValue (written : String) : Bool :=
  match Form.of written with
  | .plain _ => true
  | _ => false

def readArguments (verb : Verb) (draft : Draft) : List String → Except ArgumentError Request
  | [] => draft.finish verb
  | argument :: rest => do
      match ← Meaning.of verb.options argument with
      | .plainFromHere =>
          let last ← rest.foldlM Draft.takePlain draft
          last.finish verb
      | .inquiry asked => pure (asked.request (some verb))
      | .plain written =>
          let next ← draft.takePlain written
          readArguments verb next rest
      | .option key (some value) =>
          let next ← draft.takeOption key value
          readArguments verb next rest
      | .option key none =>
          match rest with
          | [] => .error (.missingValue key)
          | value :: others =>
              if isValue value then do
                let next ← draft.takeOption key value
                readArguments verb next others
              else .error (.missingValue key)

/-- Reads what follows a request for help: the name of one command, or of help
itself. -/
def readHelp : List String → Except ArgumentError Request
  | [] => .ok (.help none)
  | name :: rest =>
      match Verb.ofName? name, rest with
      | some verb, [] => .ok (.help (some verb))
      | some _, surplus :: _ => .error (.unknownCommand surplus)
      | none, rest =>
          if name = "help" then
            match rest with
            | [] => .ok (.help none)
            | surplus :: _ => .error (.unknownCommand surplus)
          else .error (.unknownCommand name)

def readRequest : List String → Except ArgumentError Request
  | [] => .error .missingCommand
  | argument :: rest =>
      if argument = "help" then readHelp rest
      else
        match Verb.ofName? argument with
        | some verb => readArguments verb .empty rest
        | none =>
            match Meaning.of [] argument with
            | .error cause => .error cause
            | .ok (.inquiry asked) => .ok (asked.request none)
            | .ok _ => .error (.unknownCommand argument)

end Rollout.CommandLine
