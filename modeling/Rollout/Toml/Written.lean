import Rollout.Toml.Statement

/-! Writing TOML text.  A text is written in the plainest of the four string forms that can hold
it: on one line if it can be, and with as few escapes as can be. -/

namespace Rollout.Toml

/-! ### Strings -/

inductive StringForm where
  | basic
  | literal
  | basicBlock
  | literalBlock
  deriving DecidableEq, Repr

/-- Control characters that only an escape can write; the tab and the line end are not
among them. -/
def needsEscape (c : Char) : Bool :=
  (c.toNat < 0x20 && c != '\t' && c != '\n') || c.toNat == 0x7F

def longestRunFrom (c : Char) (running : Nat) : List Char → Nat
  | [] => running
  | d :: rest =>
      if d = c then longestRunFrom c (running + 1) rest
      else max running (longestRunFrom c 0 rest)

def longestRun (c : Char) (s : List Char) : Nat :=
  longestRunFrom c 0 s

namespace StringForm

/-- Whether a form holds a text as it is, without any escape but that of the tab. -/
def holds (s : List Char) : StringForm → Bool
  | .basic =>
      !s.any needsEscape && !s.contains '\\' && !s.contains '"' && !s.contains '\n'
  | .literal => !s.any needsEscape && !s.contains '\x27' && !s.contains '\n'
  | .basicBlock => !s.any needsEscape && !s.contains '\\' && longestRun '"' s ≤ 2
  | .literalBlock => !s.any needsEscape && longestRun '\x27' s ≤ 2

def choose (s : List Char) : StringForm :=
  if holds s .basic then .basic
  else if holds s .literal then .literal
  else if holds s .basicBlock then .basicBlock
  else if holds s .literalBlock then .literalBlock
  else if s.contains '\n' then .basicBlock
  else .basic

/-- The form in which a part of a key is written; it stays on one line. -/
def chooseForKey (s : List Char) : StringForm :=
  if holds s .basic then .basic
  else if holds s .literal then .literal
  else .basic

end StringForm

def codeEscape (c : Char) : List Char :=
  '\\' :: 'u' :: (Text.hexDigits c.toNat 4).map Char.toUpper

def basicChar (c : Char) : List Char :=
  match c with
  | '\x08' => ['\\', 'b']
  | '\t' => ['\\', 't']
  | '\x0c' => ['\\', 'f']
  | '\r' => ['\\', 'r']
  | '\\' => ['\\', '\\']
  | c => if needsEscape c then codeEscape c else [c]

def basicContent : List Char → List Char
  | [] => []
  | '"' :: rest => '\\' :: '"' :: basicContent rest
  | '\n' :: rest => '\\' :: 'n' :: basicContent rest
  | c :: rest => basicChar c ++ basicContent rest

/-- The content of a block with escapes.  Line ends stay, and of quotes in a row every
third is escaped; `quotes` counts those since the last escape. -/
def basicBlockContent (quotes : Nat) : List Char → List Char
  | [] => []
  | '"' :: rest =>
      if quotes < 2 then '"' :: basicBlockContent (quotes + 1) rest
      else '\\' :: '"' :: basicBlockContent 0 rest
  | '\n' :: rest => '\n' :: basicBlockContent 0 rest
  | c :: rest => basicChar c ++ basicBlockContent 0 rest

/-- A block starts on a line of its own if its text has several lines. -/
def blockOpening (s : List Char) : List Char :=
  if s.contains '\n' then ['\n'] else []

def writeForm (s : List Char) : StringForm → List Char
  | .basic => '"' :: (basicContent s ++ ['"'])
  | .literal => '\x27' :: (s ++ ['\x27'])
  | .basicBlock =>
      ['"', '"', '"'] ++ blockOpening s ++ basicBlockContent 0 s ++ ['"', '"', '"']
  | .literalBlock =>
      ['\x27', '\x27', '\x27'] ++ blockOpening s ++ s ++ ['\x27', '\x27', '\x27']

def writeText (s : String) : List Char :=
  writeForm s.toList (.choose s.toList)

/-! ### Keys -/

def isBareKey (s : List Char) : Bool :=
  !s.isEmpty && s.all isBareKeyChar

def writeKeyPart (part : String) : List Char :=
  let s := part.toList
  if isBareKey s then s else writeForm s (.chooseForKey s)

def writeKey : List String → List Char
  | [] => []
  | [part] => writeKeyPart part
  | part :: rest => writeKeyPart part ++ '.' :: writeKey rest

/-! ### Lines -/

inductive Scalar where
  | text (value : String)
  | natural (value : Nat)
  | emptyList
  deriving DecidableEq, Repr

inductive Line where
  | assign (key : String) (value : Scalar)
  | header (path : List String)
  | item (path : List String)
  deriving DecidableEq, Repr

namespace Scalar

def toDocument : Scalar → Document
  | .text value => .text value
  | .natural value => .integer value
  | .emptyList => .list []

def write : Scalar → List Char
  | .text value => writeText value
  | .natural value => Nat.toDigits 10 value
  | .emptyList => ['[', ']']

/-- Whether the value has a written form: integers end with 63 bits. -/
def isWritable : Scalar → Bool
  | .natural value => inRange value
  | _ => true

end Scalar

namespace Line

def statement : Line → Statement
  | .assign key value => .assign [key] value.toDocument
  | .header path => .header path
  | .item path => .item path

def isWritable : Line → Bool
  | .assign _ value => value.isWritable
  | _ => true

def write : Line → List Char
  | .assign key value => writeKeyPart key ++ [' ', '=', ' '] ++ value.write ++ ['\n']
  | .header path => '[' :: (writeKey path ++ [']', '\n'])
  | .item path => '[' :: '[' :: (writeKey path ++ [']', ']', '\n'])

def isHeader : Line → Bool
  | .assign _ _ => false
  | _ => true

/-- Lines that follow others: an empty line stands before each header. -/
def writeAll : List Line → List Char
  | [] => []
  | line :: rest =>
      (if line.isHeader then ['\n'] else []) ++ line.write ++ writeAll rest

def writeText : List Line → List Char
  | [] => []
  | line :: rest => line.write ++ writeAll rest

end Line

inductive WriteError where
  | outOfRange
  deriving DecidableEq, Repr

namespace WriteError

def message : WriteError → String
  | .outOfRange => "out-of-range value for u64 type"

end WriteError

def write (lines : List Line) : Except WriteError String :=
  if lines.all Line.isWritable then .ok (String.ofList (Line.writeText lines))
  else .error .outOfRange

end Rollout.Toml
