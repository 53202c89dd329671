import Rollout.Document.Basic
import Rollout.Text.Quoted

/-! Why a document could not be read as a typed value.  Each cause is a constructor; the wording
of all of them is `Mismatch.message`. -/

namespace Rollout

inductive Width where
  | word32
  | word64
  | size
  deriving DecidableEq, Repr

namespace Width

def name : Width → String
  | .word32 => "u32"
  | .word64 => "u64"
  | .size => "usize"

def bound : Width → Nat
  | .word32 => UInt32.size
  | .word64 => UInt64.size
  | .size => UInt64.size

end Width

structure RecordShape where
  name : String
  fields : List String
  deriving DecidableEq, Repr

namespace RecordShape

/-- `3 elements`, but `1 element`. -/
def countText (count : Nat) : String :=
  if count = 1 then "1 element" else toString count ++ " elements"

def describe (shape : RecordShape) : String :=
  shape.name ++ " with " ++ countText shape.fields.length

end RecordShape

inductive Expected where
  | text
  | boolean
  | natural (width : Width)
  | sequence
  | map
  | unit
  | choice
  | tag
  | record (shape : RecordShape)
  | tagged (name : String)
  deriving DecidableEq, Repr

namespace Expected

def describe : Expected → String
  | .text => "a string"
  | .boolean => "a boolean"
  | .natural width => width.name
  | .sequence => "a sequence"
  | .map => "a map"
  | .unit => "unit"
  | .choice => "string or map"
  | .tag => "variant identifier"
  | .record shape => shape.name
  | .tagged name => "internally tagged enum " ++ name

end Expected

namespace Document

def ticked (s : String) : String := "`" ++ s ++ "`"

/-- A value as a message names it: its kind, and the value itself when it is small. -/
def describe (style : NumberStyle) : Document → String
  | .null => "null"
  | .boolean value => "boolean " ++ ticked (if value then "true" else "false")
  | .integer value => "integer " ++ ticked (toString value)
  | .float value => "floating point " ++ ticked (value.write style)
  | .text value => "string " ++ Text.quoted value
  | .moment _ => "map"
  | .list _ => "sequence"
  | .tables _ => "sequence"
  | .table _ => "map"

def kindName : Document → String
  | .null => "none"
  | .boolean _ => "boolean"
  | .integer _ => "integer"
  | .float _ => "float"
  | .text _ => "string"
  | .moment _ => "datetime"
  | .list _ => "array"
  | .tables _ => "array of tables"
  | .table _ => "table"

end Document

inductive Mismatch where
  | wrongKind (found : Document) (expected : Expected)
  | outOfRange (found : Int) (width : Width)
  | missingField (name : String)
  | tooShort (length : Nat) (shape : RecordShape)
  | tooLong (length : Nat)
  | wrongCount (length expected : Nat)
  | unknownVariant (found : String) (known : List String)
  | notSingleKey
  | notTextOrTable
  | noVariant
  | severalVariants
  | contentTable
  | contentList
  | contentKind (found : Document)
  deriving Repr

namespace Mismatch

def variantsText (known : List String) : String :=
  match known.map (fun name => "`" ++ name ++ "`") with
  | [] => "there are no variants"
  | [only] => "expected " ++ only
  | [first, second] => "expected " ++ first ++ " or " ++ second
  | several => "expected one of " ++ ", ".intercalate several

def message (style : NumberStyle) : Mismatch → String
  | .wrongKind found expected =>
      "invalid type: " ++ found.describe style ++ ", expected " ++ expected.describe
  | .outOfRange found width =>
      "invalid value: integer `" ++ toString found ++ "`, expected " ++ width.name
  | .missingField name => "missing field `" ++ name ++ "`"
  | .tooShort length shape =>
      "invalid length " ++ toString length ++ ", expected " ++ shape.describe
  | .tooLong length =>
      "invalid length " ++ toString length ++ ", expected fewer elements in array"
  | .wrongCount length expected =>
      "invalid length " ++ toString length ++ ", expected " ++
        RecordShape.countText expected ++ " in sequence"
  | .unknownVariant found known =>
      "unknown variant `" ++ found ++ "`, " ++ variantsText known
  | .notSingleKey => "invalid value: map, expected map with a single key"
  | .notTextOrTable => "wanted string or table"
  | .noVariant => "wanted exactly 1 element, found 0 elements"
  | .severalVariants => "wanted exactly 1 element, more than 1 element"
  | .contentTable => "expected empty table"
  | .contentList => "expected empty array"
  | .contentKind found => "expected table, found " ++ found.kindName

end Mismatch

end Rollout
