import Rollout.Document.Basic
import Rollout.Text.Hex

/-! JSON text of a document, on one line or indented by two spaces.  Only what JSON requires is
escaped: the quote, the backslash and the control characters below the space. -/

namespace Rollout.Json

def stringChar (c : Char) : List Char :=
  match c with
  | '"' => ['\\', '"']
  | '\\' => ['\\', '\\']
  | '\n' => ['\\', 'n']
  | '\r' => ['\\', 'r']
  | '\t' => ['\\', 't']
  | '\x08' => ['\\', 'b']
  | '\x0c' => ['\\', 'f']
  | c =>
      if c.toNat < 0x20 then '\\' :: 'u' :: Text.hexDigits c.toNat 4
      else [c]

def string (s : String) : String :=
  String.ofList ('"' :: (s.toList.flatMap stringChar ++ ['"']))

def scalar : Document → String
  | .null => "null"
  | .boolean value => if value then "true" else "false"
  | .integer value => toString value
  | .float (.finite negative magnitude) => NumberStyle.compact.write negative magnitude
  | .float _ => "null"
  | .text value => string value
  | .moment written => string written
  | .list _ => "[]"
  | .tables _ => "[]"
  | .table _ => "\x7b\x7d"

mutual

def compact : Document → String
  | .list items => "[" ++ compactItems items ++ "]"
  | .tables items => "[" ++ compactItems items ++ "]"
  | .table entries => "\x7b" ++ compactEntries entries ++ "\x7d"
  | document => scalar document

def compactItems : List Document → String
  | [] => ""
  | [item] => compact item
  | item :: rest => compact item ++ "," ++ compactItems rest

def compactEntries : List (String × Document) → String
  | [] => ""
  | [(key, value)] => string key ++ ":" ++ compact value
  | (key, value) :: rest => string key ++ ":" ++ compact value ++ "," ++ compactEntries rest

end

def indent (depth : Nat) : String :=
  String.ofList (List.replicate (2 * depth) ' ')

mutual

/-- The text with one item or entry a line; an empty list or table takes none. -/
def prettyAt (depth : Nat) : Document → String
  | .list [] => "[]"
  | .list items => "[\n" ++ prettyItems (depth + 1) items ++ "\n" ++ indent depth ++ "]"
  | .tables [] => "[]"
  | .tables items => "[\n" ++ prettyItems (depth + 1) items ++ "\n" ++ indent depth ++ "]"
  | .table [] => "\x7b\x7d"
  | .table entries =>
      "\x7b\n" ++ prettyEntries (depth + 1) entries ++ "\n" ++ indent depth ++ "\x7d"
  | document => scalar document

def prettyItems (depth : Nat) : List Document → String
  | [] => ""
  | [item] => indent depth ++ prettyAt depth item
  | item :: rest =>
      indent depth ++ prettyAt depth item ++ ",\n" ++ prettyItems depth rest

def prettyEntries (depth : Nat) : List (String × Document) → String
  | [] => ""
  | [(key, value)] => indent depth ++ string key ++ ": " ++ prettyAt depth value
  | (key, value) :: rest =>
      indent depth ++ string key ++ ": " ++ prettyAt depth value ++ ",\n" ++
        prettyEntries depth rest

end

def pretty (document : Document) : String :=
  prettyAt 0 document

end Rollout.Json
