import Rollout.Document.Basic
import Rollout.Text.Hex
import Rollout.Text.Scan

/-! The small pieces of TOML text: blanks, comments, line ends, keys and strings.  Each scan reads
a piece from the front of a text and returns it with what follows. -/

namespace Rollout.Toml

open Text (Scan hexValue?)

/-! ### Characters -/

def isBlank (c : Char) : Bool :=
  c == ' ' || c == '\t'

/-- Characters that may stand in comments and, apart from delimiters, in strings: the
tab, and everything but the control characters. -/
def isPlain (c : Char) : Bool :=
  c == '\t' || (0x20 ≤ c.toNat && c.toNat ≤ 0x7E) || 0x80 ≤ c.toNat

def isBareKeyChar (c : Char) : Bool :=
  c.isAlphanum || c == '-' || c == '_'

def charOfHex? (digits : List Char) : Option Char := do
  let values ← digits.mapM hexValue?
  let code := values.foldl (fun n digit => n * 16 + digit) 0
  if code.isValidChar then some (Char.ofNat code) else none

def escaped? : Char → Option Char
  | 'b' => some '\x08'
  | 't' => some '\t'
  | 'n' => some '\n'
  | 'f' => some '\x0c'
  | 'r' => some '\r'
  | '"' => some '"'
  | '\\' => some '\\'
  | _ => none

/-! ### Blanks, comments and line ends -/

def skipBlanks (s : List Char) : List Char :=
  s.dropWhile isBlank

def newline? : List Char → Option (List Char)
  | '\n' :: rest => some rest
  | '\r' :: '\n' :: rest => some rest
  | _ => none

def skipComment : List Char → List Char
  | '#' :: rest => rest.dropWhile isPlain
  | s => s

/-- The rest after blanks, a comment and a line end; the end of the text also ends a
line. -/
def lineEnd? (s : List Char) : Option (List Char) :=
  match skipComment (skipBlanks s) with
  | [] => some []
  | rest => newline? rest

def skipLayoutFrom (inComment : Bool) : List Char → List Char
  | [] => []
  | '\n' :: rest => skipLayoutFrom false rest
  | '\r' :: '\n' :: rest => skipLayoutFrom false rest
  | c :: rest =>
      if inComment then
        if isPlain c then skipLayoutFrom true rest else c :: rest
      else if isBlank c then skipLayoutFrom false rest
      else if c == '#' then skipLayoutFrom true rest
      else c :: rest

def skipLayout (s : List Char) : List Char :=
  skipLayoutFrom false s

/-! ### Strings -/

def basicBody : Scan (List Char)
  | '"' :: rest => some ([], rest)
  | '\\' :: 'u' :: a :: b :: c :: d :: rest => do
      let char ← charOfHex? [a, b, c, d]
      let (chars, rest) ← basicBody rest
      pure (char :: chars, rest)
  | '\\' :: 'U' :: a :: b :: c :: d :: e :: f :: g :: h :: rest => do
      let char ← charOfHex? [a, b, c, d, e, f, g, h]
      let (chars, rest) ← basicBody rest
      pure (char :: chars, rest)
  | '\\' :: c :: rest => do
      let char ← escaped? c
      let (chars, rest) ← basicBody rest
      pure (char :: chars, rest)
  | c :: rest =>
      if isPlain c && c != '\\' then do
        let (chars, rest) ← basicBody rest
        pure (c :: chars, rest)
      else none
  | [] => none

def literalBody : Scan (List Char)
  | '\x27' :: rest => some ([], rest)
  | c :: rest =>
      if isPlain c then do
        let (chars, rest) ← literalBody rest
        pure (c :: chars, rest)
      else none
  | [] => none

def startsLineEnd (s : List Char) : Bool :=
  (newline? (skipBlanks s)).isSome

/-- A string over several lines with escapes.  A backslash at the end of a line skips
to the next character that is not blank; `skipping` says that this is going on.  Up to
two quotes may stand before the closing three. -/
def basicBlockBody (skipping : Bool) : Scan (List Char)
  | '"' :: '"' :: '"' :: '"' :: '"' :: rest => some (['"', '"'], rest)
  | '"' :: '"' :: '"' :: '"' :: rest => some (['"'], rest)
  | '"' :: '"' :: '"' :: rest => some ([], rest)
  | '\\' :: 'u' :: a :: b :: c :: d :: rest => do
      let char ← charOfHex? [a, b, c, d]
      let (chars, rest) ← basicBlockBody false rest
      pure (char :: chars, rest)
  | '\\' :: 'U' :: a :: b :: c :: d :: e :: f :: g :: h :: rest => do
      let char ← charOfHex? [a, b, c, d, e, f, g, h]
      let (chars, rest) ← basicBlockBody false rest
      pure (char :: chars, rest)
  | '\\' :: c :: rest =>
      match escaped? c with
      | some char => do
          let (chars, rest) ← basicBlockBody false rest
          pure (char :: chars, rest)
      | none => if startsLineEnd (c :: rest) then basicBlockBody true (c :: rest) else none
  | '\r' :: '\n' :: rest =>
      if skipping then basicBlockBody true rest
      else do
        let (chars, rest) ← basicBlockBody false rest
        pure ('\n' :: chars, rest)
  | '\n' :: rest =>
      if skipping then basicBlockBody true rest
      else do
        let (chars, rest) ← basicBlockBody false rest
        pure ('\n' :: chars, rest)
  | c :: rest =>
      if skipping && isBlank c then basicBlockBody true rest
      else if isPlain c && c != '\\' then do
        let (chars, rest) ← basicBlockBody false rest
        pure (c :: chars, rest)
      else none
  | [] => none

def literalBlockBody : Scan (List Char)
  | '\x27' :: '\x27' :: '\x27' :: '\x27' :: '\x27' :: rest => some (['\x27', '\x27'], rest)
  | '\x27' :: '\x27' :: '\x27' :: '\x27' :: rest => some (['\x27'], rest)
  | '\x27' :: '\x27' :: '\x27' :: rest => some ([], rest)
  | '\r' :: '\n' :: rest => do
      let (chars, rest) ← literalBlockBody rest
      pure ('\n' :: chars, rest)
  | '\n' :: rest => do
      let (chars, rest) ← literalBlockBody rest
      pure ('\n' :: chars, rest)
  | c :: rest =>
      if isPlain c then do
        let (chars, rest) ← literalBlockBody rest
        pure (c :: chars, rest)
      else none
  | [] => none

/-- A line end right after the opening of a block is not part of the string. -/
def skipFirstLineEnd (s : List Char) : List Char :=
  (newline? s).getD s

def string? : Scan (List Char)
  | '"' :: '"' :: '"' :: rest => basicBlockBody false (skipFirstLineEnd rest)
  | '"' :: rest => basicBody rest
  | '\x27' :: '\x27' :: '\x27' :: rest => literalBlockBody (skipFirstLineEnd rest)
  | '\x27' :: rest => literalBody rest
  | _ => none

/-! ### Keys -/

def keyPart? : Scan String
  | '"' :: rest => (basicBody rest).map fun found => (String.ofList found.1, found.2)
  | '\x27' :: rest => (literalBody rest).map fun found => (String.ofList found.1, found.2)
  | s =>
      match s.takeWhile isBareKeyChar with
      | [] => none
      | chars => some (String.ofList chars, s.dropWhile isBareKeyChar)

/-- Parts of a key with dots between them, and blanks around them.  Each part uses one
unit of `fuel`. -/
def keyPartsWithin : Nat → Scan (List String)
  | 0, _ => none
  | fuel + 1, s => do
      let (part, s) ← keyPart? (skipBlanks s)
      match skipBlanks s with
      | '.' :: rest =>
          let (parts, rest) ← keyPartsWithin fuel rest
          pure (part :: parts, rest)
      | rest => pure ([part], rest)

/-- The nesting at which a text is refused, for dotted keys and for values. -/
def nestingLimit : Nat := 80

/-- A key, with one part or several.  A key with as many parts as the nesting limit is
refused. -/
def key? (s : List Char) : Option (List String × List Char) :=
  keyPartsWithin (nestingLimit - 1) s

end Rollout.Toml
