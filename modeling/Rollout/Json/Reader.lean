import Rollout.Decimal.Stepwise
import Rollout.Document.Basic
import Rollout.Text.Hex
import Rollout.Text.Scan

/-! Reading JSON text.  The entries of a table come out in the order of their keys, and of entries
with one key the last one counts.  A number with a fraction or an exponent, or outside the 64-bit
ranges, is read stepwise as a float. -/

namespace Rollout.Json

open Text (Scan hexValue?)

def isBlank (c : Char) : Bool :=
  c == ' ' || c == '\t' || c == '\n' || c == '\r'

def skipBlanks (s : List Char) : List Char :=
  s.dropWhile isBlank

def unit? (a b c d : Char) : Option Nat := do
  let a ← hexValue? a
  let b ← hexValue? b
  let c ← hexValue? c
  let d ← hexValue? d
  pure (((a * 16 + b) * 16 + c) * 16 + d)

def escaped? : Char → Option Char
  | '"' => some '"'
  | '\\' => some '\\'
  | '/' => some '/'
  | 'b' => some '\x08'
  | 'f' => some '\x0c'
  | 'n' => some '\n'
  | 'r' => some '\r'
  | 't' => some '\t'
  | _ => none

/-- A character from one code unit; the units of surrogate pairs are refused. -/
def charOfUnit? (unit : Nat) : Option Char :=
  if 0xD800 ≤ unit ∧ unit < 0xE000 then none else some (Char.ofNat unit)

def charOfPair? (high low : Nat) : Option Char :=
  if 0xD800 ≤ high ∧ high < 0xDC00 ∧ 0xDC00 ≤ low ∧ low < 0xE000 then
    some (Char.ofNat (0x10000 + (high - 0xD800) * 0x400 + (low - 0xDC00)))
  else none

def stringBody : Scan (List Char)
  | '"' :: rest => some ([], rest)
  | '\\' :: 'u' :: a :: b :: c :: d :: '\\' :: 'u' :: e :: f :: g :: h :: rest => do
      let first ← unit? a b c d
      let second ← unit? e f g h
      match charOfPair? first second with
      | some char =>
          let (chars, rest) ← stringBody rest
          pure (char :: chars, rest)
      | none =>
          let char ← charOfUnit? first
          let (chars, rest) ← stringBody ('\\' :: 'u' :: e :: f :: g :: h :: rest)
          pure (char :: chars, rest)
  | '\\' :: 'u' :: a :: b :: c :: d :: rest => do
      let unit ← unit? a b c d
      let char ← charOfUnit? unit
      let (chars, rest) ← stringBody rest
      pure (char :: chars, rest)
  | '\\' :: c :: rest => do
      let char ← escaped? c
      let (chars, rest) ← stringBody rest
      pure (char :: chars, rest)
  | c :: rest =>
      if c == '\\' || c.toNat < 0x20 then none
      else do
        let (chars, rest) ← stringBody rest
        pure (c :: chars, rest)
  | [] => none

def string? : Scan String
  | '"' :: rest => do
      let (chars, rest) ← stringBody rest
      pure (String.ofList chars, rest)
  | _ => none

def digits (s : List Char) : List Char × List Char :=
  (s.takeWhile Char.isDigit, s.dropWhile Char.isDigit)

def natOfDigits (digits : List Char) : Nat :=
  Nat.ofDigitChars 10 digits 0

/-- The digits before the point: a lone zero, or digits that do not start with zero. -/
def wholePart : Scan (List Char)
  | '0' :: rest => some (['0'], rest)
  | s =>
      match digits s with
      | ([], _) => none
      | (found, rest) => some (found, rest)

def fraction : Scan (Option (List Char))
  | '.' :: rest =>
      match digits rest with
      | ([], _) => none
      | (found, rest) => some (some found, rest)
  | s => some (none, s)

def signedExponent (s : List Char) : Option (Int × List Char) :=
  let (negative, s) :=
    match s with
    | '-' :: rest => (true, rest)
    | '+' :: rest => (false, rest)
    | s => (false, s)
  match digits s with
  | ([], _) => none
  | (found, rest) =>
      let size : Int := natOfDigits found
      some (if negative then -size else size, rest)

def exponent : Scan (Option Int)
  | 'e' :: rest => (signedExponent rest).map fun found => (some found.1, found.2)
  | 'E' :: rest => (signedExponent rest).map fun found => (some found.1, found.2)
  | s => some (none, s)

def negativeBound : Nat := 9223372036854775808

/-- The value of a written number.  Minus zero is a float, and a float beyond the
largest binary number is refused. -/
def numberValue? (negative : Bool) (whole : List Char) (fraction : Option (List Char))
    (exponent : Option Int) : Option Document :=
  let plain := fraction.isNone && exponent.isNone
  let size := natOfDigits whole
  if plain && !negative && size < UInt64.size then some (.integer size)
  else if plain && negative && 0 < size && size ≤ negativeBound then some (.integer (-size))
  else
    (Binary.stepwise? whole (fraction.getD []) (exponent.getD 0)).map fun magnitude =>
      .float (.finite negative magnitude)

def number? (s : List Char) : Option (Document × List Char) := do
  let (negative, s) :=
    match s with
    | '-' :: rest => (true, rest)
    | s => (false, s)
  let (whole, s) ← wholePart s
  let (after, s) ← fraction s
  let (power, s) ← exponent s
  let value ← numberValue? negative whole after power
  pure (value, s)

/-- Puts an entry into entries sorted by key, in place of one with the same key. -/
def insertEntry (key : String) (value : Document) :
    List (String × Document) → List (String × Document)
  | [] => [(key, value)]
  | (name, held) :: rest =>
      if key < name then (key, value) :: (name, held) :: rest
      else if key = name then (key, value) :: rest
      else (name, held) :: insertEntry key value rest

/-- The nesting of lists and tables at which a text is refused. -/
def nestingLimit : Nat := 128

mutual

/-- A value in which at most `levels` lists and tables may stand inside one another.  Every
step into it uses one unit of `fuel`. -/
def valueWithin (levels : Nat) : Nat → Scan Document
  | 0, _ => none
  | fuel + 1, s =>
      match skipBlanks s with
      | 'n' :: 'u' :: 'l' :: 'l' :: rest => some (.null, rest)
      | 't' :: 'r' :: 'u' :: 'e' :: rest => some (.boolean true, rest)
      | 'f' :: 'a' :: 'l' :: 's' :: 'e' :: rest => some (.boolean false, rest)
      | '"' :: rest => (string? ('"' :: rest)).map fun found => (.text found.1, found.2)
      | '[' :: rest =>
          match levels with
          | 0 => none
          | levels + 1 =>
              match skipBlanks rest with
              | ']' :: rest => some (.list [], rest)
              | rest => (itemsWithin levels fuel rest).map fun found => (.list found.1, found.2)
      | '\x7b' :: rest =>
          match levels with
          | 0 => none
          | levels + 1 =>
              match skipBlanks rest with
              | '\x7d' :: rest => some (.table [], rest)
              | rest =>
                  (entriesWithin levels fuel [] rest).map fun found => (.table found.1, found.2)
      | s => number? s

def itemsWithin (levels : Nat) : Nat → Scan (List Document)
  | 0, _ => none
  | fuel + 1, s => do
      let (item, s) ← valueWithin levels fuel s
      match skipBlanks s with
      | ',' :: rest =>
          let (items, rest) ← itemsWithin levels fuel rest
          pure (item :: items, rest)
      | ']' :: rest => pure ([item], rest)
      | _ => none

def entriesWithin (levels : Nat) :
    Nat → List (String × Document) → Scan (List (String × Document))
  | 0, _, _ => none
  | fuel + 1, entries, s => do
      let (key, s) ← string? (skipBlanks s)
      match skipBlanks s with
      | ':' :: rest =>
          let (value, s) ← valueWithin levels fuel rest
          let entries := insertEntry key value entries
          match skipBlanks s with
          | ',' :: rest => entriesWithin levels fuel entries rest
          | '\x7d' :: rest => pure (entries, rest)
          | _ => none
      | _ => none

end

/-- The document that a text writes, if it is nested below the limit.  Each step reads a
character, so the length of the text bounds the number of steps. -/
def read? (text : String) : Option Document := do
  let chars := text.toList
  let (document, rest) ← valueWithin (nestingLimit - 1) (2 * chars.length + 2) chars
  if (skipBlanks rest).isEmpty then some document else none

end Rollout.Json
