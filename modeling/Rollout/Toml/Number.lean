import Rollout.Toml.Lexeme

/-! Numbers, dates and times in TOML text.  Integers have 64 bits with a sign; a float is kept as
the decimal it is written as; a date or time is kept as a text in one canonical form. -/

namespace Rollout.Toml

open Text (Scan hexValue?)

/-! ### Integers -/

/-- Digits after the first one; an underscore may stand between two digits. -/
def digitsAfter (isDigit : Char → Bool) : List Char → List Char × List Char
  | '_' :: c :: rest =>
      if isDigit c then
        let (digits, rest) := digitsAfter isDigit rest
        (c :: digits, rest)
      else ([], '_' :: c :: rest)
  | c :: rest =>
      if isDigit c then
        let (digits, rest) := digitsAfter isDigit rest
        (c :: digits, rest)
      else ([], c :: rest)
  | [] => ([], [])

def digits? (isDigit : Char → Bool) : Scan (List Char)
  | c :: rest =>
      if isDigit c then
        let (digits, rest) := digitsAfter isDigit rest
        some (c :: digits, rest)
      else none
  | [] => none

def sign : List Char → Bool × List Char
  | '-' :: rest => (true, rest)
  | '+' :: rest => (false, rest)
  | s => (false, s)

/-- Decimal digits of a whole number: a lone zero, or digits that do not start with
zero. -/
def wholeDigits? : Scan (List Char)
  | '0' :: rest => some (['0'], rest)
  | s => digits? Char.isDigit s

def valueOfDigits (base : Nat) (digits : List Char) : Nat :=
  digits.foldl (fun n digit => n * base + (hexValue? digit).getD 0) 0

def integerBound : Int := 9223372036854775808

def inRange (value : Int) : Bool :=
  -integerBound ≤ value && value < integerBound

def isOctal (c : Char) : Bool := '0' ≤ c && c ≤ '7'

def isBinary (c : Char) : Bool := c == '0' || c == '1'

def isHex (c : Char) : Bool := (hexValue? c).isSome

def based (base : Nat) (isDigit : Char → Bool) (s : List Char) :
    Option (Document × List Char) := do
  let (digits, rest) ← digits? isDigit s
  let value : Int := valueOfDigits base digits
  if inRange value then some (.integer value, rest) else none

def integer? : Scan Document
  | '0' :: 'x' :: rest => based 16 isHex rest
  | '0' :: 'o' :: rest => based 8 isOctal rest
  | '0' :: 'b' :: rest => based 2 isBinary rest
  | s => do
      let (negative, s) := sign s
      let (digits, rest) ← wholeDigits? s
      let size : Int := valueOfDigits 10 digits
      let value := if negative then -size else size
      if inRange value then some (.integer value, rest) else none

/-! ### Floats -/

def fraction? : Scan (List Char)
  | '.' :: rest => digits? Char.isDigit rest
  | _ => none

def exponent? : Scan Int
  | c :: rest =>
      if c == 'e' || c == 'E' then do
        let (negative, s) := sign rest
        let (digits, rest) ← digits? Char.isDigit s
        let size : Int := valueOfDigits 10 digits
        pure (if negative then -size else size, rest)
      else none
  | [] => none

def exponentOrZero (s : List Char) : Option (Int × List Char) :=
  match s with
  | 'e' :: _ => exponent? s
  | 'E' :: _ => exponent? s
  | _ => some (0, s)

def special? : List Char → Option (Bool × List Char)
  | 'i' :: 'n' :: 'f' :: rest => some (true, rest)
  | 'n' :: 'a' :: 'n' :: rest => some (false, rest)
  | _ => none

/-- A float from its parts.  Beyond the largest binary number a positive one is refused
and a negative one is infinite. -/
def decimal? (negative : Bool) (whole fraction : List Char) (exponent : Int) :
    Option Document :=
  let value : Decimal :=
    { coefficient := valueOfDigits 10 (whole ++ fraction)
      exponent := exponent - fraction.length }
  match value.nearest? with
  | some magnitude => some (.float (.finite negative magnitude))
  | none => if negative then some (.float (.infinite true)) else none

def float? (s : List Char) : Option (Document × List Char) :=
  let (negative, s) := sign s
  match special? s with
  | some (true, rest) => some (.float (.infinite negative), rest)
  | some (false, rest) => some (.float .notANumber, rest)
  | none => do
      let (whole, s) ← wholeDigits? s
      match fraction? s with
      | some (fraction, s) => do
          let (exponent, rest) ← exponentOrZero s
          let value ← decimal? negative whole fraction exponent
          pure (value, rest)
      | none => do
          let (exponent, rest) ← exponent? s
          let value ← decimal? negative whole [] exponent
          pure (value, rest)

/-! ### Dates and times -/

def twoDigits? : Scan Nat
  | a :: b :: rest =>
      if a.isDigit && b.isDigit then some (valueOfDigits 10 [a, b], rest) else none
  | _ => none

def bounded? (low high : Nat) (s : List Char) : Option (Nat × List Char) := do
  let (value, rest) ← twoDigits? s
  if low ≤ value && value ≤ high then some (value, rest) else none

def expect? (c : Char) : List Char → Option (List Char)
  | d :: rest => if c = d then some rest else none
  | [] => none

def padded (width n : Nat) : List Char :=
  let digits := Nat.toDigits 10 n
  List.replicate (width - digits.length) '0' ++ digits

def isLeapYear (year : Nat) : Bool :=
  year % 4 == 0 && (year % 100 != 0 || year % 400 == 0)

def daysInMonth (year month : Nat) : Nat :=
  if month = 2 then (if isLeapYear year then 29 else 28)
  else if month = 4 ∨ month = 6 ∨ month = 9 ∨ month = 11 then 30
  else 31

def date? : Scan (List Char)
  | a :: b :: c :: d :: '-' :: rest =>
      if [a, b, c, d].all Char.isDigit then do
        let year := valueOfDigits 10 [a, b, c, d]
        let (month, rest) ← bounded? 1 12 rest
        let rest ← expect? '-' rest
        let (day, rest) ← bounded? 1 (daysInMonth year month) rest
        pure (padded 4 year ++ '-' :: padded 2 month ++ '-' :: padded 2 day, rest)
      else none
  | _ => none

/-- The fraction of a second: nine digits count, and zeros at the end are dropped. -/
def secondFraction? : Scan (List Char)
  | '.' :: rest =>
      match rest.takeWhile Char.isDigit with
      | [] => none
      | digits =>
          let kept := ((digits.take 9).reverse.dropWhile (· == '0')).reverse
          some (if kept.isEmpty then [] else '.' :: kept, rest.dropWhile Char.isDigit)
  | s => some ([], s)

def time? (s : List Char) : Option (List Char × List Char) := do
  let (hour, s) ← bounded? 0 23 s
  let s ← expect? ':' s
  let (minute, s) ← bounded? 0 59 s
  let s ← expect? ':' s
  let (second, s) ← bounded? 0 60 s
  let (fraction, s) ← secondFraction? s
  pure (padded 2 hour ++ ':' :: padded 2 minute ++ ':' :: padded 2 second ++ fraction, s)

/-- The offset from universal time, if one follows.  A zero offset has a plus sign. -/
def offset? : Scan (List Char)
  | 'Z' :: rest => some (['Z'], rest)
  | 'z' :: rest => some (['Z'], rest)
  | c :: rest =>
      if c == '+' || c == '-' then do
        let (hour, s) ← bounded? 0 23 rest
        let s ← expect? ':' s
        let (minute, s) ← bounded? 0 59 s
        let mark := if hour = 0 ∧ minute = 0 then '+' else c
        pure (mark :: padded 2 hour ++ ':' :: padded 2 minute, s)
      else some ([], c :: rest)
  | [] => some ([], [])

def timeAfterDate? : Scan (List Char)
  | c :: rest =>
      if c == 'T' || c == 't' || c == ' ' then do
        let (time, s) ← time? rest
        let (offset, s) ← offset? s
        pure ('T' :: time ++ offset, s)
      else none
  | [] => none

def moment? (s : List Char) : Option (Document × List Char) :=
  match date? s with
  | some (date, rest) =>
      match timeAfterDate? rest with
      | some (time, rest) => some (.moment (String.ofList (date ++ time)), rest)
      | none => some (.moment (String.ofList date), rest)
  | none => (time? s).map fun found => (.moment (String.ofList found.1), found.2)

/-- A number, date or time.  What starts like one kind may be the start of another, so
the longer kinds are tried first. -/
def number? (s : List Char) : Option (Document × List Char) :=
  (moment? s).or ((float? s).or (integer? s))

end Rollout.Toml
