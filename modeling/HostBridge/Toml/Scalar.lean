import HostBridge.Toml.Value

/-!
# Unquoted values

Truth values, numbers and points in time are written without quotes. Such a value is read as one
word of letters, digits and a few marks, which has to be of exactly one of these kinds.
-/

namespace HostBridge

namespace Toml

namespace Scalar

/-- The digit characters of a base, as their values. -/
def digitValue? (base : Nat) (char : Char) : Option Nat :=
  let value :=
    if char.isDigit then some (char.toNat - '0'.toNat)
    else if 'a' ≤ char ∧ char ≤ 'f' then some (char.toNat - 'a'.toNat + 10)
    else if 'A' ≤ char ∧ char ≤ 'F' then some (char.toNat - 'A'.toNat + 10)
    else none
  value.filter (· < base)

/-- Digits of a base with single underscores between digits, as a number. -/
def digits? (base : Nat) : Nat → Bool → List Char → Option Nat
  | number, afterDigit, [] => if afterDigit then some number else none
  | number, afterDigit, '_' :: rest => if afterDigit then digits? base number false rest else none
  | number, _, char :: rest => do
      let digit ← digitValue? base char
      digits? base (number * base + digit) true rest

/-- An unsigned number in a base. -/
def natural? (base : Nat) (chars : List Char) : Option Nat :=
  digits? base 0 false chars

/-- A decimal number without superfluous leading zeros. -/
def decimal? : List Char → Option Nat
  | ['0'] => some 0
  | '0' :: _ => none
  | chars => natural? 10 chars

/-- A sign, if there is one, and what follows it. -/
def splitSign : List Char → Bool × List Char
  | '-' :: rest => (true, rest)
  | '+' :: rest => (false, rest)
  | chars => (false, chars)

/-- Whether a number fits in a signed word of 64 bits. -/
def fits (number : Int) : Bool :=
  Int64.minValue.toInt ≤ number && number ≤ Int64.maxValue.toInt

/-- An integer: decimal with an optional sign, or in base 16, 8 or 2 without one. -/
def integer? (chars : List Char) : Option Int :=
  let number : Option Int :=
    match chars with
    | '0' :: 'x' :: rest => (natural? 16 rest).map Int.ofNat
    | '0' :: 'o' :: rest => (natural? 8 rest).map Int.ofNat
    | '0' :: 'b' :: rest => (natural? 2 rest).map Int.ofNat
    | _ =>
        let (negative, digits) := splitSign chars
        (decimal? digits).map fun value => if negative then -(value : Int) else value
  number.filter fits

/-- Split at the first of some marks, which is dropped. -/
def splitAt (marks : List Char) (chars : List Char) : List Char × Option (List Char) :=
  match chars.dropWhile (fun char => !marks.contains char) with
  | [] => (chars, none)
  | _ :: rest => (chars.takeWhile (fun char => !marks.contains char), some rest)

/-- Decimal digits without underscores. -/
def plainDigits (chars : List Char) : List Char :=
  chars.filter (· != '_')

/-- The least number beyond the range of doubles: halfway from the largest one to the next power of
two. -/
def doubleLimit : Nat := Nat.pow 2 1024 - Nat.pow 2 970

/-- Whether a positive number, its digits times a power of ten, is beyond the range of doubles: at
least the limit. -/
def overflows (digits : Nat) (exponent : Int) : Bool :=
  if digits = 0 then false
  else
    let places := (Nat.toDigits 10 digits).length
    if exponent + places > 310 then true
    else if exponent < 0 then
      exponent + places > 300 && digits ≥ doubleLimit * Nat.pow 10 exponent.natAbs
    else digits * Nat.pow 10 exponent.natAbs ≥ doubleLimit

/-- Whether the word is a number with a fraction or an exponent, or one of the special ones. A
positive number beyond the range of doubles is refused. -/
def isFloat (chars : List Char) : Bool :=
  let (negative, body) := splitSign chars
  if body = ['i', 'n', 'f'] ∨ body = ['n', 'a', 'n'] then true
  else
    let (mantissa, exponent) := splitAt ['e', 'E'] body
    let (whole, fraction) := splitAt ['.'] mantissa
    let exponentValue : Option Int :=
      match exponent with
      | none => some 0
      | some chars =>
          let (negativeExponent, digits) := splitSign chars
          (natural? 10 digits).map fun value => if negativeExponent then -(value : Int) else value
    let wellFormed :=
      (fraction.isSome || exponent.isSome) && (decimal? whole).isSome
        && (fraction.map fun chars => (natural? 10 chars).isSome).getD true
    match exponentValue with
    | none => false
    | some value =>
        let fractionDigits := plainDigits (fraction.getD [])
        let digits := (natural? 10 (plainDigits whole ++ fractionDigits)).getD 0
        wellFormed && (negative || !overflows digits (value - fractionDigits.length))

/-- A number of exactly `count` decimal digits between two bounds, and what follows it. -/
def field? (count low high : Nat) (chars : List Char) : Option (Nat × List Char) := do
  let digits := chars.take count
  if digits.length = count ∧ digits.all Char.isDigit then
    let number ← natural? 10 digits
    if low ≤ number ∧ number ≤ high then some (number, chars.drop count) else none
  else none

/-- Days of a month. -/
def monthDays (year month : Nat) : Nat :=
  if month = 2 then
    if year % 4 = 0 ∧ (year % 100 ≠ 0 ∨ year % 400 = 0) then 29 else 28
  else if month = 4 ∨ month = 6 ∨ month = 9 ∨ month = 11 then 30
  else 31

/-- What follows a mark. -/
def mark? (mark : Char) : List Char → Option (List Char)
  | char :: rest => if char = mark then some rest else none
  | [] => none

/-- What follows a calendar date. -/
def date? (chars : List Char) : Option (List Char) := do
  let (year, chars) ← field? 4 0 9999 chars
  let chars ← mark? '-' chars
  let (month, chars) ← field? 2 1 12 chars
  let chars ← mark? '-' chars
  let (_, chars) ← field? 2 1 (monthDays year month) chars
  some chars

/-- What follows a time of day. -/
def time? (chars : List Char) : Option (List Char) := do
  let (_, chars) ← field? 2 0 23 chars
  let chars ← mark? ':' chars
  let (_, chars) ← field? 2 0 59 chars
  let chars ← mark? ':' chars
  let (_, chars) ← field? 2 0 60 chars
  match chars with
  | '.' :: digit :: rest => if digit.isDigit then some (rest.dropWhile Char.isDigit) else none
  | '.' :: [] => none
  | _ => some chars

/-- Whether the characters are an offset from universal time, or nothing. -/
def isOffset : List Char → Bool
  | [] => true
  | ['z'] | ['Z'] => true
  | '+' :: rest | '-' :: rest =>
      let parsed : Option (List Char) := do
        let (_, chars) ← field? 2 0 23 rest
        let chars ← mark? ':' chars
        let (_, chars) ← field? 2 0 59 chars
        some chars
      parsed == some []
  | _ => false

/-- Whether the word is a date, a time of day, or both with an optional offset. -/
def isDatetime (chars : List Char) : Bool :=
  match date? chars with
  | some [] => true
  | some (separator :: rest) =>
      (separator == 'T' || separator == 't' || separator == ' ')
        && ((time? rest).map isOffset).getD false
  | none => time? chars == some []

/-- The value of an unquoted word. -/
def ofWord? (chars : List Char) : Option Value :=
  let spelling := String.ofList chars
  if spelling = "true" then some (.boolean true)
  else if spelling = "false" then some (.boolean false)
  else if isDatetime chars then some (.datetime spelling)
  else
    match integer? chars with
    | some number => some (.integer number)
    | none => if isFloat chars then some (.float spelling) else none

/-- Characters of unquoted words. -/
def isWordChar (char : Char) : Bool :=
  char.isAlphanum || char == '+' || char == '-' || char == '_' || char == '.' || char == ':'

/-- Take an unquoted word off the text. A blank belongs to it where it parts a date from a time. -/
def takeWord (chars : List Char) : List Char × List Char :=
  let word := chars.takeWhile isWordChar
  let rest := chars.dropWhile isWordChar
  match date? word, rest with
  | some [], ' ' :: a :: b :: ':' :: tail =>
      if a.isDigit && b.isDigit then
        let time := a :: b :: ':' :: tail
        (word ++ ' ' :: time.takeWhile isWordChar, time.dropWhile isWordChar)
      else (word, rest)
  | _, _ => (word, rest)

/-- Read an unquoted value off the text. -/
def read? (chars : List Char) : Option (Value × List Char) := do
  let (word, rest) := takeWord chars
  let value ← ofWord? word
  some (value, rest)

end Scalar

end Toml

end HostBridge
