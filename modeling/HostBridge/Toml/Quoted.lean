import HostBridge.Toml.Scalar

/-!
# Quoted text

Text stands between double quotes, where a backslash starts an escape, or between single quotes,
where every character stands for itself. Three quotes on each side make it span lines.
-/

namespace HostBridge

namespace Toml

namespace Quoted

/-- What follows a line end, if the text starts with one. -/
def newline? : List Char → Option (List Char)
  | '\n' :: rest => some rest
  | '\r' :: '\n' :: rest => some rest
  | _ => none

/-- Characters that may stand for themselves: everything but controls other than the tab. -/
def isPlain (char : Char) : Bool :=
  char == '\t' || (char.toNat ≥ 0x20 && char.toNat != 0x7f)

/-- The character of a code point. -/
def ofCodePoint? (point : Nat) : Option Char :=
  if point < 0xd800 ∨ (0xdfff < point ∧ point < 0x110000) then some (Char.ofNat point) else none

/-- A code point in exactly `count` hexadecimal digits. -/
def codePoint? (count : Nat) (chars : List Char) : Option (Char × List Char) := do
  let digits := chars.take count
  if digits.length = count ∧ digits.all (fun char => (Scalar.digitValue? 16 char).isSome) then
    let point ← Scalar.natural? 16 digits
    let char ← ofCodePoint? point
    some (char, chars.drop count)
  else none

/-- The character of an escape, after its backslash. -/
def escape? : List Char → Option (Char × List Char)
  | 'b' :: rest => some ('\x08', rest)
  | 't' :: rest => some ('\t', rest)
  | 'n' :: rest => some ('\n', rest)
  | 'f' :: rest => some ('\x0c', rest)
  | 'r' :: rest => some ('\r', rest)
  | '"' :: rest => some ('"', rest)
  | '\\' :: rest => some ('\\', rest)
  | 'u' :: rest => codePoint? 4 rest
  | 'U' :: rest => codePoint? 8 rest
  | _ => none

/-- Text between double quotes on one line, after the opening quote. Every step takes at least one
character, so the length of the text is fuel enough. -/
def basic? : Nat → List Char → Option (List Char × List Char)
  | 0, _ => none
  | _ + 1, [] => none
  | _ + 1, '"' :: rest => some ([], rest)
  | fuel + 1, '\\' :: rest => do
      let (char, rest) ← escape? rest
      let (text, rest) ← basic? fuel rest
      some (char :: text, rest)
  | fuel + 1, char :: rest =>
      if isPlain char then do
        let (text, rest) ← basic? fuel rest
        some (char :: text, rest)
      else none

/-- Text between single quotes on one line, after the opening quote. -/
def literal? : List Char → Option (List Char × List Char)
  | [] => none
  | '\'' :: rest => some ([], rest)
  | char :: rest =>
      if isPlain char then do
        let (text, rest) ← literal? rest
        some (char :: text, rest)
      else none

/-- The closing of a text that spans lines: three quotes, with up to two more that belong to the
text before them. -/
def closing? (quote : Char) (chars : List Char) : Option (List Char × List Char) :=
  let quotes := (chars.takeWhile (· == quote)).length
  if quotes < 3 then none
  else
    let inner := min (quotes - 3) 2
    some (List.replicate inner quote, chars.drop (inner + 3))

/-- Blanks within a line. -/
def isBlank (char : Char) : Bool := char == ' ' || char == '\t'

/-- Blanks and line ends after a backslash at the end of a line; the first line end is required. -/
def skipFold : Nat → Bool → List Char → Option (List Char)
  | 0, _, _ => none
  | fuel + 1, folded, chars =>
      let rest := chars.dropWhile isBlank
      match newline? rest with
      | some rest => skipFold fuel true rest
      | none => if folded then some rest else none

/-- Text between triple double quotes, after the opening ones. -/
def basicLines? : Nat → List Char → Option (List Char × List Char)
  | 0, _ => none
  | fuel + 1, chars =>
      match closing? '"' chars with
      | some closed => some closed
      | none =>
          match chars with
          | [] => none
          | '\\' :: rest =>
              match skipFold (rest.length + 1) false rest with
              | some rest => basicLines? fuel rest
              | none => do
                  let (char, rest) ← escape? rest
                  let (text, rest) ← basicLines? fuel rest
                  some (char :: text, rest)
          | char :: tail =>
              match newline? chars with
              | some rest => do
                  let (text, rest) ← basicLines? fuel rest
                  some ('\n' :: text, rest)
              | none =>
                  if isPlain char then do
                    let (text, rest) ← basicLines? fuel tail
                    some (char :: text, rest)
                  else none

/-- Text between triple single quotes, after the opening ones. -/
def literalLines? : Nat → List Char → Option (List Char × List Char)
  | 0, _ => none
  | fuel + 1, chars =>
      match closing? '\'' chars with
      | some closed => some closed
      | none =>
          match chars with
          | [] => none
          | char :: tail =>
              match newline? chars with
              | some rest => do
                  let (text, rest) ← literalLines? fuel rest
                  some ('\n' :: text, rest)
              | none =>
                  if isPlain char then do
                    let (text, rest) ← literalLines? fuel tail
                    some (char :: text, rest)
                  else none

/-- A line end directly after opening triple quotes does not belong to the text. -/
def trimFirst (chars : List Char) : List Char :=
  (newline? chars).getD chars

/-- Quoted text on one line, as keys are written. -/
def line? : List Char → Option (List Char × List Char)
  | '"' :: rest => basic? (rest.length + 1) rest
  | '\'' :: rest => literal? rest
  | _ => none

/-- Quoted text of any form. -/
def read? : List Char → Option (List Char × List Char)
  | '"' :: '"' :: '"' :: rest => basicLines? (rest.length + 1) (trimFirst rest)
  | '\'' :: '\'' :: '\'' :: rest => literalLines? (rest.length + 1) (trimFirst rest)
  | chars => line? chars

end Quoted

end Toml

end HostBridge
