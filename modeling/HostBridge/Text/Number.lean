/-!
# Numbers and columns as text

Hexadecimal words, fixed columns and byte strings as the reports of the bridge write them.
-/

namespace HostBridge

namespace Text

/-- Lower-case hexadecimal digits without leading zeros. -/
def hexDigits (number : Nat) : String :=
  String.ofList (Nat.toDigits 16 number)

/-- A number as `0x` and its hexadecimal digits. -/
def hex (number : Nat) : String :=
  "0x" ++ hexDigits number

/-- As many blanks as `text` lacks to fill `width` columns. -/
def filler (width : Nat) (text : String) : String :=
  String.ofList (List.replicate (width - text.length) ' ')

/-- `text` at the left of a column of `width` characters. -/
def alignLeft (width : Nat) (text : String) : String :=
  text ++ filler width text

/-- `text` at the right of a column of `width` characters. -/
def alignRight (width : Nat) (text : String) : String :=
  filler width text ++ text

/-- A number as `0x` and at least four hexadecimal digits. -/
def hexFour (number : Nat) : String :=
  let digits := hexDigits number
  "0x" ++ String.ofList (List.replicate (4 - digits.length) '0') ++ digits

/-- A list of texts with a separator between neighbours. -/
def joined (separator : String) (texts : List String) : String :=
  String.intercalate separator texts

/-- Every line of the report, each ended by a line feed. -/
def unlines (lines : List String) : String :=
  String.join (lines.map (· ++ "\n"))

end Text

end HostBridge
