import HostBridge.Toml.Quoted

/-!
# Configuration documents

A document is read in two steps. `Line.readAll?` takes the text apart into headers and key-value
lines; `Document.ofLines?` puts the tables together and refuses any key that is defined twice.
-/

namespace HostBridge

namespace Toml

/-- A line of a document that is neither blank nor a comment. -/
inductive Line where
  /-- A header in single brackets opens a table. -/
  | table (path : List String) (key : String)
  /-- A header in double brackets opens one more table of an array. -/
  | element (path : List String) (key : String)
  /-- A key, with the path before its last dot, and its value. -/
  | entry (path : List String) (key : String) (value : Value)

namespace Line

/-- The least number of nested brackets, or of parts of a key, that is refused. -/
def depthLimit : Nat := 80

/-- Drop blanks. -/
def skipBlanks (chars : List Char) : List Char := chars.dropWhile Quoted.isBlank

/-- Drop a comment, if the text starts with one. -/
def skipComment : List Char → List Char
  | '#' :: rest => rest.dropWhile Quoted.isPlain
  | chars => chars

/-- Drop blanks, comments and line ends. -/
def skipVoid : Nat → List Char → List Char
  | 0, chars => chars
  | fuel + 1, chars =>
      let rest := skipComment (skipBlanks chars)
      match Quoted.newline? rest with
      | some rest => skipVoid fuel rest
      | none => rest

/-- Characters of keys without quotes. -/
def isBareChar (char : Char) : Bool := char.isAlphanum || char == '_' || char == '-'

/-- One part of a key. -/
def keyPart? (chars : List Char) : Option (String × List Char) :=
  match Quoted.line? chars with
  | some (text, rest) => some (String.ofList text, rest)
  | none =>
      let bare := chars.takeWhile isBareChar
      if bare.isEmpty then none else some (String.ofList bare, chars.dropWhile isBareChar)

/-- The parts of a key, with dots between them and blanks around the dots. -/
def keyParts? : Nat → List Char → Option (List String × List Char)
  | 0, _ => none
  | fuel + 1, chars => do
      let (part, rest) ← keyPart? (skipBlanks chars)
      match skipBlanks rest with
      | '.' :: rest => do
          let (parts, rest) ← keyParts? fuel rest
          some (part :: parts, rest)
      | rest => some ([part], rest)

/-- A key as its path and its last part. -/
def key? (chars : List Char) : Option ((List String × String) × List Char) := do
  let (parts, rest) ← keyParts? (chars.length + 1) chars
  let last ← parts.getLast?
  if parts.length < depthLimit then some ((parts.dropLast, last), rest) else none

mutual

/-- A value. `depth` counts the brackets around it. -/
def value? : Nat → Nat → List Char → Option (Value × List Char)
  | 0, _, _ => none
  | fuel + 1, depth, chars =>
      match chars with
      | '"' :: _ | '\'' :: _ => do
          let (text, rest) ← Quoted.read? chars
          some (.string (String.ofList text), rest)
      | '[' :: rest =>
          if depth + 1 < depthLimit then do
            let (items, rest) ← items? fuel (depth + 1) rest
            some (.array items, rest)
          else none
      | '\x7b' :: rest =>
          if depth + 1 < depthLimit then
            match skipBlanks rest with
            | '\x7d' :: rest => some (.table .inline [], rest)
            | rest => do
                let (entries, rest) ← entries? fuel (depth + 1) [] rest
                some (.table .inline entries, rest)
          else none
      | _ => Scalar.read? chars

/-- The items of an array up to its closing bracket. -/
def items? : Nat → Nat → List Char → Option (List Value × List Char)
  | 0, _, _ => none
  | fuel + 1, depth, chars =>
      match skipVoid (chars.length + 1) chars with
      | ']' :: rest => some ([], rest)
      | chars => do
          let (item, rest) ← value? fuel depth chars
          match skipVoid (rest.length + 1) rest with
          | ',' :: rest => do
              let (items, rest) ← items? fuel depth rest
              some (item :: items, rest)
          | ']' :: rest => some ([item], rest)
          | _ => none

/-- The entries of an inline table up to its closing brace, added to those before them. -/
def entries? : Nat → Nat → Entries → List Char → Option (Entries × List Char)
  | 0, _, _, _ => none
  | fuel + 1, depth, before, chars => do
      let ((path, key), rest) ← key? chars
      match rest with
      | '=' :: rest => do
          let (value, rest) ← value? fuel depth (skipBlanks rest)
          let entries ← before.define path key value
          match skipBlanks rest with
          | ',' :: rest => entries? fuel depth entries rest
          | '\x7d' :: rest => some (entries, rest)
          | _ => none
      | _ => none

end

/-- The rest of a line after its content: blanks, a comment, and the line end or the end of the
text. -/
def endOfLine? (chars : List Char) : Option (List Char) :=
  match skipComment (skipBlanks chars) with
  | [] => some []
  | rest => Quoted.newline? rest

/-- One line with content. -/
def read? (chars : List Char) : Option (Line × List Char) :=
  match chars with
  | '[' :: '[' :: rest => do
      let ((path, key), rest) ← key? rest
      match rest with
      | ']' :: ']' :: rest => do
          let rest ← endOfLine? rest
          some (.element path key, rest)
      | _ => none
  | '[' :: rest => do
      let ((path, key), rest) ← key? rest
      match rest with
      | ']' :: rest => do
          let rest ← endOfLine? rest
          some (.table path key, rest)
      | _ => none
  | _ => do
      let ((path, key), rest) ← key? chars
      match rest with
      | '=' :: rest => do
          let rest := skipBlanks rest
          let (value, rest) ← value? (2 * rest.length + 2) 0 rest
          let rest ← endOfLine? rest
          some (.entry path key value, rest)
      | _ => none

/-- Every line with content. -/
def readAll? : Nat → List Char → Option (List Line)
  | 0, _ => none
  | fuel + 1, chars =>
      match skipVoid (chars.length + 1) chars with
      | [] => some []
      | chars => do
          let (line, rest) ← read? chars
          let lines ← readAll? fuel rest
          some (line :: lines)

end Line

namespace Document

/-- Key-value lines up to the next header, defined in the table that they belong to. -/
def fill : List Line → Entries → Option Entries
  | .entry path key value :: lines, entries => do
      let entries ← entries.define path key value
      fill lines entries
  | _, entries => some entries

/-- Open the table of a header. A table that was only implied so far moves to the end, together
with what it holds; a table that has been defined in any other way may not be opened again. -/
def openTable (path : List String) (key : String) (body : Entries → Option Entries)
    (document : Entries) : Option Entries :=
  Entries.alter false path
    (fun _ entries =>
      match entries.lookup key with
      | none => do
          let inner ← body []
          some (entries ++ [(key, .table .header inner)])
      | some (.table .implied held) => do
          let inner ← body held
          some (entries.erase key ++ [(key, .table .header inner)])
      | some _ => none)
    .header document

/-- Open one more table of an array of tables. -/
def openElement (path : List String) (key : String) (body : Entries → Option Entries)
    (document : Entries) : Option Entries :=
  Entries.alter false path
    (fun _ entries =>
      match entries.lookup key with
      | none => do
          let inner ← body []
          some (entries ++ [(key, .tables [inner])])
      | some (.tables items) => do
          let inner ← body []
          some (entries.replace key (.tables (items ++ [inner])))
      | some _ => none)
    .header document

/-- The tables of the headers, one after the other; the lines below a header belong to it. -/
def addHeaders : List Line → Entries → Option Entries
  | [], document => some document
  | .table path key :: lines, document => do
      let document ← openTable path key (fill lines) document
      addHeaders lines document
  | .element path key :: lines, document => do
      let document ← openElement path key (fill lines) document
      addHeaders lines document
  | .entry .. :: lines, document => addHeaders lines document

/-- The document made of these lines; `none` if a key is defined twice. -/
def ofLines? (lines : List Line) : Option Entries := do
  let document ← fill lines []
  addHeaders lines document

/-- Drop the mark of the byte order at the start of a text. -/
def skipMark : List Char → List Char
  | '\ufeff' :: rest => rest
  | chars => chars

/-- Read a document. -/
def read? (text : String) : Option Entries := do
  let chars := skipMark text.toList
  let lines ← Line.readAll? (chars.length + 1) chars
  ofLines? lines

end Document

end Toml

end HostBridge
