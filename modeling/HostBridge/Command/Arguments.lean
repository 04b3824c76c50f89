/-!
# Command lines

A command line names a command, its options in any order, and for one command a record. Every
option may be given once.
-/

namespace HostBridge

namespace Command

/-- Which host build a command describes. -/
structure Target where
  /-- The name of a runtime family. -/
  abi : Option String := none
  /-- Pointer bits. -/
  width : Option Nat := none
  /-- The path of a configuration document. -/
  config : Option String := none
deriving DecidableEq, Repr

/-- The commands. -/
inductive Verb where
  | layout
  | services
  | constants
  | info
deriving DecidableEq, Repr

namespace Verb

/-- The command of a name. -/
def ofName? : String → Option Verb
  | "layout" => some .layout
  | "services" => some .services
  | "constants" => some .constants
  | "info" => some .info
  | _ => none

/-- Whether the report can be written as JSON. -/
def allowsJson : Verb → Bool
  | .layout | .services | .constants => true
  | .info => false

/-- Whether the report can be widened to everything. -/
def allowsAll : Verb → Bool
  | .services => true
  | _ => false

/-- Whether the command takes the name of a record. -/
def allowsRecord : Verb → Bool
  | .layout => true
  | _ => false

end Verb

/-- A command with its options. -/
structure Arguments where
  /-- The command. -/
  verb : Verb
  /-- The build that it describes. -/
  target : Target := {}
  /-- The record that is asked for. -/
  record : Option String := none
  /-- Whether to write JSON. -/
  json : Bool := false
  /-- Whether to include everything. -/
  all : Bool := false
deriving DecidableEq, Repr

/-- What a command line asks for. -/
inductive Request where
  | run (arguments : Arguments)
  | version
  | help
  /-- The command line is not understood. -/
  | misuse
deriving DecidableEq, Repr

/-- A whole number with an optional sign that fits in 32 bits without sign. -/
def wordOf? (text : String) : Option Nat :=
  let (negative, digits) :=
    match text.toList with
    | '-' :: rest => (true, rest)
    | '+' :: rest => (false, rest)
    | chars => (false, chars)
  if digits.isEmpty || !digits.all Char.isDigit then none
  else
    let number := digits.foldl (fun number char => number * 10 + (char.toNat - '0'.toNat)) 0
    if (negative && number != 0) || number ≥ UInt32.size then none else some number

/-- Give an option its value; `none` if there is no such option, if it has a value already or if the
value is not understood. -/
def setValue (option value : String) (arguments : Arguments) : Option Arguments :=
  let target := arguments.target
  match option with
  | "abi" =>
      if target.abi.isSome then none
      else some { arguments with target := { target with abi := some value } }
  | "width" =>
      if target.width.isSome then none
      else (wordOf? value).map fun bits =>
        { arguments with target := { target with width := some bits } }
  | "config" =>
      if target.config.isSome || value.isEmpty then none
      else some { arguments with target := { target with config := some value } }
  | _ => none

/-- Whether an option takes a value. -/
def takesValue (option : String) : Bool :=
  option == "abi" || option == "width" || option == "config"

/-- Set an option without value. -/
def setFlag (flag : String) (arguments : Arguments) : Option Arguments :=
  match flag with
  | "json" =>
      if arguments.json || !arguments.verb.allowsJson then none
      else some { arguments with json := true }
  | "all" =>
      if arguments.all || !arguments.verb.allowsAll then none
      else some { arguments with all := true }
  | _ => none

/-- Set the record. -/
def setRecord (record : String) (arguments : Arguments) : Option Arguments :=
  if arguments.record.isSome || !arguments.verb.allowsRecord then none
  else some { arguments with record := some record }

/-- The long option that an argument names, with the value behind an equals sign. -/
def longOption? (argument : String) : Option (String × Option String) :=
  match argument.toList with
  | '-' :: '-' :: chars =>
      let name := String.ofList (chars.takeWhile (· != '='))
      match chars.dropWhile (· != '=') with
      | _ :: value => some (name, some (String.ofList value))
      | [] => some (name, none)
  | _ => none

/-- Whether an argument has the form of an option. -/
def looksLikeOption (argument : String) : Bool :=
  match argument.toList with
  | '-' :: _ :: _ => true
  | _ => false

/-- The arguments behind a double dash, all of them plain. -/
def readPlain (arguments : Arguments) : List String → Request
  | [] => .run arguments
  | argument :: rest =>
      match setRecord argument arguments with
      | some arguments => readPlain arguments rest
      | none => .misuse

/-- The arguments behind the command. -/
def readOptions (arguments : Arguments) : List String → Request
  | [] => .run arguments
  | argument :: rest =>
      if argument = "--" then readPlain arguments rest
      else if argument = "--help" || argument.startsWith "-h" then .help
      else
        match longOption? argument with
        | some (option, some value) =>
            match setValue option value arguments with
            | some arguments => readOptions arguments rest
            | none => .misuse
        | some (option, none) =>
            if takesValue option then
              match rest with
              | [] => .misuse
              | value :: rest =>
                  if looksLikeOption value then .misuse
                  else
                    match setValue option value arguments with
                    | some arguments => readOptions arguments rest
                    | none => .misuse
            else
              match setFlag option arguments with
              | some arguments => readOptions arguments rest
              | none => .misuse
        | none =>
            if looksLikeOption argument then .misuse
            else
              match setRecord argument arguments with
              | some arguments => readOptions arguments rest
              | none => .misuse

/-- The arguments behind the word `help`: at most one command, or that word again. -/
def readTopic : List String → Request
  | [] => .help
  | [topic] => if topic = "help" || (Verb.ofName? topic).isSome then .help else .misuse
  | _ => .misuse

/-- Read a command line. -/
def read : List String → Request
  | [] => .misuse
  | first :: rest =>
      if first = "--version" || first.startsWith "-V" then .version
      else if first = "--help" || first.startsWith "-h" then .help
      else if first = "help" then readTopic rest
      else
        match Verb.ofName? first with
        | some verb => readOptions { verb } rest
        | none => .misuse

end Command

end HostBridge
