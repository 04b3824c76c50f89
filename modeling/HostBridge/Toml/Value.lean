/-!
# Values of a configuration document

A document is a table: keys with values in the order in which the text defines them. Each table
remembers how it came into being, because that decides which later lines may extend it.
-/

namespace HostBridge

namespace Toml

/-- How a table came into being. -/
inductive Origin where
  /-- Written between braces; closed to any extension. -/
  | inline
  /-- Named by a header of its own. -/
  | header
  /-- Only implied by the header of a table inside it. -/
  | implied
  /-- Implied by a dotted key. -/
  | dotted
deriving DecidableEq, Repr

/-- A value of a document. Numbers with a fraction and points in time keep their spelling. -/
inductive Value where
  | string (text : String)
  | integer (number : Int)
  | float (spelling : String)
  | boolean (truth : Bool)
  | datetime (spelling : String)
  | array (items : List Value)
  | table (origin : Origin) (entries : List (String × Value))
  /-- Tables gathered under one doubly bracketed header, oldest first. -/
  | tables (items : List (List (String × Value)))

/-- Keys with their values, oldest first. -/
abbrev Entries := List (String × Value)

namespace Entries

/-- Replace the value of a key in place. -/
def replace (key : String) (value : Value) (entries : Entries) : Entries :=
  entries.map fun entry => if entry.1 == key then (key, value) else entry

/-- Drop a key. -/
def erase (key : String) (entries : Entries) : Entries :=
  entries.filter fun entry => entry.1 != key

/-- Whether a table of this origin may be entered by a path: inline tables never, tables with a
header of their own not by a dotted key. -/
def enterable (dotted : Bool) : Origin → Bool
  | .inline => false
  | .header => !dotted
  | .implied | .dotted => true

/-- Change the table at the end of `path`, making the tables on the way that are missing. The
change sees the origin of the table that it is applied to. -/
def alter (dotted : Bool) :
    List String → (Origin → Entries → Option Entries) → Origin → Entries → Option Entries
  | [], change, origin, entries => change origin entries
  | key :: path, change, _, entries =>
      let missing : Origin := if dotted then .dotted else .implied
      match entries.lookup key with
      | none => do
          let inner ← alter dotted path change missing []
          some (entries ++ [(key, .table missing inner)])
      | some (.table origin inner) =>
          if enterable dotted origin then do
            let changed ← alter dotted path change origin inner
            some (replace key (.table origin changed) entries)
          else
            none
      | some (.tables items) =>
          match items.getLast? with
          | none => none
          | some last => do
              let changed ← alter dotted path change .header last
              some (replace key (.tables (items.dropLast ++ [changed])) entries)
      | some _ => none

/-- Define a key, dotted or not, in the table that the current lines belong to. -/
def define (path : List String) (key : String) (value : Value) (entries : Entries) :
    Option Entries :=
  alter true path
    (fun origin inner =>
      if !path.isEmpty && origin != .dotted then none
      else if (inner.lookup key).isSome then none
      else some (inner ++ [(key, value)]))
    .header entries

end Entries

end Toml

end HostBridge
