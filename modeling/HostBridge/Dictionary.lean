/-!
# Dictionaries

A finite map as a list of pairs in which every key stands once. Setting a key replaces its value
in place or adds the pair at the end.
-/

namespace HostBridge

/-- Pairs of a text key and a value, with distinct keys. -/
abbrev Dictionary (α : Type) := List (String × α)

namespace Dictionary

variable {α : Type}

/-- Give a key a value. -/
def insert (key : String) (value : α) : Dictionary α → Dictionary α
  | [] => [(key, value)]
  | entry :: entries =>
      if entry.1 = key then (key, value) :: entries else entry :: insert key value entries

/-- The value of a key. -/
def get? (key : String) : Dictionary α → Option α
  | [] => none
  | entry :: entries => if entry.1 = key then some entry.2 else get? key entries

/-- Drop a key. -/
def erase (key : String) : Dictionary α → Dictionary α
  | [] => []
  | entry :: entries => if entry.1 = key then entries else entry :: erase key entries

/-- The keys in the order of their bytes. -/
def sortedKeys (entries : Dictionary α) : List String :=
  (entries.map (·.1)).mergeSort fun left right => decide (left ≤ right)

end Dictionary

end HostBridge
