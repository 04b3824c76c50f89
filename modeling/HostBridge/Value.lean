import HostBridge.Text.Number

/-!
# Host values

A host value is one word. Small integers carry their value above a set low bit; `false`, `true`,
`nil` and the marker for "no value" are fixed words; all other words are references.
-/

namespace HostBridge

/-- A host value word. -/
structure HostValue where
  /-- The word itself. -/
  bits : UInt64
deriving DecidableEq, Repr

namespace HostValue

/-- The word for `false`. -/
def false : HostValue := ⟨0⟩

/-- The word for `true`. -/
def true : HostValue := ⟨2⟩

/-- The word for `nil`. -/
def nil : HostValue := ⟨4⟩

/-- The word that marks the absence of a value. -/
def undef : HostValue := ⟨6⟩

/-- Tag a small integer. The highest bit is lost. -/
def ofFixnum (number : Int64) : HostValue :=
  ⟨(number.toUInt64 <<< 1) ||| 1⟩

/-- Whether the word is a tagged small integer. -/
def isFixnum (value : HostValue) : Bool :=
  value.bits &&& 1 == 1

/-- The small integer of a tagged word. -/
def fixnum? (value : HostValue) : Option Int64 :=
  if value.isFixnum then some (value.bits.toInt64 >>> 1) else none

/-- Everything but `false` and `nil` counts as true. -/
def truthy (value : HostValue) : Bool :=
  value.bits &&& ~~~nil.bits != 0

/-- The word for a truth value. -/
def ofBool (condition : Bool) : HostValue :=
  if condition then true else false

/-- A value in messages. -/
def display (value : HostValue) : String :=
  if value = false then "false"
  else if value = true then "true"
  else if value = nil then "nil"
  else if value = undef then "undef"
  else
    match value.fixnum? with
    | some number => toString number.toInt
    | none => "<" ++ Text.hex value.bits.toNat ++ ">"

end HostValue

end HostBridge
