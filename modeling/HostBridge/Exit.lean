import HostBridge.Text.Number

/-!
# Non-local exits

An exit has a kind and, for most kinds, a target: the tag of the protected region that it leaves.
-/

namespace HostBridge

/-- The identity of a protected region. As a target, zero stands for any region. -/
structure OwnerTag where
  /-- The tag as generated code sees it. -/
  bits : UInt64
deriving DecidableEq, Repr

namespace OwnerTag

/-- The target that any region answers. -/
def any : OwnerTag := ⟨0⟩

/-- A tag in messages and listings. -/
def display (tag : OwnerTag) : String :=
  if tag = any then "<any>" else Text.hex tag.bits.toNat

end OwnerTag

/-- The kinds of non-local exit. -/
inductive ExitKind where
  | return
  | break
  | next
  | retry
  | redo
  | raise
  | throw
  | fatal
deriving DecidableEq, Repr

namespace ExitKind

/-- Every kind, in the order of the codes. -/
def all : List ExitKind :=
  [.return, .break, .next, .retry, .redo, .raise, .throw, .fatal]

/-- The code of a kind. -/
def code : ExitKind → UInt32
  | .return => 1
  | .break => 2
  | .next => 3
  | .retry => 4
  | .redo => 5
  | .raise => 6
  | .throw => 7
  | .fatal => 8

/-- The kind of a code. -/
def ofCode? (code : UInt32) : Option ExitKind :=
  all.find? (·.code == code)

/-- The kind as a symbol in messages. -/
def symbol : ExitKind → String
  | .return => "Return"
  | .break => "Break"
  | .next => "Next"
  | .retry => "Retry"
  | .redo => "Redo"
  | .raise => "Raise"
  | .throw => "Throw"
  | .fatal => "Fatal"

/-- The name of the constant that holds the code. -/
def constantName : ExitKind → String
  | .return => "TAG_RETURN"
  | .break => "TAG_BREAK"
  | .next => "TAG_NEXT"
  | .retry => "TAG_RETRY"
  | .redo => "TAG_REDO"
  | .raise => "TAG_RAISE"
  | .throw => "TAG_THROW"
  | .fatal => "TAG_FATAL"

/-- Kinds that land on the nearest region whatever its tag. -/
def ignoresTarget : ExitKind → Bool
  | .raise | .fatal => true
  | _ => false

/-- The bits of an exit code that the host looks at. -/
def codeMask : UInt32 := 0xf

end ExitKind

end HostBridge
