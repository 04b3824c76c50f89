import HostBridge.Config
import HostBridge.Layout.Member

/-!
# Record layout

A record is a tree of slots. Its layout follows the rules of C for the pointer width of a build;
slots that the build lacks take no space.

Sizes and offsets are machine words of 32 bits. Every sum and product goes through `cut`, which
is `word` for those words and `exact` for unbounded numbers.
-/

namespace HostBridge

/-- The number of elements of an array inside a record. -/
inductive ArrayLength where
  /-- This many elements. -/
  | fixed (count : Nat)
  /-- As many elements as fit in this many pointers. -/
  | words (count : Nat)
deriving DecidableEq, Repr

/-- One slot of a record. -/
inductive Slot where
  /-- A single member. -/
  | field (name : String) (type : NativeType)
  /-- An array, listed at the offset of its first element. -/
  | array (name : String) (type : NativeType) (length : ArrayLength)
  /-- A struct; without a name its members are listed as those of the enclosing one. -/
  | embed (name : String) (slots : List Slot)
  /-- Variants at one offset. -/
  | union (name : String) (variants : List Slot)
  /-- A slot that only builds with the feature have. -/
  | optional (feature : Feature) (slot : Slot)

/-- Space that a slot takes. -/
structure Extent where
  /-- Bytes. -/
  size : Nat
  /-- Alignment in bytes. -/
  align : Nat
deriving DecidableEq, Repr

/-- A member at its place. -/
structure Placement where
  /-- The dotted name. -/
  name : String
  /-- Bytes from the start of the record. -/
  offset : Nat
  /-- The native type. -/
  type : NativeType
deriving DecidableEq, Repr

namespace Layout

/-- Unbounded numbers. -/
def exact (number : Nat) : Nat := number

/-- Words of 32 bits. -/
def word (number : Nat) : Nat := number % UInt32.size

/-- The least multiple of `align` from `number` on. -/
def alignUp (cut : Nat → Nat) (number align : Nat) : Nat :=
  cut ((number + align - 1) / align * align)

/-- A name inside the member called `outer`. -/
def join (outer name : String) : String :=
  if outer.isEmpty then name else outer ++ "." ++ name

/-- The number of elements of an array. -/
def elementCount (cut : Nat → Nat) (width : Width) (type : NativeType) : ArrayLength → Nat
  | .fixed count => count
  | .words count => cut (count * width.bytes) / type.size width

/-- Put an extent behind those of a struct. -/
def append (cut : Nat → Nat) (before next : Extent) : Extent :=
  { size := cut (alignUp cut before.size next.align + next.size)
    align := max before.align next.align }

/-- Put an extent beside those of a union. -/
def overlay (before next : Extent) : Extent :=
  { size := max before.size next.size, align := max before.align next.align }

/-- The extent of nothing. -/
def nothing : Extent := { size := 0, align := 1 }

/-- Fill up an extent to a multiple of its alignment. -/
def pad (cut : Nat → Nat) (extent : Extent) : Extent :=
  { extent with size := alignUp cut extent.size extent.align }

mutual

/-- The space that a slot takes in a build; `none` if the build lacks it. -/
def measure (cut : Nat → Nat) (config : BuildConfig) : Slot → Option Extent
  | .field _ type => some { size := type.size config.width, align := type.align config.width }
  | .array _ type length =>
      some
        { size := cut (type.size config.width * elementCount cut config.width type length)
          align := type.align config.width }
  | .embed _ slots => some (pad cut (measureStruct cut config nothing slots))
  | .union _ variants => some (pad cut (measureUnion cut config nothing variants))
  | .optional feature slot => if config.has feature then measure cut config slot else none

/-- The space of slots one behind the other, after those of extent `before`. -/
def measureStruct (cut : Nat → Nat) (config : BuildConfig) (before : Extent) :
    List Slot → Extent
  | [] => before
  | slot :: slots =>
      match measure cut config slot with
      | some extent => measureStruct cut config (append cut before extent) slots
      | none => measureStruct cut config before slots

/-- The space of slots at one offset, beside those of extent `before`. -/
def measureUnion (cut : Nat → Nat) (config : BuildConfig) (before : Extent) :
    List Slot → Extent
  | [] => before
  | slot :: slots =>
      match measure cut config slot with
      | some extent => measureUnion cut config (overlay before extent) slots
      | none => measureUnion cut config before slots

end

mutual

/-- The members of a slot at an offset, with their names inside `outer`. -/
def place (cut : Nat → Nat) (config : BuildConfig) (outer : String) (offset : Nat) :
    Slot → List Placement
  | .field name type => [{ name := join outer name, offset, type }]
  | .array name type _ => [{ name := join outer name, offset, type }]
  | .embed name slots =>
      placeStruct cut config (if name.isEmpty then outer else join outer name) offset 0 slots
  | .union name variants => placeUnion cut config (join outer name) offset variants
  | .optional feature slot =>
      if config.has feature then place cut config outer offset slot else []

/-- The members of slots one behind the other; `cursor` bytes from `base` on are taken. -/
def placeStruct (cut : Nat → Nat) (config : BuildConfig) (outer : String) (base cursor : Nat) :
    List Slot → List Placement
  | [] => []
  | slot :: slots =>
      match measure cut config slot with
      | none => placeStruct cut config outer base cursor slots
      | some extent =>
          let start := alignUp cut cursor extent.align
          place cut config outer (cut (base + start)) slot
            ++ placeStruct cut config outer base (cut (start + extent.size)) slots

/-- The members of slots at one offset. -/
def placeUnion (cut : Nat → Nat) (config : BuildConfig) (outer : String) (offset : Nat) :
    List Slot → List Placement
  | [] => []
  | slot :: slots =>
      place cut config outer offset slot ++ placeUnion cut config outer offset slots

end

end Layout

/-- A record of the host. -/
structure Record where
  /-- The name of the record. -/
  name : String
  /-- Only builds with this feature have the record. -/
  requires : Option Feature := none
  /-- The slots in order of declaration. -/
  slots : List Slot

/-- A record laid out for a build. -/
structure RecordLayout where
  /-- The name of the record. -/
  name : String
  /-- Bytes of the record. -/
  size : UInt32
  /-- The members with their dotted names, in the order of their slots. -/
  members : List (String × Member)
deriving DecidableEq, Repr

namespace Record

/-- Whether a build has the record. -/
def present (config : BuildConfig) (record : Record) : Bool :=
  match record.requires with
  | some feature => config.has feature
  | none => true

/-- The space of the record. -/
def extent (cut : Nat → Nat) (config : BuildConfig) (record : Record) : Extent :=
  Layout.pad cut (Layout.measureStruct cut config Layout.nothing record.slots)

/-- The members of the record. -/
def placements (cut : Nat → Nat) (config : BuildConfig) (record : Record) : List Placement :=
  Layout.placeStruct cut config "" 0 0 record.slots

/-- Lay the record out for a build; `none` if the build lacks it. -/
def compute (config : BuildConfig) (record : Record) : Option RecordLayout :=
  if record.present config then
    some
      { name := record.name
        size := .ofNat (record.extent Layout.word config).size
        members := (record.placements Layout.word config).map fun placement =>
          (placement.name, { offset := .ofNat placement.offset, type := placement.type }) }
  else none

end Record

end HostBridge
