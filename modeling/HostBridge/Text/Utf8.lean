/-!
# Text in bytes

Bytes are read as UTF-8. Where they are malformed, the longest run that could have started a
character is replaced by the character `U+FFFD`, and reading goes on behind it.
-/

namespace HostBridge

namespace Text

namespace Utf8

/-- The character that stands for malformed bytes. -/
def replacement : Char := '\ufffd'

/-- What has to follow the first byte of a character. -/
structure Tail where
  /-- The number of bytes that follow. -/
  count : Nat
  /-- The least value of the next one. -/
  low : UInt8 := 0x80
  /-- The greatest value of the next one. -/
  high : UInt8 := 0xbf

/-- What follows a byte that starts a character of several bytes. Surrogates, overlong forms and
points beyond the last character are excluded by the range of the second byte. -/
def tail? (first : UInt8) : Option Tail :=
  if first < 0xc2 then none
  else if first < 0xe0 then some { count := 1 }
  else if first = 0xe0 then some { count := 2, low := 0xa0 }
  else if first = 0xed then some { count := 2, high := 0x9f }
  else if first < 0xf0 then some { count := 2 }
  else if first = 0xf0 then some { count := 3, low := 0x90 }
  else if first < 0xf4 then some { count := 3 }
  else if first = 0xf4 then some { count := 3, high := 0x8f }
  else none

/-- The bits of a code point in a first byte with `count` bytes behind it. -/
def firstBits (first : UInt8) (count : Nat) : Nat :=
  first.toNat % (0x80 >>> (count + 1))

/-- Take the bytes behind a first one: the code point if they are all there, and the rest. -/
def takeTail (low high : UInt8) : Nat → Nat → List UInt8 → Option Nat × List UInt8
  | 0, point, bytes => (some point, bytes)
  | _ + 1, _, [] => (none, [])
  | count + 1, point, byte :: bytes =>
      if low ≤ byte ∧ byte ≤ high then
        takeTail 0x80 0xbf count (point * 64 + byte.toNat % 64) bytes
      else (none, byte :: bytes)

/-- Read one character off bytes that start with `first`. -/
def takeChar (first : UInt8) (bytes : List UInt8) : Char × List UInt8 :=
  if first < 0x80 then (Char.ofNat first.toNat, bytes)
  else
    match tail? first with
    | none => (replacement, bytes)
    | some tail =>
        match takeTail tail.low tail.high tail.count (firstBits first tail.count) bytes with
        | (some point, rest) => (Char.ofNat point, rest)
        | (none, rest) => (replacement, rest)

/-- Read characters. Each takes at least one byte, so the number of bytes is fuel enough. -/
def chars : Nat → List UInt8 → List Char
  | 0, _ => []
  | _ + 1, [] => []
  | fuel + 1, first :: bytes =>
      let (char, rest) := takeChar first bytes
      char :: chars fuel rest

/-- Bytes as text. -/
def decode (bytes : List UInt8) : String := String.ofList (chars bytes.length bytes)

end Utf8

end Text

end HostBridge
