import HiddenContent.Text

/-!
# Texts as bytes

The UTF-8 form of a text, and reading it back. The reader goes byte by byte. After the first
byte of a character it knows how many continuation bytes are owed and within which limits the
next one lies, so overlong forms, surrogates and codes past the last character are refused at
the first byte that rules them out. What has been read of the character by then is the place
of the fault.
-/

namespace HiddenContent

/-- The bytes of a file. -/
abbrev Bytes := List UInt8

namespace Text

/-- The bytes of a text. -/
def encode (text : Text) : Bytes := text.flatMap String.utf8EncodeChar

end Text

namespace Utf8

/-- Why bytes are no text. -/
inductive Reason where
  /-- No character starts with this byte. -/
  | start
  /-- The character so far is followed by a byte that does not continue it. -/
  | continuation
  /-- The bytes end within a character. -/
  | stop
deriving DecidableEq, Repr

/-- The bytes `start` to `stop - 1`, of which the first is given, are not the form of a
    character. -/
structure Fault where
  reason : Reason
  start : Nat
  stop : Nat
  byte : UInt8
deriving DecidableEq, Repr

/-- The wording of a reason. -/
def Reason.wording : Reason → Text
  | start => "invalid start byte".toList
  | continuation => "invalid continuation byte".toList
  | stop => "unexpected end of data".toList

/-- A byte as two hexadecimal digits. -/
def hexByte (byte : UInt8) : Text :=
  [Nat.digitChar (byte.toNat / 16), Nat.digitChar (byte.toNat % 16)]

/-- Where a fault is, with its first byte when it is the only one. -/
def Fault.place (fault : Fault) : Text :=
  if fault.stop = fault.start + 1 then
    "byte 0x".toList ++ hexByte fault.byte ++ " in position ".toList ++ Text.decimal fault.start
  else
    "bytes in position ".toList ++ Text.decimal fault.start ++ ['-'] ++
      Text.decimal (fault.stop - 1)

/-- The wording of a fault. -/
def Fault.wording (fault : Fault) : Text :=
  "\x27utf-8\x27 codec can\x27t decode ".toList ++ fault.place ++ ": ".toList ++
    fault.reason.wording

/-- A character of which some bytes have been read: where it starts, its first byte, the number
    of bytes still owed, the limits of the next one, and the bits so far. -/
structure Begun where
  start : Nat
  first : UInt8
  owed : Nat
  low : Nat
  high : Nat
  bits : Nat
deriving DecidableEq, Repr

/-- What the first byte of a character of several bytes says of the others. -/
def Begun.ofFirst? (start : Nat) (first : UInt8) : Option Begun :=
  let byte := first.toNat
  let owing (owed low high bits : Nat) : Option Begun :=
    some { start, first, owed, low, high, bits }
  if byte < 0xc2 then none
  else if byte < 0xe0 then owing 1 0x80 0xbf (byte - 0xc0)
  else if byte = 0xe0 then owing 2 0xa0 0xbf 0
  else if byte = 0xed then owing 2 0x80 0x9f 0xd
  else if byte < 0xf0 then owing 2 0x80 0xbf (byte - 0xe0)
  else if byte = 0xf0 then owing 3 0x90 0xbf 0
  else if byte < 0xf4 then owing 3 0x80 0xbf (byte - 0xf0)
  else if byte = 0xf4 then owing 3 0x80 0x8f 4
  else none

/-- Read the bytes from a position on, with the character begun before it. -/
def decodeFrom (pos : Nat) : (begun : Option Begun) → Bytes → Except Fault Text
  | none, [] => .ok []
  | some begun, [] => .error ⟨.stop, begun.start, pos, begun.first⟩
  | none, byte :: rest =>
    if byte.toNat < 0x80 then
      (decodeFrom (pos + 1) none rest).map (Char.ofNat byte.toNat :: ·)
    else
      match Begun.ofFirst? pos byte with
      | some begun => decodeFrom (pos + 1) (some begun) rest
      | none => .error ⟨.start, pos, pos + 1, byte⟩
  | some begun, byte :: rest =>
    if begun.low ≤ byte.toNat ∧ byte.toNat ≤ begun.high then
      let bits := begun.bits * 64 + (byte.toNat - 0x80)
      if begun.owed = 1 then
        (decodeFrom (pos + 1) none rest).map (Char.ofNat bits :: ·)
      else
        decodeFrom (pos + 1)
          (some { begun with owed := begun.owed - 1, low := 0x80, high := 0xbf, bits }) rest
    else
      .error ⟨.continuation, begun.start, pos, begun.first⟩

/-- The text whose bytes these are. -/
def decode (bytes : Bytes) : Except Fault Text := decodeFrom 0 none bytes

end Utf8

end HiddenContent
