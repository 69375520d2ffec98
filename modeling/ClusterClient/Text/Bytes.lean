/-!
# Bytes and their texts

Identifiers, paging states, blobs and payloads are plain byte strings (`Bytes`). Messages show them
in two ways: `quoted` writes printable ASCII as it is and escapes the rest, `listed` writes the
decimal values. `hex` and `ofHex?` are the plain two-digits-a-byte form.
-/

namespace ClusterClient

/-- A byte string. -/
abbrev Bytes := List UInt8

namespace Bytes

/-- The lower-case hexadecimal digit of a number below sixteen. -/
def hexDigit (n : Nat) : Char :=
  if n < 10 then Char.ofNat (48 + n) else Char.ofNat (87 + n)

/-- The value of a hexadecimal digit, in either case. -/
def hexValue? (c : Char) : Option Nat :=
  if '0' ≤ c ∧ c ≤ '9' then some (c.toNat - 48)
  else if 'a' ≤ c ∧ c ≤ 'f' then some (c.toNat - 87)
  else if 'A' ≤ c ∧ c ≤ 'F' then some (c.toNat - 55)
  else none

/-- The two hexadecimal digits of a byte. -/
def hexPair (b : UInt8) : List Char :=
  [hexDigit (b.toNat / 16), hexDigit (b.toNat % 16)]

/-- Lower-case hexadecimal text, two digits a byte. -/
def hex (bs : Bytes) : String :=
  String.ofList (bs.flatMap hexPair)

/-- Reads pairs of hexadecimal digits. -/
def ofHexDigits? : List Char → Option Bytes
  | [] => some []
  | [_] => none
  | hi :: lo :: rest => do
    let h ← hexValue? hi
    let l ← hexValue? lo
    let bs ← ofHexDigits? rest
    some ((16 * h + l).toUInt8 :: bs)

/-- Reads hexadecimal text, two digits a byte. -/
def ofHex? (s : String) : Option Bytes :=
  ofHexDigits? s.toList

/-- One byte inside a quoted byte string: quotes, backslashes and the common control characters
have short escapes, other bytes outside printable ASCII are written by value. -/
def quotedByte (b : UInt8) : List Char :=
  if b = 0 then ['\\', '0']
  else if b = 9 then ['\\', 't']
  else if b = 10 then ['\\', 'n']
  else if b = 13 then ['\\', 'r']
  else if b = 34 then ['\\', '"']
  else if b = 92 then ['\\', '\\']
  else if 32 ≤ b ∧ b < 127 then [Char.ofNat b.toNat]
  else '\\' :: 'x' :: hexPair b

/-- A byte string between quotes, escaped where it is not printable. -/
def quoted (bs : Bytes) : String :=
  String.ofList ('b' :: '"' :: bs.flatMap quotedByte ++ ['"'])

/-- A byte string as the list of its decimal values. -/
def listed (bs : Bytes) : String :=
  "[" ++ ", ".intercalate (bs.map fun b => b.toNat.repr) ++ "]"

end Bytes

end ClusterClient
