/-!
# The texts of 32-bit numbers

Counts and codes of the wire protocol are signed 32-bit numbers. `decimal` writes one with its sign,
`paddedHex` writes its two's complement in at least four hexadecimal digits.
-/

namespace ClusterClient

/-- The decimal text of a 32-bit number. -/
def decimal (n : Int32) : String :=
  if n.toInt < 0 then "-" ++ n.toInt.natAbs.repr else n.toInt.natAbs.repr

/-- The hexadecimal text of a 32-bit number, in two's complement, padded to four digits. -/
def paddedHex (n : Int32) : String :=
  let digits := Nat.toDigits 16 n.toUInt32.toNat
  "0x" ++ String.ofList (List.replicate (4 - digits.length) '0' ++ digits)

end ClusterClient
