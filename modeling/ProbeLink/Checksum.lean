/-
# Packet checksums

The checksum of a payload is the sum of its bytes modulo 256, written as two
lowercase digits. A received checksum is read as a numeral of exactly two
characters, so digits of either case count, and a plus sign may stand for a
leading zero.

Key definitions: `Checksum.digits`, `Checksum.parse`, `Checksum.verify`.
-/
import ProbeLink.Hex

namespace ProbeLink.Checksum

/-- The two digits that belong to a payload. -/
def digits (payload : Bytes) : Bytes := Hex.digitPair (byteSum payload)

/-- The value of two received characters. -/
def parse : Bytes → Option UInt8
  | [hi, lo] =>
    match Hex.digitValue? lo with
    | none => none
    | some l =>
      if hi = 0x2B then some l
      else (Hex.digitValue? hi).map fun h => h * 16 + l
  | _ => none

/-- Whether the received characters spell the sum of the payload. -/
def verify (payload received : Bytes) : Bool := parse received == some (byteSum payload)

end ProbeLink.Checksum
