/-
# Hexadecimal digits

A byte is written as two lowercase digits, high half first (`Hex.encode`), and
read back from digits of either case (`Hex.decode`). Reading refuses an odd
number of digits before it looks at any of them, and otherwise names the first
byte that is no digit. Numbers are written without leading zeros
(`Hex.numeral`).

Key definitions: `Hex.digitValue?`, `Hex.encode`, `Hex.decode`, `Hex.numeral`.
-/
import ProbeLink.Bytes

namespace ProbeLink.Hex

/-- The value of a hexadecimal digit of either case. -/
def digitValue? (b : UInt8) : Option UInt8 :=
  if 0x30 ≤ b ∧ b ≤ 0x39 then some (b - 0x30)
  else if 0x61 ≤ b ∧ b ≤ 0x66 then some (b - 0x57)
  else if 0x41 ≤ b ∧ b ≤ 0x46 then some (b - 0x37)
  else none

/-- Whether a byte is a hexadecimal digit of either case. -/
def isDigit (b : UInt8) : Bool := (digitValue? b).isSome

/-- The lowercase digit for a value below 16. -/
def digit (n : UInt8) : UInt8 := if n < 10 then 0x30 + n else 0x57 + n

/-- The two lowercase digits of a byte. -/
def digitPair (b : UInt8) : Bytes := [digit (b / 16), digit (b % 16)]

/-- A byte string as lowercase digits, two for each byte. -/
def encode (data : Bytes) : Bytes := data.flatMap digitPair

/-- Why a text is no hexadecimal spelling of bytes. -/
inductive DecodeError where
  | oddLength
  | badDigit (byte : UInt8) (index : Nat)
  deriving DecidableEq, Repr

/-- Reads pairs of digits; `index` is the position of the first one. -/
def decodePairs (index : Nat) : Bytes → Except DecodeError Bytes
  | hi :: lo :: r =>
    match digitValue? hi with
    | none => .error (.badDigit hi index)
    | some h =>
      match digitValue? lo with
      | none => .error (.badDigit lo (index + 1))
      | some l =>
        match decodePairs (index + 2) r with
        | .error e => .error e
        | .ok data => .ok ((h * 16 + l) :: data)
  | _ => .ok []

/-- The bytes that a text of digits spells. An odd number of digits is refused
whatever they are. -/
def decode (digits : Bytes) : Except DecodeError Bytes :=
  if digits.length % 2 = 1 then .error .oddLength else decodePairs 0 digits

/-- A number in lowercase digits without leading zeros. -/
def numeral (n : Nat) : String := String.ofList (Nat.toDigits 16 n)

/-- A byte string of ASCII digits as text. -/
def asText (digits : Bytes) : String := String.ofList (digits.map fun b => Char.ofNat b.toNat)

/-- A number as text in lowercase digits, padded with zeros to `width`. -/
def padded (width n : Nat) : String :=
  let digits := Nat.toDigits 16 n
  String.ofList (List.replicate (width - digits.length) '0' ++ digits)

end ProbeLink.Hex
