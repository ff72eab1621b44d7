/-
# Errors of the wire format

What can be wrong with the bytes of a frame. Each cause has one wording
(`WireError.message`).

Key definitions: `WireError`, `WireError.message`.
-/
import ProbeLink.Text.Quoted

namespace ProbeLink

/-- What is wrong with received bytes. -/
inductive WireError where
  /-- A body went on past `max` bytes without its end mark. -/
  | frameTooLong (max : Nat)
  /-- A byte outside any frame that starts none. -/
  | strayByte (byte : UInt8)
  /-- The checksum characters do not spell the checksum of the payload. -/
  | checksumMismatch (expected received : String)
  /-- A text that is no hexadecimal spelling of bytes. -/
  | badHex (cause : Hex.DecodeError)
  deriving DecidableEq, Repr

/-- The reason for which a text is no hexadecimal spelling, in words. A byte is
shown as the character of its number. -/
def Hex.DecodeError.message : Hex.DecodeError → String
  | .oddLength => "Odd number of digits"
  | .badDigit byte index =>
    "Invalid character " ++ Text.quotedChar (Char.ofNat byte.toNat) ++ " at position "
      ++ toString index

/-- The wording of an error. -/
def WireError.message : WireError → String
  | .frameTooLong max =>
    "Frame too long: payload exceeded " ++ toString max ++ " bytes without a terminator"
  | .strayByte byte =>
    "Protocol violation: unexpected byte 0x" ++ Hex.asText (Hex.digitPair byte)
      ++ " outside of a frame"
  | .checksumMismatch expected received =>
    "Checksum mismatch: expected " ++ expected ++ ", received " ++ received
  | .badHex cause => "Invalid hex data: " ++ cause.message

end ProbeLink
