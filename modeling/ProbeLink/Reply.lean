/-
# Replies

The payload of a reply is empty, `OK`, an error code, hexadecimal data or any
other text, in this order of precedence: an error code is told from data before
digits are read, and a text that fails to spell bytes stays text.

Key definitions: `Reply`, `Reply.parse`, `Reply.shown`.
-/
import ProbeLink.Packet

namespace ProbeLink

/-- What a reply says. -/
inductive Reply where
  | ok
  | error (code : UInt8)
  /-- The target does not know the command. -/
  | unsupported
  | data (bytes : Bytes)
  | text (s : String)
  deriving DecidableEq, Repr

namespace Reply

/-- What a payload that is no fixed word says. -/
def ofSpelling (payload : Bytes) : Reply :=
  match Hex.decode payload with
  | .ok bytes => .data bytes
  | .error _ => .text (Text.lossy payload)

/-- What a payload says. -/
def parse (payload : Bytes) : Reply :=
  match payload with
  | [] => .unsupported
  | [0x4F, 0x4B] => .ok
  | [0x45, hi, lo] =>
    match Hex.digitValue? hi, Hex.digitValue? lo with
    | some h, some l => .error (h * 16 + l)
    | _, _ => ofSpelling payload
  | _ => ofSpelling payload

/-- A list of numbers in brackets. -/
def shownBytes (bytes : Bytes) : String :=
  "[" ++ ", ".intercalate (bytes.map fun b => toString b.toNat) ++ "]"

/-- A reply written out for a message. -/
def shown : Reply → String
  | .ok => "Ok"
  | .error code => "Error(" ++ toString code.toNat ++ ")"
  | .unsupported => "Unsupported"
  | .data bytes => "Data(" ++ shownBytes bytes ++ ")"
  | .text s => "Text(" ++ Text.quoted s ++ ")"

end Reply

end ProbeLink
