/-
# Packets

A packet is one complete frame: its class, its payload and the two checksum
characters exactly as they were received. Framing never rejects a packet for a
bad checksum; whoever wants to know asks `Packet.check`.

On the wire a packet is a start mark, the payload, an end mark and the two
checksum characters (`Packet.encode`).

Key definitions: `Packet`, `Packet.sealed`, `Packet.verify`, `Packet.check`,
`Packet.encode`, `commandFrame`.
-/
import ProbeLink.Checksum
import ProbeLink.Text.Lossy
import ProbeLink.WireError

namespace ProbeLink

/-- The mark that starts a command or a reply. -/
def replyMark : UInt8 := 0x24

/-- The mark that starts a notification. -/
def notificationMark : UInt8 := 0x25

/-- The mark that ends a body. -/
def endMark : UInt8 := 0x23

/-- The byte that acknowledges a reply. -/
def ackByte : UInt8 := 0x2B

/-- The byte that asks for the last command again. -/
def nakByte : UInt8 := 0x2D

/-- The class of a frame. -/
inductive PacketKind where
  /-- An answer to the command under way. -/
  | reply
  /-- A message that no command asked for. -/
  | notification
  deriving DecidableEq, Repr

/-- The mark that starts a frame of the class. -/
def PacketKind.mark : PacketKind → UInt8
  | .reply => replyMark
  | .notification => notificationMark

/-- One complete frame. -/
structure Packet where
  kind : PacketKind
  payload : Bytes
  /-- The checksum characters as received. -/
  first : UInt8
  second : UInt8
  deriving DecidableEq, Repr

namespace Packet

/-- The two checksum characters as received. -/
def checksum (p : Packet) : Bytes := [p.first, p.second]

/-- The packet with the right checksum. -/
def sealed (kind : PacketKind) (payload : Bytes) : Packet :=
  let sum := byteSum payload
  ⟨kind, payload, Hex.digit (sum / 16), Hex.digit (sum % 16)⟩

def isNotification (p : Packet) : Bool := p.kind == .notification

/-- The payload as text. -/
def text (p : Packet) : String := Text.lossy p.payload

/-- Whether the checksum is the right one. -/
def verify (p : Packet) : Bool := Checksum.verify p.payload p.checksum

/-- Like `verify`, but says what was expected and what was received. -/
def check (p : Packet) : Except WireError Unit :=
  if p.verify then .ok ()
  else .error (.checksumMismatch (Hex.asText (Checksum.digits p.payload)) (Text.lossy p.checksum))

/-- The bytes of the frame. -/
def encode (p : Packet) : Bytes := p.kind.mark :: p.payload ++ endMark :: p.checksum

end Packet

/-- The frame of a command: the mnemonic and its arguments stand between the
marks, and the checksum covers both. -/
def commandFrame (command payload : String) : Bytes :=
  let sum := byteSum (textBytes command) + byteSum (textBytes payload)
  replyMark :: textBytes command ++ textBytes payload ++ endMark :: Hex.digitPair sum

/-- It is the frame of one packet with the right checksum. -/
theorem commandFrame_eq_encode (command payload : String) :
    commandFrame command payload =
      (Packet.sealed .reply (textBytes command ++ textBytes payload)).encode := by
  rw [commandFrame, ← byteSum_append, Packet.encode]
  rfl

end ProbeLink
