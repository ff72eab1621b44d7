/-
# What can be asked of a session

A call asks for the raw answer to a packet, for a decoded reply, for memory, or
for the end of the session. A decoded reply is checked first, if the settings
say so; an error code becomes an error, and memory has to come as data.

Key definitions: `Ask`, `Answer`, `Ask.body?`, `Ask.answer`.
-/
import ProbeLink.Command
import ProbeLink.Session.Error

namespace ProbeLink

/-- What a call asks for. -/
inductive Ask where
  /-- The packet that answers a command, as it is. -/
  | packet (command payload : String)
  /-- The decoded reply to a command. -/
  | reply (command : Command)
  /-- `length` bytes at `addr`. -/
  | memory (addr length : UInt64)
  /-- The end of the session. -/
  | disconnect
  deriving DecidableEq, Repr

/-- What a call that went well answers. -/
inductive Answer where
  | packet (p : Packet)
  | reply (r : Reply)
  | data (bytes : Bytes)
  | disconnected
  deriving DecidableEq, Repr

/-- What a packet says, or why it says nothing usable. -/
def decodeReply (verify : Bool) (p : Packet) : Except SessionError Reply :=
  match if verify then p.check else .ok () with
  | .error e => .error (.wire e)
  | .ok () =>
    match Reply.parse p.payload with
    | .error code => .error (.remote code)
    | r => .ok r

namespace Ask

/-- The two parts of the body that is sent; nothing for the end of the session. -/
def body? : Ask → Option (String × String)
  | .packet command payload => some (command, payload)
  | .reply c => some (c.mnemonic, c.payload)
  | .memory addr length =>
    some ((Command.memory addr length).mnemonic, (Command.memory addr length).payload)
  | .disconnect => none

/-- The answer that a packet gives. -/
def answer (verify : Bool) (p : Packet) : Ask → Except SessionError Answer
  | .packet _ _ => .ok (.packet p)
  | .reply _ => (decodeReply verify p).map .reply
  | .memory _ _ =>
    match decodeReply verify p with
    | .ok (.data bytes) => .ok (.data bytes)
    | .ok r => .error (.unexpected r)
    | .error e => .error e
  | .disconnect => .ok .disconnected

end Ask

end ProbeLink
