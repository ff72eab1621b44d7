/-
# Commands

A command is asked of the target as a packet whose body is a mnemonic followed
at once by its arguments. Numbers are written in hexadecimal digits without
leading zeros.

Key definitions: `Command`, `Command.mnemonic`, `Command.payload`, `Command.encode`.
-/
import ProbeLink.Packet

namespace ProbeLink

/-- Something asked of the target. -/
inductive Command where
  /-- The registers when `symbol` is hit. -/
  | registers (symbol : String)
  /-- `length` bytes at `addr` when the tracepoint is hit. -/
  | memory (addr length : UInt64)
  /-- The call arguments of `function` when it is entered. -/
  | arguments (function : String)
  /-- Any other body. -/
  | raw (command payload : String)
  deriving DecidableEq, Repr

namespace Command

/-- The word that starts the body. -/
def mnemonic : Command → String
  | .registers _ => "vTR"
  | .memory _ _ => "vTM"
  | .arguments _ => "vTA"
  | .raw command _ => command

/-- The arguments that follow the mnemonic. -/
def payload : Command → String
  | .registers symbol => symbol
  | .memory addr length => Hex.numeral addr.toNat ++ "," ++ Hex.numeral length.toNat
  | .arguments function => function
  | .raw _ payload => payload

/-- The frame of the command. -/
def encode (c : Command) : Bytes := commandFrame c.mnemonic c.payload

end Command

/-- The frames of several commands, each behind what `buffer` holds already. -/
def encodeOnto (buffer : Bytes) : List (String × String) → Bytes
  | [] => buffer
  | (command, payload) :: r => encodeOnto (buffer ++ commandFrame command payload) r

end ProbeLink
