/-
# What the console shows

The wording of everything that the console prints when things go well. Memory is
shown sixteen bytes to a line, each line behind the address of its first byte;
addresses wrap around at the end of the address space.

Key definitions: `Display.reply`, `Display.dump`, `Display.memory`,
`Display.counters`, `Display.help`.
-/
import ProbeLink.Console.Paint
import ProbeLink.Counters
import ProbeLink.Reply

namespace ProbeLink.Console.Display

/-- The name and the version of the program. -/
def version : String := "side-stub 0.1.0"

/-- The first line of an interactive run. -/
def banner : String := version ++ " - type 'help' for commands, 'quit' to exit"

/-- How the program is called. -/
def usage : String :=
  "Usage: side-stub [--address <address>] [--config <path>] [--log-level <level>] " ++
    "[--timeout-ms <ms>] [--baud <rate>] [--command <command>] [--quiet]"

/-- What asks the terminal for an empty screen. -/
def clearScreen : String := "\x1b[2J\x1b[1;1H"

/-- A decoded reply. -/
def reply (on : Bool) : Reply → String
  | .ok => Paint.green.apply on "OK"
  | .error code => Paint.red.apply on ("E" ++ Hex.asText (Hex.digitPair code))
  | .unsupported => Paint.dimmed.apply on "(unsupported)"
  | .data bytes => Paint.yellow.apply on (Hex.asText (Hex.encode bytes))
  | .text s => s

/-- A packet as it came. -/
def packet (on : Bool) (p : Packet) : String :=
  if p.verify then p.text else p.text ++ " " ++ Paint.yellow.apply on "(checksum mismatch)"

/-- A notification. -/
def notification (on : Bool) (p : Packet) : String :=
  Paint.blue.apply on "%" ++ " " ++ Paint.blue.apply on p.text

/-- How many bytes are shown on a line. -/
def lineWidth : Nat := 16

/-- Bytes cut into lines, each with the address of its first byte. -/
def dump (addr : UInt64) (data : Bytes) : List (UInt64 × Bytes) :=
  match data with
  | [] => []
  | b :: r =>
    (addr, (b :: r).take lineWidth) ::
      dump (addr + UInt64.ofNat lineWidth) ((b :: r).drop lineWidth)
  termination_by data.length
  decreasing_by simp only [List.length_drop, List.length_cons, lineWidth]; omega

/-- One line of memory. -/
def memoryLine (on : Bool) (addr : UInt64) (data : Bytes) : String :=
  Paint.cyan.apply on ("0x" ++ Hex.padded 16 addr.toNat ++ ":") ++ " "
    ++ Hex.asText (Hex.encode data)

/-- Memory from an address on, in lines. -/
def memory (on : Bool) (addr : UInt64) (data : Bytes) : List String :=
  if data = [] then [Paint.dimmed.apply on "(empty)"]
  else (dump addr data).map fun (a, bytes) => memoryLine on a bytes

/-- The counters of a session, in lines. -/
def counters (c : Counters) : List String := [
  "commands sent    " ++ toString c.commandsSent,
  "replies          " ++ toString c.replies,
  "notifications    " ++ toString c.notifications,
  "acks sent        " ++ toString c.acksSent,
  "dropped replies  " ++ toString c.droppedReplies,
  "timeouts         " ++ toString c.timeouts,
  "retransmits      " ++ toString c.retransmits,
  "framing errors   " ++ toString c.framingErrors]

/-- The commands that can be typed, in lines. -/
def help (on : Bool) : List String := [
  "",
  Paint.cyan.bold.apply on "side-stub Commands",
  "",
  Paint.yellow.bold.apply on "Connection",
  "  target remote <address>                    Connect (serial path or tcp:<host>:<port>)",
  "  disconnect                                 Close the connection",
  "",
  Paint.yellow.bold.apply on "Tracepoints",
  "  tracepoint-then-get-registers <symbol>     Registers when <symbol> is hit",
  "  tracepoint-then-get-memory <addr> <len>    Memory when the tracepoint is hit",
  "  tracepoint-then-get-arguments <function>   Call arguments of <function>",
  "  send <packet-body>                         Send a raw packet and print the reply",
  "",
  Paint.yellow.bold.apply on "Local",
  "  stats                                      Session counters",
  "  help                                       Show this help",
  "  clear                                      Clear screen",
  "  quit/exit                                  Exit CLI",
  ""]

end ProbeLink.Console.Display
