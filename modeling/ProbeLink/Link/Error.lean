/-
# Errors of links

A link ends by being closed, which is the expected way, or by a fault of the
medium below it. Each cause has one wording.

Key definitions: `IoFault`, `PathFault`, `LinkError`, `LinkError.message`.
-/
import ProbeLink.Address

namespace ProbeLink

/-- A failed operation on an open medium. -/
inductive IoFault where
  /-- The far end of a pipe is gone. -/
  | brokenPipe
  /-- The far end of a serial line is gone. -/
  | lineHungUp
  /-- A serial line could not be drained. -/
  | lineNotDrained
  /-- The medium was reset. -/
  | reset
  | read
  | write
  | flush
  | shutdown
  /-- No route leads to the socket. -/
  | networkUnreachable
  deriving DecidableEq, Repr

/-- Why the thing at a path cannot be used. -/
inductive PathFault where
  | noSuchFile
  | notADirectory
  | isADirectory
  | nameTooLong
  | notATerminal
  /-- The text is no path at all. -/
  | notAPath
  /-- What is there is not UTF-8. -/
  | notText
  deriving DecidableEq, Repr

/-- Why an operation on a link failed. -/
inductive LinkError where
  | closed
  | io (cause : IoFault)
  | serial (cause : PathFault)
  | badAddress (cause : AddressError)
  deriving DecidableEq, Repr

/-- The wording of a fault. -/
def IoFault.message : IoFault → String
  | .brokenPipe => "broken pipe"
  | .lineHungUp => "Broken pipe"
  | .lineNotDrained => "flush failed"
  | .reset => "link reset"
  | .read => "read fault"
  | .write => "write fault"
  | .flush => "flush fault"
  | .shutdown => "shutdown fault"
  | .networkUnreachable => "Network is unreachable (os error 101)"

/-- The wording of a fault. -/
def PathFault.message : PathFault → String
  | .noSuchFile => "No such file or directory"
  | .notADirectory => "Not a directory"
  | .isADirectory => "Is a directory"
  | .nameTooLong => "File name too long"
  | .notATerminal => "Not a typewriter"
  | .notAPath => "Invalid argument"
  | .notText => "stream did not contain valid UTF-8"

/-- The number of a fault, if it is one of the system. -/
def PathFault.number : PathFault → Option Nat
  | .noSuchFile => some 2
  | .notADirectory => some 20
  | .isADirectory => some 21
  | .nameTooLong => some 36
  | .notATerminal => some 25
  | .notAPath => some 22
  | .notText => none

/-- The wording of a fault with its number. -/
def PathFault.numbered (f : PathFault) : String :=
  match f.number with
  | some n => f.message ++ " (os error " ++ toString n ++ ")"
  | none => f.message

namespace LinkError

/-- Whether a link ended as links are expected to. -/
def isClosed : LinkError → Bool
  | .closed => true
  | _ => false

/-- The wording of an error. -/
def message : LinkError → String
  | .closed => "Transport closed"
  | .io cause => "I/O error: " ++ cause.message
  | .serial cause => "Serial port error: " ++ cause.message
  | .badAddress cause => "Invalid address: " ++ cause.message

/-- The wordings of an error and of what caused it, from the outside in. -/
def trail : LinkError → List String
  | .io cause => [message (.io cause), cause.message]
  | .serial cause => [message (.serial cause), cause.message]
  | e => [e.message]

end LinkError

end ProbeLink
