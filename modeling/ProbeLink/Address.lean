/-
# Addresses of targets

An address is a socket, written with the scheme `tcp:` or as a bare host and
port, or a serial device, written with the scheme `serial:` or as a bare path.
Text that starts with a slash is always a path, and text that fails to be a host
and a port without saying that it should be one is a path too. The host ends at
the last colon and is not empty; the port is a number below 65536.

Key definitions: `Address`, `Address.parse`, `Address.display`.
-/
import ProbeLink.Text.Blank
import ProbeLink.Text.Numeral

namespace ProbeLink

/-- Where a target is found. -/
inductive Address where
  /-- A host and a port with a colon between them. -/
  | tcp (hostPort : String)
  /-- The path of a device. -/
  | serial (path : String)
  deriving DecidableEq, Repr

/-- Why a text is no address. -/
inductive AddressError where
  | empty
  /-- The scheme asks for a host and a port that `text` does not give. -/
  | notHostPort (text : String)
  deriving DecidableEq, Repr

/-- The wording of an error. -/
def AddressError.message : AddressError → String
  | .empty => "empty address"
  | .notHostPort text => "expected tcp:<host>:<port>, got " ++ text

namespace Address

/-- The text behind `lead`, if the text starts with it. -/
def behind? (lead cs : List Char) : Option (List Char) :=
  if lead.isPrefixOf cs then some (cs.drop lead.length) else none

/-- The parts before and behind the last colon. -/
def splitLastColon? (cs : List Char) : Option (List Char × List Char) :=
  let back := cs.reverse
  match back.dropWhile (· ≠ ':') with
  | _ :: front => some (front.reverse, (back.takeWhile (· ≠ ':')).reverse)
  | [] => none

/-- Whether a text is a host and a port. -/
def isHostPort (cs : List Char) : Bool :=
  match splitLastColon? cs with
  | some (host, port) => !host.isEmpty && (Text.unsigned? 10 65536 port).isSome
  | none => false

/-- The address that a text without blanks at its ends names. -/
def ofTrimmed (cs : List Char) : Except AddressError Address :=
  if cs = [] then .error .empty
  else
    match behind? ['t', 'c', 'p', ':'] cs with
    | some rest =>
      if isHostPort rest then .ok (.tcp (String.ofList rest))
      else .error (.notHostPort (String.ofList cs))
    | none =>
      match behind? ['s', 'e', 'r', 'i', 'a', 'l', ':'] cs with
      | some rest => .ok (.serial (String.ofList rest))
      | none =>
        if cs.head? ≠ some '/' ∧ isHostPort cs then .ok (.tcp (String.ofList cs))
        else .ok (.serial (String.ofList cs))

/-- The address that a text names, whatever blanks surround it. -/
def parse (text : String) : Except AddressError Address := ofTrimmed (Text.trim text.toList)

/-- The text of an address without its scheme. -/
def value : Address → String
  | .tcp hostPort => hostPort
  | .serial path => path

/-- An address as it is shown: a socket with its scheme, a device as its path. -/
def display : Address → String
  | .tcp hostPort => "tcp:" ++ hostPort
  | .serial path => path

end Address

end ProbeLink
