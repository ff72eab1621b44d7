/-
# Errors of a session

Why a call on a session failed. An error code from the target and a reply of the
wrong shape are errors of the call, not of the session.

Key definitions: `SessionError`, `SessionError.message`, `SessionError.trail`.
-/
import ProbeLink.Duration
import ProbeLink.Link.Error
import ProbeLink.Reply

namespace ProbeLink

/-- Why a call failed. -/
inductive SessionError where
  | link (cause : LinkError)
  | wire (cause : WireError)
  /-- No reply came within `ms` milliseconds. -/
  | timeout (ms : Nat)
  | closed
  /-- The target answered with an error code. -/
  | remote (code : UInt8)
  /-- The target answered, but not with what was asked for. -/
  | unexpected (reply : Reply)
  deriving DecidableEq, Repr

namespace SessionError

/-- The wording of an error. -/
def message : SessionError → String
  | .link cause => "Transport error: " ++ cause.message
  | .wire cause => "Protocol error: " ++ cause.message
  | .timeout ms => "No reply within " ++ Duration.text ms
  | .closed => "Session closed"
  | .remote code => "Target returned error code 0x" ++ Hex.asText (Hex.digitPair code)
  | .unexpected reply => "Unexpected reply: " ++ reply.shown

/-- The wordings of an error and of what caused it, from the outside in. -/
def trail : SessionError → List String
  | .link cause => message (.link cause) :: cause.trail
  | .wire cause => [message (.wire cause), cause.message]
  | e => [e.message]

end SessionError

end ProbeLink
