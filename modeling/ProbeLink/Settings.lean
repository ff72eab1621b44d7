/-
# Settings

What can be set for a session, for a serial line, and for the program as a whole.

Key definitions: `SessionSettings`, `SerialSettings`, `Settings`.
-/
import ProbeLink.Framer

namespace ProbeLink

/-- Settings of a session. -/
structure SessionSettings where
  /-- How long a command waits for its reply, in milliseconds. -/
  replyTimeoutMs : Nat := 3000
  /-- The largest payload that is framed. -/
  maxFrameLen : Nat := Framer.defaultMax
  /-- Refuse replies with a wrong checksum where a reply is decoded. -/
  verifyReplies : Bool := true
  deriving DecidableEq, Repr

/-- Settings of a serial line. -/
structure SerialSettings where
  baudRate : Nat := 115200
  /-- How often the line is checked for having been closed, in milliseconds. -/
  pollIntervalMs : Nat := 50
  deriving DecidableEq, Repr

/-- Settings of the program. -/
structure Settings where
  address : Option String := none
  logLevel : Option String := none
  session : SessionSettings := {}
  serial : SerialSettings := {}
  deriving DecidableEq, Repr

/-- The largest number of 64 bits. -/
def maxWord : Nat := 18446744073709551615

/-- Sets the reply timeout to a span of seconds and nanoseconds, in whole
milliseconds. A span too long for 64 bits becomes the longest one. -/
def SessionSettings.withReplyTimeout (s : SessionSettings) (secs nanos : Nat) :
    SessionSettings :=
  { s with replyTimeoutMs := min maxWord (secs * 1000 + nanos / 1000000) }

end ProbeLink
