/-
# Framing a byte stream

The framer takes the inbound stream one byte at a time and says what each byte
completes. Outside a frame it waits for a start mark; inside a body it collects
until the end mark; then it takes two checksum characters, whatever they are.
There is no length field, so a frame ends two bytes after its end mark.

A body of more than `max` bytes is given up at its first byte too many, and that
byte with it. Every error leaves the framer outside a frame.

Key definitions: `Framer`, `Framer.push`, `Framer.feed`, `Framer.reset`.
Key theorems: `Framer.feed_append`, `Framer.after_append`.
-/
import ProbeLink.Packet

namespace ProbeLink

/-- What a byte completes. -/
inductive Frame where
  | packet (p : Packet)
  /-- The peer asks for the last packet again. -/
  | nak
  | error (e : WireError)
  deriving DecidableEq, Repr

/-- Where the framer stands in the stream. -/
inductive Framer.Place where
  | idle
  /-- In a body of which `size` bytes are in, the latest first. -/
  | body (kind : PacketKind) (size : Nat) (collected : Bytes)
  /-- Past the end mark; no checksum character is in yet. -/
  | checksum (kind : PacketKind) (payload : Bytes)
  /-- One checksum character is in. -/
  | lastDigit (kind : PacketKind) (payload : Bytes) (first : UInt8)
  deriving DecidableEq, Repr

/-- The state of framing under a bound on payloads. -/
structure Framer where
  max : Nat
  place : Framer.Place := .idle
  deriving DecidableEq, Repr

namespace Framer

/-- The bound on payloads unless another is asked for. -/
def defaultMax : Nat := 65536

/-- Whether no partial frame is held. -/
def isIdle (f : Framer) : Bool := f.place == .idle

/-- Gives up any partial frame. -/
def reset (f : Framer) : Framer := { f with place := .idle }

/-- Starts a body. -/
def start (f : Framer) (kind : PacketKind) : Framer := { f with place := .body kind 0 [] }

/-- Takes one byte: the framer after it and what the byte completes. -/
def push (f : Framer) (b : UInt8) : Framer × Option Frame :=
  match f.place with
  | .idle =>
    if b = ackByte then (f, none)
    else if b = nakByte then (f, some .nak)
    else if b = replyMark then (f.start .reply, none)
    else if b = notificationMark then (f.start .notification, none)
    else (f, some (.error (.strayByte b)))
  | .body kind size collected =>
    if b = endMark then ({ f with place := .checksum kind collected.reverse }, none)
    else if f.max ≤ size then (f.reset, some (.error (.frameTooLong f.max)))
    else ({ f with place := .body kind (size + 1) (b :: collected) }, none)
  | .checksum kind payload => ({ f with place := .lastDigit kind payload b }, none)
  | .lastDigit kind payload first => (f.reset, some (.packet ⟨kind, payload, first, b⟩))

/-- The framer after a chunk. -/
def after (f : Framer) : Bytes → Framer
  | [] => f
  | b :: r => (f.push b).1.after r

/-- Everything a chunk completes, in order. -/
def feed (f : Framer) : Bytes → List Frame
  | [] => []
  | b :: r =>
    match (f.push b).2 with
    | some out => out :: (f.push b).1.feed r
    | none => (f.push b).1.feed r

theorem after_append (f : Framer) (a b : Bytes) : f.after (a ++ b) = (f.after a).after b := by
  induction a generalizing f with
  | nil => rfl
  | cons x r ih => exact ih _

/-- **Chunks do not matter.** A stream completes the same frames however it is
cut. -/
theorem feed_append (f : Framer) (a b : Bytes) :
    f.feed (a ++ b) = f.feed a ++ (f.after a).feed b := by
  induction a generalizing f with
  | nil => rfl
  | cons x r ih =>
    simp only [List.cons_append, feed, after]
    split <;> simp [ih]

end Framer

end ProbeLink
