/-
# A pipe in memory

A pipe carries bytes in both directions, and each direction holds at most
`capacity` bytes. The far end writes what it is given as fast as there is room
and reads all that comes, unless it is told to stall. Once the far end is gone
the bytes already in the pipe can still be read, then the stream ends, and every
write fails. The far end can also end its own stream and go on reading.

Key definitions: `Pipe`, `Pipe.offer`, `Pipe.hangUp`, `Pipe.endStream`.
-/
import ProbeLink.Link.Port

namespace ProbeLink

/-- A pipe with its far end. -/
structure Pipe where
  capacity : Nat
  /-- Bytes on their way to the near end. -/
  inbound : Bytes := []
  /-- No byte will join `inbound` any more. -/
  inboundEnded : Bool := false
  /-- Bytes on their way to the far end. -/
  outbound : Bytes := []
  /-- The near end has shut its write half down. -/
  outboundEnded : Bool := false
  /-- What the far end has still to write. -/
  offered : Bytes := []
  /-- The far end ends its stream once it has written everything. -/
  ending : Bool := false
  stalled : Bool := false
  /-- The far end is gone. -/
  gone : Bool := false
  /-- What the far end has read, oldest first. -/
  received : Bytes := []
  /-- The far end has read the end of the stream. -/
  sawEnd : Bool := false
  deriving DecidableEq, Repr

namespace Pipe

/-- The most that one read takes out of the pipe. -/
def readAhead : Nat := 8192

/-- Gives the far end something to write. -/
def offer (p : Pipe) (bytes : Bytes) : Pipe :=
  if p.gone || p.ending then p else { p with offered := p.offered ++ bytes }

def stall (p : Pipe) : Pipe := { p with stalled := true }

def resume (p : Pipe) : Pipe := { p with stalled := false }

/-- Drops the far end. -/
def hangUp (p : Pipe) : Pipe :=
  { p with gone := true, inboundEnded := true, offered := [] }

/-- Lets the far end end its stream. -/
def endStream (p : Pipe) : Pipe := { p with ending := true }

def canRead (p : Pipe) : Bool := !p.inbound.isEmpty || p.inboundEnded

def read (p : Pipe) : Pipe × Except IoFault Bytes :=
  ({ p with inbound := p.inbound.drop readAhead }, .ok (p.inbound.take readAhead))

def canWrite (p : Pipe) : Bool := p.gone || p.outbound.length < p.capacity

def write (p : Pipe) (bytes : Bytes) : Pipe × Except IoFault Nat :=
  if p.gone then (p, .error .brokenPipe)
  else
    let taken := bytes.take (p.capacity - p.outbound.length)
    ({ p with outbound := p.outbound ++ taken }, .ok taken.length)

def shutdown (p : Pipe) : Pipe := { p with outboundEnded := true }

/-- The far end can write something, or end its stream. -/
def farCanWrite (p : Pipe) : Bool :=
  !p.gone && !p.inboundEnded &&
    (if p.offered.isEmpty then p.ending else decide (p.inbound.length < p.capacity))

def farWrite (p : Pipe) : Pipe :=
  if p.offered.isEmpty then { p with inboundEnded := true }
  else
    let room := p.capacity - p.inbound.length
    { p with inbound := p.inbound ++ p.offered.take room, offered := p.offered.drop room }

/-- The far end can read something, or the end of the stream. -/
def farCanRead (p : Pipe) : Bool :=
  !p.gone && !p.stalled && (!p.outbound.isEmpty || (p.outboundEnded && !p.sawEnd))

def farRead (p : Pipe) : Pipe :=
  { p with received := p.received ++ p.outbound, outbound := [], sawEnd := p.outboundEnded }

end Pipe

instance : Port Pipe where
  canRead := Pipe.canRead
  read := Pipe.read
  canWrite := Pipe.canWrite
  write := Pipe.write
  flush _ := .ok ()
  shutdown p := (p.shutdown, .ok ())
  taken p := p.received ++ p.outbound
  delivered p := p.received
  helpers := [.farWriter, .farReader]
  helperReady p a :=
    match a with
    | .farWriter => p.farCanWrite
    | .farReader => p.farCanRead
    | _ => false
  helperMove p a :=
    match a with
    | .farWriter => p.farWrite
    | .farReader => p.farRead
    | _ => p
  pending p := p.inbound.length + p.outbound.length + p.offered.length

end ProbeLink
