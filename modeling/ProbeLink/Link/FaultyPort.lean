/-
# A port that fails on demand

The read half of a faulty port gives some bytes and then ends or fails. Its write
half takes a given number of bytes and then fails. Flushing and shutting down
fail if they are told to. Shutting down leaves a mark on the wire.

Key definition: `FaultyPort`.
-/
import ProbeLink.Link.Port

namespace ProbeLink

/-- A port with its faults. -/
structure FaultyPort where
  /-- What can still be read. -/
  data : Bytes
  /-- Reading fails behind the data instead of ending. -/
  readFails : Bool := false
  /-- How many bytes the write half still takes. -/
  room : Nat := 1073741824
  flushFails : Bool := false
  shutdownFails : Bool := false
  /-- What is on the wire, oldest first. -/
  wire : Bytes := []
  deriving DecidableEq, Repr

namespace FaultyPort

/-- What a shutdown leaves on the wire. -/
def shutdownMark : Bytes := textBytes "<shutdown>"

def read (p : FaultyPort) : FaultyPort × Except IoFault Bytes :=
  if p.data.isEmpty && p.readFails then (p, .error .read)
  else ({ p with data := p.data.drop 8192 }, .ok (p.data.take 8192))

def write (p : FaultyPort) (bytes : Bytes) : FaultyPort × Except IoFault Nat :=
  if p.room = 0 then (p, .error .write)
  else
    let taken := bytes.take p.room
    ({ p with room := p.room - taken.length, wire := p.wire ++ taken }, .ok taken.length)

def shutdown (p : FaultyPort) : FaultyPort × Except IoFault Unit :=
  ({ p with wire := p.wire ++ shutdownMark },
    if p.shutdownFails then .error .shutdown else .ok ())

end FaultyPort

instance : Port FaultyPort where
  canRead _ := true
  read := FaultyPort.read
  canWrite _ := true
  write := FaultyPort.write
  flush p := if p.flushFails then .error .flush else .ok ()
  shutdown := FaultyPort.shutdown
  taken p := p.wire
  delivered p := p.wire
  helpers := []
  helperReady _ _ := false
  helperMove p _ := p
  pending _ := 0

end ProbeLink
