/-
# A link over a port

Reads go through a buffer and take turns, and so do writes: each kind of
operation stands in line, and the first in line has the half to itself until its
operation is over or given up. Whoever is first leaves what it has written so
far.

Closing raises a flag, wakes all reads, and lets the write half go if nobody is
in line for it, so that the far end sees the end of the stream. Somebody in line
whose turn comes after that lets the half go instead. The write half is let go
at most once.

A read that is woken looks for the flag and for data side by side. Where it finds
both, chance decides which of them counts.

Key definitions: `StreamLink`, `StreamLink.Job`, `StreamLink.Half`,
`StreamLink.close`, `StreamLink.closeOutside`, `StreamLink.draw`,
`StreamLink.resumeRead`.
-/
import ProbeLink.Link
import ProbeLink.Link.Port

namespace ProbeLink

/-- What somebody in line for the write half wants. -/
inductive StreamLink.Job where
  /-- Write what is left; `begun` once the turn has come. -/
  | write (rest : Bytes) (begun : Bool)
  | shutdown
  deriving DecidableEq, Repr

/-- What has become of the write half. -/
inductive StreamLink.Half where
  | held
  /-- Let go, and still to be shut down in the background. -/
  | releasing
  | gone
  deriving DecidableEq, Repr

/-- A link over a port. -/
structure StreamLink (P : Type) where
  port : P
  /-- Bytes read ahead. -/
  buffered : Bytes := []
  isClosed : Bool := false
  half : StreamLink.Half := .held
  /-- Those in line to read. -/
  readers : List Agent := []
  /-- Those in line for the write half. -/
  writers : List (Agent × StreamLink.Job) := []
  /-- For the next read that finds both the flag and data, the flag counts. -/
  flagFirst : Bool := false

namespace StreamLink

variable {P : Type} [Port P]

/-- Takes an agent out of the line for the write half. -/
def leave (l : StreamLink P) (a : Agent) : StreamLink P :=
  { l with writers := l.writers.filter fun w => w.1 ≠ a }

/-- Lets the write half go, to be shut down in the background. -/
def release (l : StreamLink P) : StreamLink P :=
  if l.half = .held then { l with half := .releasing } else l

def beginRead (l : StreamLink P) (a : Agent) : StreamLink P × Progress UInt8 :=
  if l.isClosed then (l, some (.error .closed))
  else ({ l with readers := l.readers ++ [a] }, none)

/-- There is something to read: a byte, a fault, or the end of the stream. -/
def hasData (l : StreamLink P) : Bool := !l.buffered.isEmpty || Port.canRead l.port

/-- Takes out the next byte. -/
def draw (l : StreamLink P) : StreamLink P × Except LinkError UInt8 :=
  match l.buffered with
  | b :: r => ({ l with buffered := r }, .ok b)
  | [] =>
    match Port.read l.port with
    | (p, .ok (b :: r)) => ({ l with port := p, buffered := r }, .ok b)
    | (p, .ok []) => ({ l with port := p }, .error .closed)
    | (p, .error e) => ({ l with port := p }, .error (.io e))

/-- The flag is up, and counts for the read of the first in line. -/
def interrupts (l : StreamLink P) : Bool := l.isClosed && (l.flagFirst || !l.hasData)

/-- Moves the read of the first in line on, which has found the flag or data. -/
def resumeRead (l : StreamLink P) (a : Agent) : StreamLink P × Progress UInt8 :=
  let left : StreamLink P := { l with readers := l.readers.erase a, flagFirst := false }
  if l.interrupts then (left, some (.error .closed))
  else (left.draw.1, some left.draw.2)

def beginWrite (l : StreamLink P) (a : Agent) (bytes : Bytes) : StreamLink P × Progress Unit :=
  if l.isClosed then (l, some (.error .closed))
  else ({ l with writers := l.writers ++ [(a, .write bytes false)] }, none)

/-- Replaces what the first in line still has to write. -/
def keepWriting (l : StreamLink P) (a : Agent) (rest : Bytes) : StreamLink P :=
  { l with writers := (a, .write rest true) :: l.writers.tail }

/-- Moves the write of the first in line on. -/
def resumeWrite (l : StreamLink P) (a : Agent) : StreamLink P × Progress Unit :=
  match l.writers with
  | (_, .write rest false) :: _ =>
    if l.isClosed then ((l.release).leave a, some (.error .closed))
    else if l.half = .held then (l.keepWriting a rest, none)
    else (l.leave a, some (.error .closed))
  | (_, .write [] true) :: _ =>
    match Port.flush l.port with
    | .ok () => (l.leave a, some (.ok ()))
    | .error e => (l.leave a, some (.error (.io e)))
  | (_, .write rest true) :: _ =>
    match Port.write l.port rest with
    | (p, .ok n) => (({ l with port := p }).keepWriting a (rest.drop n), none)
    | (p, .error e) => (({ l with port := p }).leave a, some (.error (.io e)))
  | _ => (l, none)

def beginShutdown (l : StreamLink P) (a : Agent) : StreamLink P × Progress Unit :=
  ({ l with isClosed := true, writers := l.writers ++ [(a, .shutdown)] }, none)

/-- Shuts the write half down, if it is there, when the turn has come. -/
def resumeShutdown (l : StreamLink P) (a : Agent) : StreamLink P × Progress Unit :=
  if l.half = .held then
    match Port.shutdown l.port with
    | (p, .ok ()) => (({ l with port := p, half := .gone }).leave a, some (.ok ()))
    | (p, .error e) => (({ l with port := p, half := .gone }).leave a, some (.error (.io e)))
  else (l.leave a, some (.ok ()))

/-- Closes the link; a write half that nobody is in line for is let go. -/
def close (l : StreamLink P) : StreamLink P :=
  if l.isClosed then l
  else
    let l := { l with isClosed := true }
    if l.writers.isEmpty then l.release else l

/-- Closes the link from where nothing can be done in the background: a write
half that nobody is in line for is dropped without being shut down. -/
def closeOutside (l : StreamLink P) : StreamLink P :=
  if l.isClosed then l
  else
    let l := { l with isClosed := true }
    if l.writers.isEmpty then { l with half := .gone } else l

/-- The first in line to read can be moved on. -/
def canRead (l : StreamLink P) : Bool := l.isClosed || l.hasData

/-- The first in line to read has found both the flag and data, and so far data would count. -/
def wavers (l : StreamLink P) : Bool :=
  l.isClosed && l.hasData && !l.readers.isEmpty && !l.flagFirst

/-- The first in line for the write half can be moved on. -/
def canWork (l : StreamLink P) : Job → Bool
  | .write (_ :: _) true => Port.canWrite l.port
  | _ => true

def ready (l : StreamLink P) (a : Agent) : Bool :=
  (l.readers.head? == some a && l.canRead) ||
    match l.writers with
    | (b, job) :: _ => b == a && l.canWork job
    | [] => false

/-- Gives up whatever the agent is in line for. -/
def cancel (l : StreamLink P) (a : Agent) : StreamLink P :=
  ({ l with readers := l.readers.erase a }).leave a

/-- Shuts down the half that was let go. -/
def finishRelease (l : StreamLink P) : StreamLink P :=
  { l with port := (Port.shutdown l.port).1, half := .gone }

def helperReady (l : StreamLink P) (a : Agent) : Bool :=
  match a with
  | .release => l.half == .releasing
  | .chance => l.wavers
  | a => Port.helperReady l.port a

def helperMove (l : StreamLink P) (a : Agent) : StreamLink P :=
  match a with
  | .release => l.finishRelease
  | .chance => { l with flagFirst := true }
  | a => { l with port := Port.helperMove l.port a }

/-- How many bytes those in line have still to write. -/
def unwritten (l : StreamLink P) : Nat :=
  l.writers.foldl (fun n w => match w.2 with
    | .write rest _ => n + rest.length
    | .shutdown => n) 0

end StreamLink

instance {P : Type} [Port P] : Link (StreamLink P) where
  isClosed := StreamLink.isClosed
  wire l := Port.taken l.port
  delivered l := Port.delivered l.port
  ready := StreamLink.ready
  beginRead := StreamLink.beginRead
  resumeRead := StreamLink.resumeRead
  beginWrite := StreamLink.beginWrite
  resumeWrite := StreamLink.resumeWrite
  beginShutdown := StreamLink.beginShutdown
  resumeShutdown := StreamLink.resumeShutdown
  cancel := StreamLink.cancel
  close := StreamLink.close
  helpers := Port.helpers P ++ [.release, .chance]
  helperReady := StreamLink.helperReady
  helperMove := StreamLink.helperMove
  pending l := l.buffered.length + l.unwritten + Port.pending l.port

end ProbeLink
