/-
# Serial lines

A serial line carries bytes both ways as they are. When the target's end goes
away, what it had sent can still be read; the next read then fails with a fault,
and every later one finds the line closed. Writes to a target that has gone fail
each time.

A write blocks, so it is handed over to a porter, and whoever wrote waits for what
comes of it. The porter does one write at a time, and the whole of it. It knows
nothing of those who wait: a write that is given up is done all the same, and
nobody learns of it. A write that the porter comes to after the line was closed is
refused.

Nothing says in which order the porter takes what was handed over, nor whether a
read that is woken looks for data or for the closing first. Both are left to
chance.

Key definitions: `SerialLine`, `SerialLine.Job`, `SerialLine.read`,
`SerialLine.write`, `SerialLine.carry`.
-/
import ProbeLink.Link

namespace ProbeLink

/-- A write that was handed over. -/
structure SerialLine.Job where
  agent : Agent
  bytes : Bytes
  /-- The agent waits for what comes of it. -/
  awaited : Bool := true
  deriving DecidableEq, Repr

/-- A line with a target at its far end. -/
structure SerialLine where
  /-- What the target sent and nobody has read, oldest first. -/
  inbox : Bytes := []
  /-- What the target was sent, oldest first. -/
  sent : Bytes := []
  isClosed : Bool := false
  /-- The target's end is gone. -/
  hungUp : Bool := false
  /-- A read has failed because the target's end is gone. -/
  lossSeen : Bool := false
  /-- Those who wait for something to read. -/
  readers : List Agent := []
  /-- The writes that were handed over and are still to be done. -/
  jobs : List SerialLine.Job := []
  /-- What came of the writes of those who still wait. -/
  outcomes : List (Agent × Except LinkError Unit) := []
  /-- Which comes next where more than one thing could. -/
  luck : Nat := 0

namespace SerialLine

/-- Queues what the target sends. -/
def offer (l : SerialLine) (bytes : Bytes) : SerialLine := { l with inbox := l.inbox ++ bytes }

/-- Takes the target's end away. -/
def hangUp (l : SerialLine) : SerialLine := { l with hungUp := true }

/-- Closes the line. -/
def close (l : SerialLine) : SerialLine := { l with isClosed := true }

/-! ### Reading -/

/-- There is something to read: a byte, a fault, or the end. -/
def hasData (l : SerialLine) : Bool := l.hungUp || !l.inbox.isEmpty

/-- A read would not have to wait. -/
def canRead (l : SerialLine) : Bool := l.isClosed || l.hasData

/-- Takes out the next byte, if there is one or there can be none. -/
def draw (l : SerialLine) : SerialLine × Progress UInt8 :=
  match l.inbox with
  | b :: r => ({ l with inbox := r }, some (.ok b))
  | [] =>
    if !l.hungUp then (l, none)
    else if l.lossSeen then (l, some (.error .closed))
    else ({ l with lossSeen := true }, some (.error (.io .lineHungUp)))

/-- Reads one byte. -/
def read (l : SerialLine) : SerialLine × Progress UInt8 :=
  if l.isClosed then (l, some (.error .closed)) else l.draw

def beginRead (l : SerialLine) (a : Agent) : SerialLine × Progress UInt8 :=
  match l.read with
  | (l, some r) => (l, some r)
  | (l, none) => ({ l with readers := l.readers ++ [a] }, none)

/-- The line is closed, and that counts for the read of the first in line. -/
def interrupts (l : SerialLine) : Bool := l.isClosed && (l.luck != 0 || !l.hasData)

/-- Moves a read on that has found data, or the line closed. -/
def resumeRead (l : SerialLine) (a : Agent) : SerialLine × Progress UInt8 :=
  let left := { l with readers := l.readers.erase a, luck := 0 }
  if l.interrupts then (left, some (.error .closed))
  else
    match left.draw with
    | (l, some r) => (l, some r)
    | (_, none) => (l, none)

/-! ### Writing -/

/-- Writes all of a byte string. Where the target's end is gone the line refuses
the first byte, and if there is none, to be drained. -/
def write (l : SerialLine) (bytes : Bytes) : SerialLine × Except LinkError Unit :=
  if l.isClosed then (l, .error .closed)
  else if l.hungUp then
    (l, .error (.io (if bytes = [] then .lineNotDrained else .lineHungUp)))
  else ({ l with sent := l.sent ++ bytes }, .ok ())

/-- Hands a write over. -/
def beginWrite (l : SerialLine) (a : Agent) (bytes : Bytes) : SerialLine × Progress Unit :=
  if l.isClosed then (l, some (.error .closed))
  else ({ l with jobs := l.jobs ++ [{ agent := a, bytes }] }, none)

/-- What came of the agent's write. -/
def outcome? (l : SerialLine) (a : Agent) : Progress Unit := l.outcomes.lookup a

/-- Nobody waits for what came of the agent's write. -/
def forget (l : SerialLine) (a : Agent) : SerialLine :=
  { l with outcomes := l.outcomes.filter fun o => o.1 ≠ a }

/-- Moves a write on: it is over once its outcome is there. -/
def resumeWrite (l : SerialLine) (a : Agent) : SerialLine × Progress Unit :=
  match l.outcome? a with
  | some r => (l.forget a, some r)
  | none => (l, none)

/-- The write that the porter comes to next. -/
def nextJob (l : SerialLine) : Nat := if l.luck < l.jobs.length then l.luck else 0

/-- Does one of the writes that were handed over. -/
def carry (l : SerialLine) : SerialLine :=
  match l.jobs[l.nextJob]? with
  | none => l
  | some job =>
    let (l, r) := ({ l with jobs := l.jobs.eraseIdx l.nextJob, luck := 0 }).write job.bytes
    if job.awaited then { l with outcomes := l.outcomes ++ [(job.agent, r)] } else l

/-- Gives up whatever the agent waits for. Its write is done all the same. -/
def cancel (l : SerialLine) (a : Agent) : SerialLine :=
  { l.forget a with
    readers := l.readers.erase a
    jobs := l.jobs.map fun job => { job with awaited := job.awaited && job.agent ≠ a } }

/-! ### Chance -/

/-- How many things could come next. -/
def choices (l : SerialLine) : Nat :=
  max l.jobs.length (if l.isClosed && l.hasData && !l.readers.isEmpty then 2 else 1)

def helperReady (l : SerialLine) : Agent → Bool
  | .porter => !l.jobs.isEmpty
  | .chance => l.luck + 1 < l.choices
  | _ => false

def helperMove (l : SerialLine) : Agent → SerialLine
  | .porter => l.carry
  | .chance => { l with luck := l.luck + 1 }
  | _ => l

/-- How many bytes the porter has still to write. -/
def unwritten (l : SerialLine) : Nat := l.jobs.foldl (fun n job => n + job.bytes.length) 0

end SerialLine

instance : Link SerialLine where
  isClosed := SerialLine.isClosed
  wire := SerialLine.sent
  delivered := SerialLine.sent
  ready l a := (l.readers.head? == some a && l.canRead) || (l.outcome? a).isSome
  beginRead := SerialLine.beginRead
  resumeRead := SerialLine.resumeRead
  beginWrite := SerialLine.beginWrite
  resumeWrite := SerialLine.resumeWrite
  beginShutdown l _ := (l.close, some (.ok ()))
  resumeShutdown l _ := (l, none)
  cancel := SerialLine.cancel
  close := SerialLine.close
  helpers := [.porter, .chance]
  helperReady := SerialLine.helperReady
  helperMove := SerialLine.helperMove
  pending l := l.inbox.length + l.unwritten

end ProbeLink
