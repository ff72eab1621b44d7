/-
# The one way onto the link

Commands, acknowledgements and repetitions are written whole, one after the
other: whoever wants to write stands in line, and the first in line has the link
to itself until its write is over or given up. The last command frame is kept,
from the moment its turn comes, so that it can be sent again.

Key definitions: `Outgoing`, `Outlet`, `Outlet.enter`, `Outlet.move`,
`Outlet.leave`.
-/
import ProbeLink.Link
import ProbeLink.Packet

namespace ProbeLink

/-- Something to write. -/
inductive Outgoing where
  | frame (bytes : Bytes)
  | ack
  /-- The last command frame once more, if there was one. -/
  | again
  deriving DecidableEq, Repr

/-- What came of it. -/
inductive Written where
  | sent
  /-- There was no frame to send again. -/
  | nothing
  deriving DecidableEq, Repr

/-- Somebody in line, and whether its turn has come. -/
structure Outlet.Entry where
  agent : Agent
  outgoing : Outgoing
  begun : Bool := false
  deriving DecidableEq, Repr

/-- The line before the link, and the last command frame. -/
structure Outlet where
  line : List Outlet.Entry := []
  last : Option Bytes := none
  deriving DecidableEq, Repr

namespace Outlet

variable {L : Type} [Link L]

/-- Joins the line. -/
def enter (w : Outlet) (a : Agent) (o : Outgoing) : Outlet :=
  { w with line := w.line ++ [⟨a, o, false⟩] }

/-- Takes an agent out of the line. -/
def without (w : Outlet) (a : Agent) : Outlet :=
  { w with line := w.line.filter fun e => e.agent ≠ a }

/-- The agent is first in line, and nothing below keeps it waiting. -/
def ready (w : Outlet) (l : L) (a : Agent) : Bool :=
  match w.line with
  | e :: _ => e.agent == a && (!e.begun || Link.ready l a)
  | [] => false

/-- What a move of the write below leaves: the agent leaves the line when the
write is over. -/
def after (w : Outlet) (a : Agent) (r : L × Progress Unit) :
    Outlet × L × Progress Written :=
  match r with
  | (l, none) => (w, l, none)
  | (l, some (.ok ())) => (w.without a, l, some (.ok .sent))
  | (l, some (.error e)) => (w.without a, l, some (.error e))

/-- Marks that the turn of the first in line has come. -/
def begin (w : Outlet) : Outlet :=
  match w.line with
  | e :: r => { w with line := { e with begun := true } :: r }
  | [] => w

/-- Moves the write of the first in line on. -/
def move (w : Outlet) (l : L) (a : Agent) : Outlet × L × Progress Written :=
  match w.line with
  | ⟨_, _, true⟩ :: _ => w.after a (Link.resumeWrite l a)
  | ⟨_, .frame bytes, false⟩ :: _ =>
    ({ w.begin with last := some bytes }).after a (Link.beginWrite l a bytes)
  | ⟨_, .ack, false⟩ :: _ => w.begin.after a (Link.beginWrite l a [ackByte])
  | ⟨_, .again, false⟩ :: _ =>
    match w.last with
    | some bytes => w.begin.after a (Link.beginWrite l a bytes)
    | none => (w.without a, l, some (.ok .nothing))
  | [] => (w, l, none)

/-- Gives up the agent's place in line, and its write if it has begun. -/
def leave (w : Outlet) (l : L) (a : Agent) : Outlet × L :=
  (w.without a, if w.line.any fun e => e.agent == a && e.begun then Link.cancel l a else l)

end Outlet

end ProbeLink
