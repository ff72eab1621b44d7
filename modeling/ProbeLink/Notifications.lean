/-
# The queue of notifications

Notifications go from any number of sinks into one queue, first in, first out.
The queue outlives its sinks: what was pushed before the last sink went away is
still received, and only then does the queue report its end. A push fails once
the queue itself is gone.

Key definitions: `Notifications`, `Notifications.push`, `Notifications.receive`.
-/
import ProbeLink.Packet

namespace ProbeLink

/-- A queue and the sinks that feed it. -/
structure Notifications where
  /-- What is queued, oldest first; nothing once the queue is gone. -/
  queued : Option (List Packet) := some []
  /-- For each sink there ever was, whether it still exists. -/
  sinks : List Bool := [true]
  deriving DecidableEq, Repr

/-- What a receiver meets. -/
inductive Reception where
  | packet (p : Packet)
  /-- Nothing is queued, and more may come. -/
  | waiting
  /-- Nothing is queued, and nothing can come. -/
  | ended
  deriving DecidableEq, Repr

namespace Notifications

/-- Whether sink `i` exists. -/
def hasSink (q : Notifications) (i : Nat) : Bool := q.sinks.getD i false

/-- Appends a packet; whether there was a queue to take it. -/
def push (q : Notifications) (p : Packet) : Notifications × Bool :=
  match q.queued with
  | some ps => ({ q with queued := some (ps ++ [p]) }, true)
  | none => (q, false)

/-- Makes another sink out of sink `i`. It exists if sink `i` does. -/
def clone (q : Notifications) (i : Nat) : Notifications :=
  { q with sinks := q.sinks ++ [q.hasSink i] }

/-- Drops sink `i`. -/
def dropSink (q : Notifications) (i : Nat) : Notifications :=
  { q with sinks := q.sinks.set i false }

/-- Drops the queue and what is in it. -/
def dropQueue (q : Notifications) : Notifications := { q with queued := none }

/-- Takes the oldest packet, or says why there is none; nothing without a queue. -/
def receive (q : Notifications) : Notifications × Option Reception :=
  match q.queued with
  | none => (q, none)
  | some (p :: ps) => ({ q with queued := some ps }, some (.packet p))
  | some [] => (q, some (if q.sinks.any id then .waiting else .ended))

/-- Takes everything that is queued, oldest first. -/
def drain (q : Notifications) : Notifications × Option (List Packet) :=
  ({ q with queued := q.queued.map fun _ => [] }, q.queued)

end Notifications

end ProbeLink
