/-
# The state of a session

A session owns a link. One agent reads the link, frames what it reads, hands
replies to whoever waits for one and acknowledges them, and queues
notifications. Calls are agents too: they stand in line for the right to
command, and whoever is first sends its frame and waits for the reply.

Key definitions: `ReaderPhase`, `CallPhase`, `Session`.
-/
import ProbeLink.Counters
import ProbeLink.Rendezvous
import ProbeLink.Outlet
import ProbeLink.Notifications
import ProbeLink.Session.Ask
import ProbeLink.Settings

namespace ProbeLink

/-- What the reading agent is doing. -/
inductive ReaderPhase where
  /-- About to read the next byte. -/
  | idle
  | reading
  /-- Writing the acknowledgement of a reply. -/
  | acking
  /-- Writing the last command again. -/
  | resending
  /-- Shutting the link down, with the result of the whole loop. -/
  | closing (result : Except SessionError Unit)
  | ended (result : Except SessionError Unit)

/-- What a call is doing. -/
inductive CallPhase where
  | issued
  /-- In line for the right to command. -/
  | queued
  /-- Writing its frame, with the ticket for the reply in hand. -/
  | sending (ticket : Nat)
  | awaiting (ticket deadline : Nat)
  /-- Waiting for the link to be shut down. -/
  | shutting (deadline : Nat)
  /-- Waiting for the reading agent to end. -/
  | joining (deadline : Nat)
  | ended (result : Except SessionError Answer)
  | aborted

/-- A call on a session. -/
structure Call where
  ask : Ask
  phase : CallPhase := .issued

/-- A session on a link. -/
structure Session (L : Type) where
  link : L
  settings : SessionSettings := {}
  outlet : Outlet := {}
  rendezvous : Rendezvous := {}
  counters : Counters := {}
  notifications : Notifications := {}
  /-- Somebody outside has taken the queue of notifications. -/
  queueTaken : Bool := false
  framer : Framer
  reader : ReaderPhase := .idle
  /-- Nobody has begun to wait for the reading agent. -/
  joinable : Bool := true
  /-- The calls in line for the right to command. -/
  commandLine : List Nat := []
  /-- All calls, by number. -/
  calls : List Call := []
  /-- Somebody outside can still issue calls. -/
  held : Bool := true
  /-- The time in milliseconds. -/
  now : Nat := 0

namespace CallPhase

/-- The call is neither over nor given up. -/
def isLive : CallPhase → Bool
  | .ended _ => false
  | .aborted => false
  | _ => true

end CallPhase

namespace Session

variable {L : Type} [Link L]

/-- A new session on an open link. -/
def start (link : L) (settings : SessionSettings) : Session L :=
  { link, settings, framer := { max := settings.maxFrameLen } }

/-- Neither side has ended the session. -/
def isConnected (s : Session L) : Bool := !s.rendezvous.closed && !Link.isClosed s.link

def count (s : Session L) (c : Counter) : Session L := { s with counters := s.counters.bump c }

/-- Some call is neither over nor given up. -/
def hasLiveCall (s : Session L) : Bool := s.calls.any fun c => c.phase.isLive

/-- Ends the session once nobody outside holds it and no call is under way. -/
def closeIfForgotten (s : Session L) : Session L :=
  if s.held || s.hasLiveCall then s
  else { s with link := Link.close s.link, rendezvous := s.rendezvous.close }

/-- Puts call `n` into a phase. -/
def setPhase (s : Session L) (n : Nat) (phase : CallPhase) : Session L :=
  { s with calls := s.calls.modify n fun c => { c with phase } }

end Session

end ProbeLink
