/-
# Calls on a bare link

Calls to read, write and shut down go on side by side on one link, each an agent
of its own. A call that is given up never answers.

Key definitions: `LinkDesk`, `LinkDesk.issue`, `LinkDesk.abort`, `LinkDesk.results`.
-/
import ProbeLink.Link

namespace ProbeLink

/-- What a call asks of a link. -/
inductive LinkDesk.Ask where
  | read
  | write (bytes : Bytes)
  | shutdown
  deriving DecidableEq, Repr

/-- What a call that went well answers. -/
inductive LinkDesk.Answer where
  | byte (b : UInt8)
  | done
  deriving DecidableEq, Repr

/-- How far a call has come. -/
inductive LinkDesk.Call where
  | issued (ask : LinkDesk.Ask)
  | underWay (ask : LinkDesk.Ask)
  | ended (result : Except LinkError LinkDesk.Answer)
  | aborted

/-- A link and the calls on it, by number. -/
structure LinkDesk (L : Type) where
  link : L
  calls : List LinkDesk.Call := []

namespace LinkDesk

variable {L : Type} [Link L]

/-- Issues a call under the next number. -/
def issue (d : LinkDesk L) (ask : Ask) : LinkDesk L :=
  { d with calls := d.calls ++ [.issued ask] }

/-- Gives call `n` up, unless it is over. -/
def abort (d : LinkDesk L) (n : Nat) : LinkDesk L :=
  match d.calls[n]? with
  | some (.issued _) => { d with calls := d.calls.set n .aborted }
  | some (.underWay _) =>
    { link := Link.cancel d.link (.call n), calls := d.calls.set n .aborted }
  | _ => d

/-- What a move of an operation leaves of its call. -/
def Call.after {α : Type} (ask : Ask) (answer : α → Answer) : Progress α → Call
  | none => .underWay ask
  | some (.ok a) => .ended (.ok (answer a))
  | some (.error e) => .ended (.error e)

/-- Moves call `n` on. -/
def moveCall (d : LinkDesk L) (n : Nat) : LinkDesk L :=
  let a := Agent.call n
  let keep (ask : Ask) (answer : UInt8 → Answer) (r : L × Progress UInt8) : LinkDesk L :=
    { link := r.1, calls := d.calls.set n (.after ask answer r.2) }
  let keepUnit (ask : Ask) (r : L × Progress Unit) : LinkDesk L :=
    { link := r.1, calls := d.calls.set n (.after ask (fun _ => .done) r.2) }
  match d.calls[n]? with
  | some (.issued .read) => keep .read .byte (Link.beginRead d.link a)
  | some (.issued (.write bytes)) => keepUnit (.write bytes) (Link.beginWrite d.link a bytes)
  | some (.issued .shutdown) => keepUnit .shutdown (Link.beginShutdown d.link a)
  | some (.underWay .read) => keep .read .byte (Link.resumeRead d.link a)
  | some (.underWay (.write bytes)) => keepUnit (.write bytes) (Link.resumeWrite d.link a)
  | some (.underWay .shutdown) => keepUnit .shutdown (Link.resumeShutdown d.link a)
  | _ => d

/-- Call `n` can be moved on. -/
def callReady (d : LinkDesk L) (n : Nat) : Bool :=
  match d.calls[n]? with
  | some (.issued _) => true
  | some (.underWay _) => Link.ready d.link (.call n)
  | _ => false

/-- How many bytes the calls ask to write. -/
def asked (d : LinkDesk L) : Nat :=
  d.calls.foldl (fun n c => match c with
    | .issued (.write bytes) => n + bytes.length
    | _ => n) 0

instance : Interplay (LinkDesk L) where
  agents d := (List.range d.calls.length).map .call ++ Link.helpers L
  ready d a :=
    match a with
    | .call n => d.callReady n
    | a => Link.helperReady d.link a
  move d a :=
    match a with
    | .call n => d.moveCall n
    | a => { d with link := Link.helperMove d.link a }
  effort d := (4 * (Link.pending d.link + d.asked) + 8 * d.calls.length + 16) * (d.calls.length + 8)

/-- The calls that are over, by number, with their results. -/
def results (d : LinkDesk L) : List (Nat × Except LinkError Answer) :=
  d.calls.zipIdx.filterMap fun (c, n) =>
    match c with
    | .ended r => some (n, r)
    | _ => none

end LinkDesk

end ProbeLink
