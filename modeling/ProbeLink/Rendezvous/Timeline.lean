/-
# Waiting for replies on a clock

A timeline is a rendezvous with a clock and those who wait on it. Whoever holds a
ticket may wait for its reply with a time limit, let the ticket go, or give up
waiting. The clock moves only when told to, and everything due by the new time
is then settled.

A wait ends with the packet handed to its ticket, with `closed` when the ticket
is hung up, or with a timeout when its deadline is reached; the first of these
that applies counts. A wait that times out empties the slot if the slot is still
its own.

Key definitions: `Timeline`, `Timeline.Event`, `Timeline.step`, `Timeline.run`.
-/
import ProbeLink.Rendezvous
import ProbeLink.Session.Error

namespace ProbeLink

/-- What became of a wait. -/
inductive Timeline.Wait where
  | running (ticket timeout deadline : Nat)
  | ended (result : Except SessionError Packet)
  /-- Whoever waited gave up. -/
  | dropped

/-- A rendezvous, a clock, the tickets nobody has used yet, and all waits by
number. -/
structure Timeline where
  rendezvous : Rendezvous := {}
  now : Nat := 0
  unused : List Nat := []
  waits : List Timeline.Wait := []

namespace Timeline

/-- Something done to a timeline. -/
inductive Event where
  | claim
  | offer (p : Packet)
  | await (ticket timeout : Nat)
  | forget (ticket : Nat)
  | withdraw (id : Nat)
  | close
  | advance (ms : Nat)
  | abort (wait : Nat)
  deriving DecidableEq, Repr

/-- What an event answers at once. -/
inductive Answer where
  | nothing
  | ticket (id : Nat)
  | refused
  | taken (yes : Bool)
  /-- There is no such ticket to wait with. -/
  | noTicket
  deriving DecidableEq, Repr

/-- Ends one wait if it can end, and keeps the rendezvous up to date. -/
def settleWait (now : Nat) (m : Rendezvous) : Wait → Rendezvous × Wait
  | .running ticket timeout deadline =>
    match m.channel ticket with
    | .full p => (m.abandon ticket, .ended (.ok p))
    | .hungUp => (m.abandon ticket, .ended (.error .closed))
    | _ =>
      if deadline ≤ now then ((m.withdraw ticket).abandon ticket, .ended (.error (.timeout timeout)))
      else (m, .running ticket timeout deadline)
  | w => (m, w)

/-- Ends every wait that can end, in the order in which they began. -/
def settleWaits (now : Nat) : Rendezvous → List Wait → Rendezvous × List Wait
  | m, [] => (m, [])
  | m, w :: ws =>
    let (m, w) := settleWait now m w
    let (m, ws) := settleWaits now m ws
    (m, w :: ws)

/-- Ends every wait that can end. -/
def settle (t : Timeline) : Timeline :=
  let (m, ws) := settleWaits t.now t.rendezvous t.waits
  { t with rendezvous := m, waits := ws }

/-- Does one thing, before anything is settled. -/
def act (t : Timeline) : Event → Timeline × Answer
  | .claim =>
    match t.rendezvous.claim with
    | (m, some id) => ({ t with rendezvous := m, unused := t.unused ++ [id] }, .ticket id)
    | (m, none) => ({ t with rendezvous := m }, .refused)
  | .offer p =>
    let (m, yes) := t.rendezvous.offer p
    ({ t with rendezvous := m }, .taken yes)
  | .await ticket timeout =>
    if ticket ∈ t.unused then
      ({ t with
          unused := t.unused.erase ticket
          waits := t.waits ++ [.running ticket timeout (t.now + timeout)] }, .nothing)
    else (t, .noTicket)
  | .forget ticket =>
    if ticket ∈ t.unused then
      ({ t with unused := t.unused.erase ticket, rendezvous := t.rendezvous.abandon ticket },
        .nothing)
    else (t, .nothing)
  | .withdraw id => ({ t with rendezvous := t.rendezvous.withdraw id }, .nothing)
  | .close => ({ t with rendezvous := t.rendezvous.close }, .nothing)
  | .advance ms => ({ t with now := t.now + ms }, .nothing)
  | .abort n =>
    match t.waits[n]? with
    | some (.running ticket _ _) =>
      ({ t with waits := t.waits.set n .dropped, rendezvous := t.rendezvous.abandon ticket },
        .nothing)
    | _ => (t, .nothing)

/-- Does one thing and settles what it brings to an end. -/
def step (t : Timeline) (e : Event) : Timeline × Answer :=
  let (t, a) := t.act e
  (t.settle, a)

/-- The timeline after a history of events. -/
def run (t : Timeline) (es : List Event) : Timeline := es.foldl (fun t e => (t.step e).1) t

/-- The waits that are over, by number, with their results. -/
def results (t : Timeline) : List (Nat × Except SessionError Packet) :=
  t.waits.zipIdx.filterMap fun (w, n) =>
    match w with
    | .ended r => some (n, r)
    | _ => none

end Timeline

end ProbeLink
