/-
# How a session moves

The reading agent reads one byte at a time and acts on what the byte completes
before it reads the next. A reply is counted, handed over or dropped, and
acknowledged; a notification is counted and queued; a request to repeat sends
the last command frame again; anything else is counted as a framing error. The
loop ends when the link ends or a write of its own fails, and then closes the
rendezvous and the link.

A call joins the line to command. At the head of the line it claims the next
reply before it writes its frame, so that no reply can overtake its claim, and
it leaves the line when it ends, however it ends.

Whoever disconnects closes the rendezvous at once and then waits, each time for a
limited time, for the link to be shut down and for the reading agent to end.

Key definitions: `Session.moveReader`, `Session.moveCall`, `Session.readerReady`,
`Session.callReady`.
-/
import ProbeLink.Session.Basic

namespace ProbeLink.Session

variable {L : Type} [Link L]

/-- How long a disconnect waits for each of the two ends it waits for, in
milliseconds. -/
def windDownMs : Nat := 2000

/-! ### The reading agent -/

/-- Ends the loop with a result: the rendezvous is closed and the link is shut
down. -/
def endReader (s : Session L) (result : Except SessionError Unit) : Session L :=
  let s := { s with rendezvous := s.rendezvous.close }
  match Link.beginShutdown s.link .reader with
  | (link, none) => { s with link, reader := .closing result }
  | (link, some _) => { s with link, reader := .ended result }

/-- Ends the loop on a failed operation; a closed link is the clean end. -/
def failReader (s : Session L) (e : LinkError) : Session L :=
  s.endReader (if e.isClosed then .ok () else .error (.link e))

/-- Hands a reply over, or drops it. -/
def handOver (s : Session L) (p : Packet) : Session L :=
  let (rendezvous, taken) := s.rendezvous.offer p
  let s := { s with rendezvous }
  if taken then s else s.count .droppedReplies

/-- Acts on a packet. -/
def route (s : Session L) (p : Packet) : Session L :=
  match p.kind with
  | .reply =>
    let s := (s.count .replies).handOver p
    { s with outlet := s.outlet.enter .reader .ack, reader := .acking }
  | .notification =>
    let s := s.count .notifications
    { s with notifications := (s.notifications.push p).1, reader := .idle }

/-- Acts on a byte. -/
def takeByte (s : Session L) (b : UInt8) : Session L :=
  match s.framer.push b with
  | (framer, none) => { s with framer, reader := .idle }
  | (framer, some (.packet p)) => ({ s with framer }).route p
  | (framer, some .nak) =>
    { s with framer, outlet := s.outlet.enter .reader .again, reader := .resending }
  | (framer, some (.error _)) => { (s.count .framingErrors) with framer, reader := .idle }

/-- What a move of a read leaves. -/
def afterRead (s : Session L) (r : L × Progress UInt8) : Session L :=
  match r with
  | (link, none) => { s with link, reader := .reading }
  | (link, some (.ok b)) => ({ s with link }).takeByte b
  | (link, some (.error e)) => ({ s with link }).failReader e

/-- What a move of an acknowledgement leaves. -/
def afterAck (s : Session L) (r : Outlet × L × Progress Written) : Session L :=
  match r with
  | (outlet, link, none) => { s with outlet, link }
  | (outlet, link, some (.ok _)) =>
    { (s.count .acksSent) with outlet, link, reader := .idle }
  | (outlet, link, some (.error e)) => ({ s with outlet, link }).failReader e

/-- What a move of a repetition leaves. -/
def afterResend (s : Session L) (r : Outlet × L × Progress Written) : Session L :=
  match r with
  | (outlet, link, none) => { s with outlet, link }
  | (outlet, link, some (.ok .sent)) =>
    { (s.count .retransmits) with outlet, link, reader := .idle }
  | (outlet, link, some (.ok .nothing)) => { s with outlet, link, reader := .idle }
  | (outlet, link, some (.error e)) => ({ s with outlet, link }).failReader e

/-- Moves the reading agent on. -/
def moveReader (s : Session L) : Session L :=
  match s.reader with
  | .idle => s.afterRead (Link.beginRead s.link .reader)
  | .reading => s.afterRead (Link.resumeRead s.link .reader)
  | .acking => s.afterAck (s.outlet.move s.link .reader)
  | .resending => s.afterResend (s.outlet.move s.link .reader)
  | .closing result =>
    match Link.resumeShutdown s.link .reader with
    | (link, none) => { s with link }
    | (link, some _) => { s with link, reader := .ended result }
  | .ended _ => s

/-- The reading agent can be moved on. -/
def readerReady (s : Session L) : Bool :=
  match s.reader with
  | .idle => true
  | .reading => Link.ready s.link .reader
  | .acking => s.outlet.ready s.link .reader
  | .resending => s.outlet.ready s.link .reader
  | .closing _ => Link.ready s.link .reader
  | .ended _ => false

/-- The reading agent has ended. -/
def readerEnded (s : Session L) : Bool :=
  match s.reader with
  | .ended _ => true
  | _ => false

/-! ### Calls -/

/-- Ends call `n` with a result. It leaves the line, and the session goes with
its last call if nobody outside holds it. -/
def finish (s : Session L) (n : Nat) (result : Except SessionError Answer) : Session L :=
  (({ s with commandLine := s.commandLine.erase n }).setPhase n (.ended result)).closeIfForgotten

/-- Claims the next reply for call `n` and gets in line to write its frame. -/
def claim (s : Session L) (n : Nat) (command payload : String) : Session L :=
  match s.rendezvous.claim with
  | (rendezvous, none) => ({ s with rendezvous }).finish n (.error .closed)
  | (rendezvous, some ticket) =>
    ({ s with
        rendezvous
        outlet := s.outlet.enter (.call n) (.frame (commandFrame command payload)) }).setPhase n
      (.sending ticket)

/-- What a move of the write of call `n` leaves. -/
def afterSend (s : Session L) (n ticket : Nat) (r : Outlet × L × Progress Written) :
    Session L :=
  match r with
  | (outlet, link, none) => { s with outlet, link }
  | (outlet, link, some (.ok _)) =>
    (({ s with outlet, link }).count .commandsSent).setPhase n
      (.awaiting ticket (s.now + s.settings.replyTimeoutMs))
  | (outlet, link, some (.error e)) =>
    ({ s with
        outlet, link
        rendezvous := (s.rendezvous.withdraw ticket).abandon ticket }).finish n
      (.error (if e.isClosed then .closed else .link e))

/-- Ends the wait of call `n` for its reply. -/
def collect (s : Session L) (n ticket : Nat) (ask : Ask) : Session L :=
  match s.rendezvous.channel ticket with
  | .full p =>
    ({ s with rendezvous := s.rendezvous.abandon ticket }).finish n
      (ask.answer s.settings.verifyReplies p)
  | .hungUp =>
    ({ s with rendezvous := s.rendezvous.abandon ticket }).finish n (.error .closed)
  | _ =>
    ({ (s.count .timeouts) with
        rendezvous := (s.rendezvous.withdraw ticket).abandon ticket }).finish n
      (.error (.timeout s.settings.replyTimeoutMs))

/-- Lets call `n` wait for the reading agent, unless another call does. -/
def join (s : Session L) (n : Nat) : Session L :=
  if s.joinable then ({ s with joinable := false }).setPhase n (.joining (s.now + windDownMs))
  else s.finish n (.ok .disconnected)

/-- Begins the end of the session for call `n`. -/
def windDown (s : Session L) (n : Nat) : Session L :=
  let s := { s with rendezvous := s.rendezvous.close }
  match Link.beginShutdown s.link (.call n) with
  | (link, none) => ({ s with link }).setPhase n (.shutting (s.now + windDownMs))
  | (link, some _) => ({ s with link }).join n

/-- Moves on call `n`, which waits for the link to be shut down. -/
def moveShutdown (s : Session L) (n : Nat) : Session L :=
  if Link.ready s.link (.call n) then
    match Link.resumeShutdown s.link (.call n) with
    | (link, none) => { s with link }
    | (link, some _) => ({ s with link }).join n
  else ({ s with link := Link.close (Link.cancel s.link (.call n)) }).join n

/-- Moves call `n` on. -/
def moveCall (s : Session L) (n : Nat) : Session L :=
  match s.calls[n]? with
  | none => s
  | some c =>
    match c.phase with
    | .issued =>
      match c.ask.body? with
      | some _ => ({ s with commandLine := s.commandLine ++ [n] }).setPhase n .queued
      | none => s.windDown n
    | .queued =>
      match c.ask.body? with
      | some (command, payload) => s.claim n command payload
      | none => s
    | .sending ticket => s.afterSend n ticket (s.outlet.move s.link (.call n))
    | .awaiting ticket _ => s.collect n ticket c.ask
    | .shutting _ => s.moveShutdown n
    | .joining _ => s.finish n (.ok .disconnected)
    | .ended _ => s
    | .aborted => s

/-- Call `n` can be moved on. -/
def callReady (s : Session L) (n : Nat) : Bool :=
  match s.calls[n]? with
  | none => false
  | some c =>
    match c.phase with
    | .issued => true
    | .queued => s.commandLine.head? == some n
    | .sending _ => s.outlet.ready s.link (.call n)
    | .awaiting ticket deadline =>
      s.rendezvous.channel ticket != .opened || decide (deadline ≤ s.now)
    | .shutting deadline => Link.ready s.link (.call n) || decide (deadline ≤ s.now)
    | .joining deadline => s.readerEnded || decide (deadline ≤ s.now)
    | .ended _ => false
    | .aborted => false

/-! ### All agents together -/

/-- The length of the longest frame that may be written. -/
def longestFrame (s : Session L) : Nat :=
  (s.calls.map fun c => match c.ask.body? with
    | some (command, payload) => command.utf8ByteSize + payload.utf8ByteSize + 4
    | none => 0).foldl max (s.outlet.last.getD []).length

instance : Interplay (Session L) where
  agents s := .reader :: (List.range s.calls.length).map .call ++ Link.helpers L
  ready s a :=
    match a with
    | .reader => s.readerReady
    | .call n => s.callReady n
    | a => Link.helperReady s.link a
  move s a :=
    match a with
    | .reader => s.moveReader
    | .call n => s.moveCall n
    | a => { s with link := Link.helperMove s.link a }
  effort s :=
    (Link.pending s.link + s.calls.length + 4) * (s.longestFrame + 4) * 8 * (s.calls.length + 8)

end ProbeLink.Session
