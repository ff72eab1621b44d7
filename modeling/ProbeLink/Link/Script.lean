/-
# A scripted link

The far end of a scripted link is a list of what will be read. A write is put on
the wire as a whole or fails and leaves nothing there, as the script says for
each attempt. Everything that happens on the link is recorded.

Key definitions: `ScriptLink`, `ScriptLink.Event`, `ScriptLink.offer`.
-/
import ProbeLink.Link

namespace ProbeLink

/-- What a read meets. -/
inductive ScriptLink.Item where
  | byte (b : UInt8)
  | fault (e : LinkError)
  deriving DecidableEq, Repr

/-- What happened on a link. -/
inductive ScriptLink.Event where
  | read (b : UInt8)
  | wrote (bytes : Bytes)
  | readFailed (e : LinkError)
  | writeFailed (e : LinkError)
  /-- A write was attempted on a closed link. -/
  | lateWrite
  | closed
  deriving DecidableEq, Repr

/-- A link to a list of things to read. -/
structure ScriptLink where
  inbox : List ScriptLink.Item := []
  isClosed : Bool := false
  /-- How many writes were attempted while the link was open. -/
  attempts : Nat := 0
  /-- How the attempt of a number fails, if it does. -/
  writeFault : Nat → Option LinkError := fun _ => none
  shutdownFault : Option LinkError := none
  /-- What happened, latest first. -/
  record : List ScriptLink.Event := []
  /-- Those who wait for something to read. -/
  readers : List Agent := []

namespace ScriptLink

/-- Fails `count` attempts from number `start` on. -/
def faultsFrom (start count : Nat) (e : LinkError) (n : Nat) : Option LinkError :=
  if start ≤ n ∧ n < start + count then some e else none

/-- What happened, oldest first. -/
def history (l : ScriptLink) : List Event := l.record.reverse

/-- What the target was sent, oldest first. -/
def wire (l : ScriptLink) : Bytes :=
  l.record.foldl (fun out e => match e with
    | .wrote bytes => bytes ++ out
    | _ => out) []

/-- Queues what the target sends. -/
def offer (l : ScriptLink) (items : List Item) : ScriptLink :=
  { l with inbox := l.inbox ++ items }

/-- Queues bytes from the target. -/
def offerBytes (l : ScriptLink) (bytes : Bytes) : ScriptLink := l.offer (bytes.map .byte)

def note (l : ScriptLink) (e : Event) : ScriptLink := { l with record := e :: l.record }

/-- Closes the link. What was not read is lost. -/
def close (l : ScriptLink) : ScriptLink :=
  if l.isClosed then l else ({ l with isClosed := true }).note .closed

/-- Reads one thing, if there is one or there can be none. -/
def read (l : ScriptLink) : ScriptLink × Progress UInt8 :=
  if l.isClosed then (l.note (.readFailed .closed), some (.error .closed))
  else
    match l.inbox with
    | .byte b :: r => (({ l with inbox := r }).note (.read b), some (.ok b))
    | .fault e :: r => (({ l with inbox := r }).note (.readFailed e), some (.error e))
    | [] => (l, none)

def write (l : ScriptLink) (bytes : Bytes) : ScriptLink × Except LinkError Unit :=
  if l.isClosed then (l.note .lateWrite, .error .closed)
  else
    let n := l.attempts
    let l := { l with attempts := n + 1 }
    match l.writeFault n with
    | some e => (l.note (.writeFailed e), .error e)
    | none => (l.note (.wrote bytes), .ok ())

def shutdown (l : ScriptLink) : ScriptLink × Except LinkError Unit :=
  match l.shutdownFault with
  | some e => (l.close, .error e)
  | none => (l.close, .ok ())

def beginRead (l : ScriptLink) (a : Agent) : ScriptLink × Progress UInt8 :=
  match l.read with
  | (l, some r) => (l, some r)
  | (l, none) => ({ l with readers := l.readers ++ [a] }, none)

def resumeRead (l : ScriptLink) (a : Agent) : ScriptLink × Progress UInt8 :=
  match l.read with
  | (l, some r) => ({ l with readers := l.readers.erase a }, some r)
  | (l, none) => (l, none)

end ScriptLink

instance : Link ScriptLink where
  isClosed := ScriptLink.isClosed
  wire := ScriptLink.wire
  delivered := ScriptLink.wire
  ready l a := l.readers.head? == some a && (l.isClosed || !l.inbox.isEmpty)
  beginRead := ScriptLink.beginRead
  resumeRead := ScriptLink.resumeRead
  beginWrite l _ bytes := let (l, r) := l.write bytes; (l, some r)
  resumeWrite l _ := (l, none)
  beginShutdown l _ := let (l, r) := l.shutdown; (l, some r)
  resumeShutdown l _ := (l, none)
  cancel l a := { l with readers := l.readers.erase a }
  close := ScriptLink.close
  helpers := []
  helperReady _ _ := false
  helperMove l _ := l
  pending l := l.inbox.length

end ProbeLink
