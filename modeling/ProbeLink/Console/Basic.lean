/-
# The state of the console

The console carries out one command at a time. While a command waits, for a
reply or for a session to end, typed lines are kept for later. A run starts by
connecting if it was given an address; then it either carries out the one command
that it was given, or takes commands from the prompt until it is told to stop.

In a run for one command, and while a run starts, any trouble ends the run; at
the prompt it is printed and the next line is taken.

A console does not open links. It asks for one, and whoever runs the console
hands it over, of whatever kind.

Key definitions: `Console`, `Console.Phase`, `Console.Stage`.
-/
import ProbeLink.Console.Display
import ProbeLink.Console.Options
import ProbeLink.Console.Trouble
import ProbeLink.Console.Typed
import ProbeLink.Session.Control

namespace ProbeLink

/-- How far a run has come. -/
inductive Console.Stage where
  /-- The connection asked for at the start is being made. -/
  | starting
  /-- The one command is being carried out. -/
  | single
  /-- Commands come from the prompt. -/
  | prompt
  deriving DecidableEq, Repr

/-- How the answer to a call is shown. -/
inductive Console.Purpose where
  | reply
  | memory (addr : UInt64)
  | packet
  deriving DecidableEq, Repr

/-- What follows the end of a session. -/
inductive Console.Sequel where
  /-- The command is carried out. -/
  | nothing
  | connect (address : String)
  /-- The run is over. -/
  | leave
  deriving DecidableEq, Repr

/-- What the console is doing. -/
inductive Console.Phase where
  /-- Waiting for a line. -/
  | idle
  /-- Waiting for a link to be opened. -/
  | opening (address : String) (target : Address)
  /-- Waiting for the answer to a call. -/
  | calling (n : Nat) (purpose : Console.Purpose)
  /-- Waiting for a call to end the session. -/
  | ending (n : Nat) (sequel : Console.Sequel)
  | ended (status : Nat)
  deriving DecidableEq, Repr

/-- Something printed. -/
inductive Console.Print where
  | out (text : String)
  | err (text : String)
  deriving DecidableEq, Repr

/-- The console, on links of a kind. -/
structure Console (L : Type) where
  settings : SessionSettings := {}
  /-- Text is painted. -/
  painted : Bool := false
  /-- The one command to carry out. -/
  command : Option String := none
  stage : Console.Stage := .starting
  phase : Console.Phase := .idle
  session : Option (Session L) := none
  /-- Lines typed and not yet taken, oldest first. -/
  typed : List Console.Typed := []
  /-- Everything printed, latest first. -/
  prints : List Console.Print := []

namespace Console

variable {L : Type}

/-- Prints a line. -/
def say (c : Console L) (line : String) : Console L :=
  { c with prints := .out (line ++ "\n") :: c.prints }

/-- Prints lines. -/
def sayAll (c : Console L) (lines : List String) : Console L := lines.foldl say c

/-- Prints a line of complaint. -/
def complain (c : Console L) (line : String) : Console L :=
  { c with prints := .err (line ++ "\n") :: c.prints }

/-- Everything printed as output, oldest first. -/
def output (c : Console L) : String :=
  String.join (c.prints.reverse.filterMap fun p => match p with
    | .out text => some text
    | .err _ => none)

/-- Everything printed as complaint, oldest first. -/
def complaints (c : Console L) : String :=
  String.join (c.prints.reverse.filterMap fun p => match p with
    | .err text => some text
    | .out _ => none)

/-- The run is over. -/
def isOver (c : Console L) : Bool :=
  match c.phase with
  | .ended _ => true
  | _ => false

/-- The result that the call of the present session with number `n` has had. -/
def result? (c : Console L) (n : Nat) : Option (Except SessionError Answer) :=
  c.session.bind fun s => s.results.lookup n

/-- The session, if it can be used. -/
def usable [Link L] (c : Console L) : Except Trouble (Session L) :=
  match c.session with
  | none => .error .notConnected
  | some s => if s.isConnected then .ok s else .error .connectionLost

end Console

end ProbeLink
