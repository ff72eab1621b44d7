/-
# A console with targets around it

A scene is a console on serial lines, the site it runs at, and a target behind
each of the site's lines. Whoever plays the scene types lines, and in the name of one
target at a time waits for a frame and answers it, hangs up, or sends something
unasked. The first target comes on with the first connection, and each further
connection that is waited for brings on the next one.

Waiting lets time pass only if nothing else can happen: a frame that is awaited
is sent at the latest when the call before it has timed out.

Key definitions: `Console.launch`, `Scene`, `Scene.play`, `Scene.finish`.
-/
import ProbeLink.Console.Moves
import ProbeLink.Link.Serial
import ProbeLink.Site
import ProbeLink.Target

namespace ProbeLink.Console

/-- The beginning of a run on serial lines. -/
def launch (args : List String) (env : String → Option String) (terminal : Bool)
    (read : String → Except PathFault String) : Console SerialLine :=
  launchOn SerialLine args env terminal read

/-- What is done in a scene. -/
inductive Scene.Event where
  | type (bytes : Bytes)
  /-- Waits for a frame and answers it. -/
  | answer (bytes : Bytes)
  /-- Waits for a frame and takes the target's end of the line away. -/
  | hangUp
  /-- Sends something unasked. -/
  | send (bytes : Bytes)
  /-- Waits for a connection and brings on the next target. -/
  | accept
  deriving DecidableEq, Repr

/-- A console, what is around it, and who is on. -/
structure Scene where
  console : Console SerialLine
  site : Site
  /-- The paths of the lines whose targets come on, in order. -/
  cast : List String
  /-- The path of the line that the console is on. -/
  plugged : Option String := none
  /-- How many connections the console has made. -/
  connections : Nat := 0
  /-- How many of them were waited for. -/
  accepted : Nat := 0
  /-- How many bytes of the console's line its target has taken in. -/
  taken : Nat := 0
  target : Target := {}

namespace Scene

/-- Opens the links that the console asks for, at most so many. -/
def connect (s : Scene) : Nat → Scene
  | 0 => s
  | n + 1 =>
    match s.console.phase with
    | .opening _ address =>
      let s :=
        match s.site.openLine address with
        | .ok path =>
          { s with
            console := s.console.opened (.ok {})
            plugged := some path
            connections := s.connections + 1
            taken := 0 }
        | .error e => { s with console := s.console.opened (.error e) }
      s.connect n
    | _ => s

/-- Lets the console go on, and opens the links that it asks for on the way. One
line asks for at most one, and so does the start. -/
def settle (s : Scene) : Scene := s.connect (s.console.typed.length + 2)

/-- A scene in which a console has just been started. -/
def begin (site : Site) (console : Console SerialLine) : Scene :=
  { console, site, cast := site.lines : Scene }.settle

/-- Lets the longest wait of the console pass. -/
def pass (s : Scene) : Scene :=
  { s with console := s.console.advance s.console.patience }.settle

/-- The path of the line whose target is on. -/
def current (s : Scene) : Option String :=
  if s.accepted = 0 then none else s.cast[s.accepted - 1]?

/-- The line that the console is on, if its target is on. -/
def line? (s : Scene) : Option SerialLine :=
  if s.plugged = s.current then s.console.session.map fun (t : Session SerialLine) => t.link
  else none

/-- Does something with the line that the console is on. -/
def withLine (s : Scene) (f : SerialLine → SerialLine) : Scene :=
  if s.plugged = s.current then
    { s with
      console := { s.console with
        session := s.console.session.map fun (t : Session SerialLine) =>
          { t with link := f t.link } }.run }.settle
  else s

/-- Lets the target take in what it was sent up to the end of the next frame;
whether one ended. -/
def hear (s : Scene) : Scene × Bool :=
  match s.line? with
  | none => (s, false)
  | some line =>
    match s.target.nextFrame (line.sent.drop s.taken) with
    | (target, some rest) => ({ s with target, taken := line.sent.length - rest.length }, true)
    | (target, none) => ({ s with target, taken := line.sent.length }, false)

/-- Lets the target take in the next frame, waiting for it if need be at most so
many times; whether one came. -/
def await (s : Scene) : Nat → Scene × Bool
  | 0 => s.hear
  | n + 1 =>
    match s.hear with
    | (s, true) => (s, true)
    | (s, false) => if s.console.isOver then (s, false) else s.pass.await n

/-- How often the console may have to wait before it has dealt with all that was
typed. -/
def waits (s : Scene) : Nat := 2 * s.console.typed.length + 3

/-- Waits for the next connection, at most so many times, and brings its target
on. -/
def accept (s : Scene) : Nat → Scene
  | 0 => { s with accepted := s.accepted + 1 }
  | n + 1 =>
    if s.accepted < s.connections || s.console.isOver then { s with accepted := s.accepted + 1 }
    else s.pass.accept n

/-- Brings the first target on if nobody is. -/
def someoneOn (s : Scene) : Scene := if s.accepted = 0 then s.accept s.waits else s

/-- What the target that is on does about the next frame. -/
def onFrame (s : Scene) (f : SerialLine → SerialLine) : Scene :=
  match s.someoneOn.await s.waits with
  | (s, true) => s.withLine f
  | (s, false) => s

/-- Takes a line out of the site. -/
def withoutLine (s : Scene) (path : Option String) : Scene :=
  { s with site := { s.site with lines := s.site.lines.filter fun p => some p ≠ path } }

/-- One event. -/
def step (s : Scene) : Event → Scene
  | .type bytes => { s with console := s.console.receive [.line bytes] }.settle
  | .answer bytes => s.onFrame fun line => line.offer bytes
  | .hangUp =>
    let s := s.onFrame SerialLine.hangUp
    s.withoutLine s.current
  | .send bytes => s.someoneOn.withLine fun line => line.offer bytes
  | .accept => s.accept s.waits

/-- Lets time pass until the run is over, at most so often. -/
def runOut (s : Scene) : Nat → Scene
  | 0 => s
  | n + 1 => if s.console.isOver then s else s.pass.runOut n

/-- Ends the typing and lets the run come to its end. -/
def finish (s : Scene) : Scene :=
  let s := { s with console := s.console.receive [.theEnd] }.settle
  s.runOut s.waits

/-- A scene from beginning to end. -/
def play (site : Site) (console : Console SerialLine) (events : List Event) : Scene :=
  (events.foldl step (begin site console)).finish

end Scene

end ProbeLink.Console
