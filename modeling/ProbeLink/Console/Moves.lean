/-
# How the console moves

Nothing here waits. A command is begun and, if it needs an answer, the console
stays in the phase that waits for it; `Console.proceed` finishes what can be
finished, and `Console.run` goes on to the next typed lines until the console has
to wait or no line is left.

Whoever connects leaves the old session first. A session that ends is always
announced, and so is the end of a run that leaves one.

Key definitions: `Console.launchOn`, `Console.run`, `Console.opened`,
`Console.receive`, `Console.advance`.
-/
import ProbeLink.Console.Basic
import ProbeLink.Settings.File

namespace ProbeLink.Console

variable {L : Type} [Link L]

/-! ### Ends -/

/-- Ends the run with a status. -/
def stop (c : Console L) (status : Nat) : Console L := { c with phase := .ended status }

/-- Begins to end the session, if there is one. -/
def endSession (c : Console L) (sequel : Sequel) : Option (Console L) :=
  c.session.map fun s =>
    { c with session := some (s.issue .disconnect), phase := .ending s.calls.length sequel }

/-- Leaves the session, if there is one, and the run. -/
def leave (c : Console L) : Console L := (c.endSession .leave).getD (c.stop 0)

/-- Reports a trouble: at the prompt in one line, elsewhere as the last words of
the run. -/
def fail (c : Console L) (t : Trouble) : Console L :=
  match c.stage with
  | .prompt => { c.complain (Paint.red.apply c.painted "Error:" ++ " " ++ t.line) with phase := .idle }
  | _ => (c.complain t.report).stop 1

/-- What follows a command that is carried out. -/
def done (c : Console L) : Console L :=
  match c.stage with
  | .prompt => { c with phase := .idle }
  | _ => c.leave

/-! ### Commands -/

/-- Asks for the link to an address to be opened. -/
def openLink (c : Console L) (address : String) : Console L :=
  match Address.parse address with
  | .ok target => { c with phase := .opening address target }
  | .error e => c.fail (.connecting address (.link (.badAddress e)))

/-- Begins to connect: the old session goes first. -/
def connect (c : Console L) (address : String) : Console L :=
  (c.endSession (.connect address)).getD (c.openLink address)

/-- Makes a call on the session. -/
def call (c : Console L) (ask : Ask) (purpose : Purpose) : Console L :=
  match c.usable with
  | .error t => c.fail t
  | .ok s =>
    { c with session := some (s.issue ask), phase := .calling s.calls.length purpose }

/-- Begins to carry out a command. -/
def execute (c : Console L) : Prompt.Request → Console L
  | .connect address => c.connect address
  | .registers symbol => c.call (.reply (.registers symbol)) .reply
  | .memory addr length => c.call (.memory addr length) (.memory addr)
  | .arguments function => c.call (.reply (.arguments function)) .reply
  | .send body => c.call (.packet body "") .packet
  | .stats =>
    match c.usable with
    | .error t => c.fail t
    | .ok s => (c.sayAll (Display.counters s.counters)).done
  | .disconnect =>
    match c.endSession .nothing with
    | some c => c
    | none => (c.say (Paint.dimmed.apply c.painted "Not connected.")).done
  | .help => (c.sayAll (Display.help c.painted)).done
  | .clear => ({ c with prints := .out Display.clearScreen :: c.prints }).done
  | .quit => c.leave

/-- Carries out the command that a text is, if it is one. -/
def obey (c : Console L) (text : String) : Console L :=
  match Prompt.Request.parse text with
  | .error e => c.fail (.notUnderstood e)
  | .ok request => c.execute request

/-- Takes what was typed at the prompt. Blank lines are passed over. -/
def take (c : Console L) : Typed → Console L
  | .theEnd => (c.say "^D").leave
  | .line bytes =>
    match Typed.text? bytes with
    | some text => if Text.trim text.toList = [] then c else c.obey text
    | none =>
      (c.complain ("Error: Io(Error \x7b kind: InvalidData, message: " ++
        "\"stream did not contain valid UTF-8\" \x7d)")).leave

/-! ### Going on -/

/-- Begins with what follows the start: the one command, or the prompt. -/
def enter (c : Console L) : Console L :=
  match c.command with
  | some text => ({ c with stage := .single }).obey text
  | none => { c with stage := .prompt, phase := .idle }

/-- Shows the answer to a call. -/
def present (c : Console L) : Purpose → Answer → Console L
  | .reply, .reply r => c.say (Display.reply c.painted r)
  | .memory addr, .data bytes => c.sayAll (Display.memory c.painted addr bytes)
  | .packet, .packet p => c.say (Display.packet c.painted p)
  | _, _ => c

/-- Prints the notifications that have come. -/
def echo (c : Console L) : Console L :=
  match c.session with
  | none => c
  | some s =>
    let (notifications, queued) := s.notifications.drain
    ({ c with session := some { s with notifications, queueTaken := true } }).sayAll
      ((queued.getD []).map (Display.notification c.painted))

/-- Lets the session come to rest, and prints the notifications that have come. -/
def settle (c : Console L) : Console L := { c with session := c.session.map Interplay.settle }.echo

/-- Finishes the call that is over. -/
def finishCall (c : Console L) : Console L :=
  match c.phase with
  | .calling n purpose =>
    match c.result? n with
    | none => c
    | some (.ok answer) => (c.present purpose answer).done
    | some (.error e) => c.fail (.call e)
  | _ => c

/-- Goes on after a session that has ended. -/
def finishSession (c : Console L) : Console L :=
  match c.phase with
  | .ending n sequel =>
    match c.result? n with
    | none => c
    | some _ =>
      let c := { c with session := none }.say (Paint.yellow.apply c.painted "Disconnected.")
      match sequel with
      | .nothing => c.done
      | .connect address => c.openLink address
      | .leave => c.stop 0
  | _ => c

/-- Goes on as far as possible without another line. -/
def proceed (c : Console L) : Console L := c.settle.finishCall.settle.finishSession

/-- Takes typed lines until the console has to wait. -/
def takeAll (c : Console L) : List Typed → Console L
  | [] => { c with typed := [] }
  | t :: ts =>
    match c.phase with
    | .idle => takeAll (c.take t).proceed ts
    | _ => { c with typed := t :: ts }

/-- Goes on until the console has to wait. -/
def run (c : Console L) : Console L := c.proceed.takeAll c.typed

/-! ### From outside -/

/-- The settings that options make of the settings of a file. -/
def Options.applyTo (o : Options) (s : Settings) : Settings :=
  { s with
    address := o.address <|> s.address
    logLevel := o.logLevel <|> s.logLevel
    session := { s.session with replyTimeoutMs := o.timeoutMs.getD s.session.replyTimeoutMs }
    serial := { s.serial with baudRate := o.baud.getD s.serial.baudRate } }

/-- The settings in the file at a path; without a path, the defaults. -/
def loadSettings (path : Option String) (read : String → Except PathFault String) :
    Except Trouble Settings :=
  match path with
  | none => .ok {}
  | some path =>
    match read path with
    | .error cause => .error (.settingsUnread path cause)
    | .ok text =>
      match Settings.ofText? text with
      | some s => .ok s
      | none => .error (.settingsInvalid path)

/-- The beginning of a run. -/
def start (o : Options) (s : Settings) (painted : Bool) : Console L :=
  let s := o.applyTo s
  let c : Console L := { settings := s.session, painted, command := o.command }
  let c := if o.quiet then c else c.say (Paint.cyan.apply painted Display.banner)
  (match s.address with
    | some address => c.connect address
    | none => c.enter).run

variable (L) in
/-- The beginning of a run on links of a kind, with the arguments and the environment
that it is given. A run whose options or settings cannot be used is over at once. -/
def launchOn (args : List String) (env : String → Option String) (terminal : Bool)
    (read : String → Except PathFault String) : Console L :=
  match Options.parse args env with
  | .error .versionWanted => (({} : Console L).say Display.version).stop 0
  | .error .helpWanted => (({} : Console L).say Display.usage).stop 0
  | .error .misused => (({} : Console L).complain Display.usage).stop 2
  | .ok o =>
    match loadSettings o.config read with
    | .error t => ({} : Console L).fail t
    | .ok s => start o s (Paint.wanted env terminal)

/-- Goes on with the link that was asked for, or without it. -/
def opened (c : Console L) (r : Except LinkError L) : Console L :=
  match c.phase with
  | .opening address _ =>
    match r with
    | .error e => (c.fail (.connecting address (.link e))).run
    | .ok line =>
      let c := { c with session := some (Session.start line c.settings) }.say
        (Paint.green.apply c.painted ("Connected to " ++ address))
      (match c.stage with
        | .starting => c.enter
        | _ => c.done).run
  | _ => c

/-- Takes lines that were typed. -/
def receive (c : Console L) (ts : List Typed) : Console L := { c with typed := c.typed ++ ts }.run

/-- Moves the clock on. -/
def advance (c : Console L) (ms : Nat) : Console L :=
  { c with session := c.session.map fun (s : Session L) => s.advance ms }.run

/-- How long the console waits at most for what it is waiting for. -/
def patience (c : Console L) : Nat :=
  match c.phase with
  | .ending _ _ => Session.windDownMs
  | _ => c.settings.replyTimeoutMs

end ProbeLink.Console
