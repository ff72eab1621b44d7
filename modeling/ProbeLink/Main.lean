/-
# The program

The outer layer of the console. It hands typed lines, bytes from the line and the
time to the console, and prints and sends what the console gives back; what the
console does with them is decided elsewhere. It reaches serial lines that the
system has set up as raw; sockets are out of its reach.
-/
import ProbeLink.Console.Moves
import ProbeLink.Link.Serial

namespace ProbeLink

/-- An open line. -/
structure Wire where
  into : IO.FS.Handle
  /-- How many bytes went out on it. -/
  sent : Nat := 0
  /-- What has come and was not taken in. -/
  arrived : IO.Ref Bytes
  /-- The far end is gone. -/
  lost : IO.Ref Bool

/-- The variables of the environment that the console knows. -/
def knownVariables : List String := [
  "SIDESTUB_ADDRESS", "SIDESTUB_CONFIG", "SIDESTUB_LOG_LEVEL", "SIDESTUB_TIMEOUT_MS",
  "CLICOLOR_FORCE", "CLICOLOR", "NO_COLOR"]

/-- The fault that an error of the system is. -/
def pathFault : IO.Error → PathFault
  | .noFileOrDirectory _ _ _ => .noSuchFile
  | .inappropriateType _ _ _ => .isADirectory
  | _ => .notATerminal

/-- Reads typed lines until there are no more. -/
partial def readTyped (input : IO.FS.Stream) (typed : IO.Ref (List Console.Typed)) (back : Bytes) :
    IO Unit := do
  let chunk ← input.read 1
  match chunk.toList with
  | [] =>
    unless back.isEmpty do typed.modify (· ++ [.line back.reverse])
    typed.modify (· ++ [.theEnd])
  | b :: _ =>
    if b = 0x0A then
      typed.modify (· ++ [.line back.reverse])
      readTyped input typed []
    else readTyped input typed (b :: back)

/-- Reads bytes from an open line until it ends. -/
partial def readLine (source : IO.FS.Handle) (wire : Wire) : IO Unit := do
  let chunk ← try source.read 1 catch _ => pure ByteArray.empty
  match chunk.toList with
  | [] => wire.lost.set true
  | bytes =>
    wire.arrived.modify (· ++ bytes)
    readLine source wire

/-- Opens the serial line at an address. -/
def openWire : Address → IO (Except LinkError Wire)
  | .tcp _ => return .error (.io .networkUnreachable)
  | .serial path => do
    try
      let source ← IO.FS.Handle.mk path .readWrite
      let into ← IO.FS.Handle.mk path .readWrite
      if ← into.isTty then
        let wire : Wire := { into, arrived := ← IO.mkRef [], lost := ← IO.mkRef false }
        discard (IO.asTask (readLine source wire) Task.Priority.dedicated)
        return .ok wire
      else return .error (.serial .notATerminal)
    catch e => return .error (.serial (pathFault e))

/-- Reads a file of settings. -/
def readSettings (path : String) : IO (Except PathFault String) := do
  try
    let bytes ← IO.FS.readBinFile path
    return match String.fromUTF8? bytes with
      | some text => .ok text
      | none => .error .notText
  catch e => return .error (pathFault e)

/-- Prints what the console has to say. -/
def showPrints (c : Console SerialLine) : IO (Console SerialLine) := do
  for p in c.prints.reverse do
    match p with
    | .out text =>
      (← IO.getStdout).putStr text
      (← IO.getStdout).flush
    | .err text => (← IO.getStderr).putStr text
  return { c with prints := [] }

/-- Sends what the session has written since the last time. -/
def sendOut (c : Console SerialLine) (wire : Option Wire) : IO (Option Wire) := do
  match c.session, wire with
  | some s, some w =>
    let bytes := s.link.sent.drop w.sent
    unless bytes.isEmpty do
      try
        w.into.write ⟨bytes.toArray⟩
        w.into.flush
      catch _ => pure ()
    return some { w with sent := s.link.sent.length }
  | _, _ => return none

/-- Hands what has come from the line to the session. -/
def takeIn (c : Console SerialLine) (wire : Option Wire) : IO (Console SerialLine) := do
  match c.session, wire with
  | some s, some w =>
    let bytes ← w.arrived.modifyGet fun b => (b, [])
    let link := s.link.offer bytes
    let link := if ← w.lost.get then link.hangUp else link
    return { c with session := some { s with link } }
  | _, _ => return c

/-- Runs the console until it is over. -/
partial def serve (typed : IO.Ref (List Console.Typed)) (c : Console SerialLine)
    (wire : Option Wire) (time : Nat) : IO UInt32 := do
  let c ← showPrints c
  let wire ← sendOut c wire
  match c.phase with
  | .ended status => return UInt32.ofNat status
  | .opening _ address =>
    match ← openWire address with
    | .ok wire => serve typed (c.opened (.ok {})) (some wire) time
    | .error e => serve typed (c.opened (.error e)) none time
  | _ =>
    IO.sleep 2
    let now ← IO.monoMsNow
    let c ← takeIn c wire
    let lines ← typed.modifyGet fun t => (t, [])
    serve typed ((c.receive lines).advance (now - time)) wire now

end ProbeLink

open ProbeLink in
/-- The program. -/
def main (args : List String) : IO UInt32 := do
  let vars ← knownVariables.filterMapM fun name => do
    return (← IO.getEnv name).map fun value => (name, value)
  let env := fun name => vars.lookup name
  let settings ← match Console.Options.parse args env with
    | .ok { config := some path, .. } => readSettings path
    | _ => pure (.ok "")
  let terminal ← (← IO.getStdout).isTty
  let typed ← IO.mkRef []
  discard (IO.asTask (do readTyped (← IO.getStdin) typed []) Task.Priority.dedicated)
  serve typed (Console.launchOn SerialLine args env terminal fun _ => settings) none (← IO.monoMsNow)
