/-
# What goes wrong at the console

A trouble is worded as a trail: what happened, what caused it, what caused that.
At the prompt a trail is one line with colons between its parts. When the
program gives up, the causes stand below each other, numbered if there is more
than one, and a cause of several lines is indented as a whole.

Key definitions: `Trouble`, `Trouble.trail`, `Trouble.line`, `Trouble.report`.
-/
import ProbeLink.Prompt.Request
import ProbeLink.Session.Error

namespace ProbeLink.Console

/-- Why the console cannot do what it was told. -/
inductive Trouble where
  /-- A line that is no command. -/
  | notUnderstood (cause : Prompt.Error)
  /-- A call that failed. -/
  | call (cause : SessionError)
  | connecting (address : String) (cause : SessionError)
  | notConnected
  | connectionLost
  /-- A file of settings that cannot be read. -/
  | settingsUnread (path : String) (cause : PathFault)
  /-- A file of settings that makes no sense. -/
  | settingsInvalid (path : String)
  deriving DecidableEq, Repr

namespace Trouble

/-- The wordings of a trouble and of what caused it, from the outside in. -/
def trail : Trouble → List String
  | .notUnderstood cause => [cause.message]
  | .call cause => cause.trail
  | .connecting address cause => ("Failed to connect to " ++ address) :: cause.trail
  | .notConnected => ["Not connected. Use 'target remote <address>' first"]
  | .connectionLost => ["Connection lost. Use 'target remote <address>' to reconnect"]
  | .settingsUnread path cause =>
    ["Failed to read config " ++ path, cause.numbered]
  | .settingsInvalid path => ["Invalid config " ++ path]

/-- A trouble on one line. -/
def line (t : Trouble) : String := ": ".intercalate t.trail

/-- A text with `margin` at the start of every line but the first. -/
def indent (margin text : String) : String :=
  String.ofList (text.toList.flatMap fun c => if c = '\n' then '\n' :: margin.toList else [c])

/-- A number flush right in five columns. -/
def column (n : Nat) : String :=
  String.ofList (List.replicate (5 - (toString n).length) ' ') ++ toString n

/-- The causes of a trouble below each other. -/
def causes : List String → String
  | [] => ""
  | [cause] => "\n\nCaused by:\n    " ++ indent "    " cause
  | cs =>
    "\n\nCaused by:" ++ String.join (cs.zipIdx.map fun (c, n) =>
      "\n" ++ column n ++ ": " ++ indent "       " c)

/-- A trouble as the last words of the program. -/
def report (t : Trouble) : String :=
  match t.trail with
  | what :: why => "Error: " ++ what ++ causes why
  | [] => "Error: "

end Trouble

end ProbeLink.Console
