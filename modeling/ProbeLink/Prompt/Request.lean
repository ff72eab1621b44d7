/-
# What a line asks for

A line names a command by its first word, in any ASCII case and with underscores
or hyphens alike, and gives its arguments after it. The first thing from the
left that is wrong decides the error, and a surplus word comes last.

Of the letters outside ASCII only two have a lowercase form with an ASCII letter
in it, the Kelvin sign (`k`) and the capital I with a dot, and no command word
holds a `k` or a dot above: folding the case of ASCII alone accepts the same
words.

Key definitions: `Prompt.Request`, `Prompt.Request.parse`, `Prompt.Error`,
`Prompt.readNumber`.
-/
import ProbeLink.Prompt.Cursor
import ProbeLink.Text.Numeral

namespace ProbeLink.Prompt

/-- A line understood. -/
inductive Request where
  | connect (address : String)
  | registers (symbol : String)
  | memory (addr length : UInt64)
  | arguments (function : String)
  | send (body : String)
  | stats
  | disconnect
  | help
  | clear
  | quit
  deriving DecidableEq, Repr

/-- Something a command needs. -/
inductive Argument where
  | remote
  | address
  | symbol
  | length
  | functionName
  | packetBody
  deriving DecidableEq, Repr

/-- What is wrong with a line. -/
inductive Error where
  | emptyLine
  | unknownCommand (word : String)
  | missing (argument : Argument)
  | unknownTarget (word : String)
  | badNumber (word : String)
  | surplus (word : String)
  deriving DecidableEq, Repr

/-- The name of an argument. -/
def Argument.name : Argument → String
  | .remote => "remote"
  | .address => "address"
  | .symbol => "symbol"
  | .length => "length"
  | .functionName => "function name"
  | .packetBody => "packet body"

/-- The wording of an error. -/
def Error.message : Error → String
  | .emptyLine => "Invalid command: Empty command"
  | .unknownCommand word => "Invalid command: Unknown command: " ++ word
  | .missing argument => "Missing argument: " ++ argument.name
  | .unknownTarget word => "Invalid argument: Unknown target type: " ++ word
  | .badNumber word => "Invalid argument: Invalid number: " ++ word
  | .surplus word => "Invalid argument: Unexpected argument: " ++ word

/-- The value of a number in decimal digits, or in hexadecimal ones behind `0x`
or `0X`. -/
def number? : List Char → Option Nat
  | '0' :: 'x' :: r => Text.unsigned? 16 Text.limit64 r
  | '0' :: 'X' :: r => Text.unsigned? 16 Text.limit64 r
  | cs => Text.unsigned? 10 Text.limit64 cs

/-- A number of 64 bits. -/
def readNumber (cs : List Char) : Except Error UInt64 :=
  match number? cs with
  | some n => .ok (UInt64.ofNat n)
  | none => .error (.badNumber (String.ofList cs))

/-- The commands that a first word can name. -/
inductive Verb where
  | target
  | registers
  | memory
  | arguments
  | send
  | stats
  | disconnect
  | help
  | clear
  | quit
  deriving DecidableEq, Repr

/-- A first word in the spelling in which commands are listed. -/
def canonical (word : List Char) : String :=
  String.ofList (word.map fun c => if c = '_' then '-' else c.toLower)

/-- The command that a first word names. -/
def Verb.ofWord? (word : List Char) : Option Verb :=
  match canonical word with
  | "target" => some .target
  | "tracepoint-then-get-registers" => some .registers
  | "regs" => some .registers
  | "tracepoint-then-get-memory" => some .memory
  | "mem" => some .memory
  | "tracepoint-then-get-arguments" => some .arguments
  | "args" => some .arguments
  | "send" => some .send
  | "stats" => some .stats
  | "disconnect" => some .disconnect
  | "help" => some .help
  | "clear" => some .clear
  | "quit" => some .quit
  | "exit" => some .quit
  | _ => none

/-- The next word, which has to be there. -/
def required (argument : Argument) (c : Cursor) : Except Error (List Char × Cursor) :=
  match c.next with
  | (some w, c) => .ok (w, c)
  | (none, _) => .error (.missing argument)

namespace Request

/-- The arguments of a command, and the cursor behind them. -/
def arguments? (verb : Verb) (c : Cursor) : Except Error (Request × Cursor) :=
  match verb with
  | .target =>
    match c.next with
    | (none, _) => .error (.missing .remote)
    | (some kind, c) =>
      if kind.map Char.toLower = ['r', 'e', 'm', 'o', 't', 'e'] then do
        let (address, c) ← required .address c
        return (.connect (String.ofList address), c)
      else .error (.unknownTarget (String.ofList kind))
  | .registers => do
    let (symbol, c) ← required .symbol c
    return (.registers (String.ofList symbol), c)
  | .memory => do
    let (addr, c) ← required .address c
    let addr ← readNumber addr
    let (length, c) ← required .length c
    let length ← readNumber length
    return (.memory addr length, c)
  | .arguments => do
    let (function, c) ← required .functionName c
    return (.arguments (String.ofList function), c)
  | .send =>
    match c.takeRest with
    | (some body, c) => .ok (.send (String.ofList body), c)
    | (none, _) => .error (.missing .packetBody)
  | .stats => .ok (.stats, c)
  | .disconnect => .ok (.disconnect, c)
  | .help => .ok (.help, c)
  | .clear => .ok (.clear, c)
  | .quit => .ok (.quit, c)

/-- What a line asks for. -/
def parse (line : String) : Except Error Request :=
  match (Cursor.ofLine (Text.trim line.toList)).next with
  | (none, _) => .error .emptyLine
  | (some word, c) =>
    match Verb.ofWord? word with
    | none => .error (.unknownCommand (String.ofList word))
    | some verb =>
      match arguments? verb c with
      | .error e => .error e
      | .ok (request, c) =>
        match c.next with
        | (some extra, _) => .error (.surplus (String.ofList extra))
        | (none, _) => .ok request

end Request

end ProbeLink.Prompt
