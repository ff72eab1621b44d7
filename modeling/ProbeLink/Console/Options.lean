/-
# Options on the command line

Options have a long name behind two dashes and some a letter behind one. A value
follows its option as the next argument or in the same one, behind an equals sign
or, for a letter, directly; letters without a value may stand together. An
argument that starts with a dash is never the value of the one before it, unless
it is the dash alone. No option may be given twice, and nothing else may be
given.

What is not given on the command line may be given by the environment.

Key definitions: `Flag`, `Options`, `Options.parse`.
-/
import ProbeLink.Text.Numeral

namespace ProbeLink.Console

/-- The names that an option can have. -/
inductive Flag where
  | address
  | config
  | logLevel
  | timeoutMs
  | baud
  | command
  | quiet
  | help
  | version
  deriving DecidableEq, Repr

/-- What is set for a run of the program. -/
structure Options where
  address : Option String := none
  /-- The path of a file of settings. -/
  config : Option String := none
  logLevel : Option String := none
  timeoutMs : Option Nat := none
  baud : Option Nat := none
  /-- The one command to carry out. -/
  command : Option String := none
  /-- No banner. -/
  quiet : Bool := false
  deriving DecidableEq, Repr

/-- Why a run does not begin. -/
inductive NoRun where
  /-- The options make no sense. -/
  | misused
  | helpWanted
  | versionWanted
  deriving DecidableEq, Repr

namespace Flag

/-- The flag with a long name. -/
def ofName? : String → Option Flag
  | "address" => some .address
  | "config" => some .config
  | "log-level" => some .logLevel
  | "timeout-ms" => some .timeoutMs
  | "baud" => some .baud
  | "command" => some .command
  | "quiet" => some .quiet
  | "help" => some .help
  | "version" => some .version
  | _ => none

/-- The flag with a letter. -/
def ofLetter? : Char → Option Flag
  | 'a' => some .address
  | 'C' => some .config
  | 'c' => some .command
  | 'q' => some .quiet
  | 'h' => some .help
  | 'V' => some .version
  | _ => none

/-- Whether a flag takes a value. -/
def takesValue : Flag → Bool
  | .quiet => false
  | .help => false
  | .version => false
  | _ => true

end Flag

namespace Options

/-- A number below a limit, as the value of an option. -/
def count? (limit : Nat) (value : String) : Option Nat := Text.unsigned? 10 limit value.toList

/-- A rate; zero may have any sign. -/
def rate? (value : String) : Option Nat :=
  match value.toList with
  | '-' :: r => (Text.digitsValue? 10 r).filter (· = 0)
  | _ => count? Text.limit32 value

/-- Sets a flag that has no value yet. -/
def set (o : Options) (flag : Flag) (value : String) : Except NoRun Options :=
  match flag with
  | .address => if o.address.isSome then .error .misused else .ok { o with address := some value }
  | .config =>
    if o.config.isSome || value = "" then .error .misused
    else .ok { o with config := some value }
  | .logLevel =>
    if o.logLevel.isSome then .error .misused else .ok { o with logLevel := some value }
  | .timeoutMs =>
    match o.timeoutMs, count? Text.limit64 value with
    | none, some n => .ok { o with timeoutMs := some n }
    | _, _ => .error .misused
  | .baud =>
    match o.baud, rate? value with
    | none, some n => .ok { o with baud := some n }
    | _, _ => .error .misused
  | .command => if o.command.isSome then .error .misused else .ok { o with command := some value }
  | .quiet => if o.quiet then .error .misused else .ok { o with quiet := true }
  | .help => .error .helpWanted
  | .version => .error .versionWanted

/-- Whether an argument is an option, or several, and not a value. -/
def isOption (arg : String) : Bool :=
  match arg.toList with
  | '-' :: _ :: _ => true
  | _ => false

/-- Reads letters that stand together. The last one may take the rest of the
argument as its value; a flag that still needs one comes back with the options. -/
def letters (o : Options) : List Char → Except NoRun (Options × Option Flag)
  | [] => .ok (o, none)
  | c :: r =>
    match Flag.ofLetter? c with
    | none => .error .misused
    | some flag =>
      if flag.takesValue then
        match r with
        | [] => .ok (o, some flag)
        | '=' :: value => (o.set flag (String.ofList value)).map (·, none)
        | value => (o.set flag (String.ofList value)).map (·, none)
      else do (← o.set flag "").letters r

/-- Reads a long name, which may bring its value. -/
def word (o : Options) (cs : List Char) : Except NoRun (Options × Option Flag) :=
  let name := String.ofList (cs.takeWhile (· ≠ '='))
  match Flag.ofName? name, cs.dropWhile (· ≠ '=') with
  | none, _ => .error .misused
  | some flag, _ :: value =>
    if flag.takesValue then (o.set flag (String.ofList value)).map (·, none)
    else .error .misused
  | some flag, [] =>
    if flag.takesValue then .ok (o, some flag) else (o.set flag "").map (·, none)

/-- Reads one argument that is an option. -/
def argument (o : Options) (arg : String) : Except NoRun (Options × Option Flag) :=
  match arg.toList with
  | '-' :: '-' :: cs => o.word cs
  | _ :: cs => o.letters cs
  | [] => .error .misused

/-- Reads arguments from left to right. Two dashes alone say that no option
follows, and nothing else may follow either. -/
def readArgs (o : Options) : List String → Except NoRun Options
  | [] => .ok o
  | "--" :: r => if r = [] then .ok o else .error .misused
  | arg :: r =>
    if !isOption arg then .error .misused
    else
      match o.argument arg, r with
      | .error e, _ => .error e
      | .ok (o, none), r => readArgs o r
      | .ok (_, some _), [] => .error .misused
      | .ok (o, some flag), value :: r =>
        if isOption value then .error .misused
        else
          match o.set flag value with
          | .error e => .error e
          | .ok o => readArgs o r

/-- Sets a flag from the environment, unless the command line has set it. -/
def orFrom (env : String → Option String) (name : String) (flag : Flag) (given : Bool)
    (o : Options) : Except NoRun Options :=
  match given, env name with
  | false, some value => o.set flag value
  | _, _ => .ok o

/-- The options of a run. -/
def parse (args : List String) (env : String → Option String) : Except NoRun Options := do
  let o ← readArgs {} args
  let o ← orFrom env "SIDESTUB_ADDRESS" .address o.address.isSome o
  let o ← orFrom env "SIDESTUB_CONFIG" .config o.config.isSome o
  let o ← orFrom env "SIDESTUB_LOG_LEVEL" .logLevel o.logLevel.isSome o
  orFrom env "SIDESTUB_TIMEOUT_MS" .timeoutMs o.timeoutMs.isSome o

end Options

end ProbeLink.Console
