/-
# Painted text

Text on a terminal is painted by an escape sequence before it and a reset behind
it. A reset that stands inside the text is followed by the sequence again, so
that what comes after it keeps its paint. With painting turned off every text is
left as it is.

Key definitions: `Paint`, `Paint.apply`.
-/

namespace ProbeLink.Console

/-- How a text is painted: the codes of its attributes, in order. -/
structure Paint where
  codes : List Nat
  deriving DecidableEq, Repr

namespace Paint

def dimmed : Paint := ⟨[2]⟩

def red : Paint := ⟨[31]⟩

def green : Paint := ⟨[32]⟩

def yellow : Paint := ⟨[33]⟩

def blue : Paint := ⟨[34]⟩

def cyan : Paint := ⟨[36]⟩

/-- The same paint in bold. -/
def bold (p : Paint) : Paint := ⟨1 :: p.codes⟩

/-- The sequence that turns the paint on. -/
def lead (p : Paint) : List Char :=
  '\x1b' :: '[' :: (";".intercalate (p.codes.map toString)).toList ++ ['m']

/-- The sequence that turns all paint off. -/
def reset : List Char := ['\x1b', '[', '0', 'm']

/-- Puts `lead` behind every reset in a text. -/
def resume (lead : List Char) : List Char → List Char
  | '\x1b' :: '[' :: '0' :: 'm' :: r => reset ++ lead ++ resume lead r
  | c :: r => c :: resume lead r
  | [] => []

/-- A text painted, if painting is on. -/
def apply (p : Paint) (on : Bool) (text : String) : String :=
  if on then String.ofList (p.lead ++ resume p.lead text.toList ++ reset) else text

/-- Whether text is painted: the environment can force it, forbid it or turn it
off, and otherwise it depends on whether the output is a terminal. -/
def wanted (env : String → Option String) (terminal : Bool) : Bool :=
  match env "CLICOLOR_FORCE", env "NO_COLOR", env "CLICOLOR" with
  | some force, none, off => force != "0" || (terminal && off != some "0")
  | some force, some _, _ => force != "0"
  | none, some _, _ => false
  | none, none, off => terminal && off != some "0"

end Paint

end ProbeLink.Console
