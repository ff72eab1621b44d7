/-
# Typed lines

A line is typed as bytes. It has to be UTF-8; a carriage return at its end
belongs to the line ending, and a backspace takes back the grapheme before it.

Key definitions: `Typed`, `Typed.text?`, `Typed.takeBack`.
-/
import ProbeLink.Bytes
import ProbeLink.Text.Grapheme

namespace ProbeLink.Console

/-- What comes from whoever types. -/
inductive Typed where
  /-- A line without its line feed. -/
  | line (bytes : Bytes)
  /-- There will be no more lines. -/
  | theEnd
  deriving DecidableEq, Repr

namespace Typed

/-- The text without one carriage return at its end. -/
def withoutReturn (cs : List Char) : List Char :=
  match cs.reverse with
  | '\r' :: r => r.reverse
  | _ => cs

/-- The graphemes that are left when every backspace has taken back the one
before it; `back` holds those left so far, the last first. -/
def takeBack (back : List (List Char)) : List (List Char) → List (List Char)
  | [] => back.reverse
  | ['\x08'] :: r => takeBack back.tail r
  | g :: r => takeBack (g :: back) r

/-- The text of a line, if it is one. -/
def text? (bytes : Bytes) : Option String :=
  (String.fromUTF8? ⟨bytes.toArray⟩).map fun s =>
    String.ofList (takeBack [] (Text.graphemes (withoutReturn s.toList))).flatten

end Typed

end ProbeLink.Console
