/-
# Words of a line

A cursor walks over a line from left to right. The next word is what stands
between two quotation marks, if the word starts with one and another follows,
and else everything up to the next blank. What is left of the line can also be
taken whole.

A cursor remembers what it has passed, so that nothing of the line is lost: the
passed and the remaining part are the line at every moment.

Key definitions: `Cursor`, `Cursor.next`, `Cursor.takeRest`.
-/
import ProbeLink.Text.Blank

namespace ProbeLink.Prompt

/-- A place in a line. -/
structure Cursor where
  passed : List Char
  rest : List Char
  deriving DecidableEq, Repr

namespace Cursor

/-- The start of a line. -/
def ofLine (cs : List Char) : Cursor := ⟨[], cs⟩

/-- The line that the cursor walks over. -/
def line (c : Cursor) : List Char := c.passed ++ c.rest

/-- Moves on over `n` characters. -/
def advance (c : Cursor) (n : Nat) : Cursor := ⟨c.passed ++ c.rest.take n, c.rest.drop n⟩

/-- Moves on to the next character that is not blank. -/
def skipBlanks (c : Cursor) : Cursor := c.advance (c.rest.takeWhile Text.isBlank).length

/-- The word that starts a text, and how many characters it takes up. -/
def word : List Char → List Char × Nat
  | '"' :: r =>
    if r.contains '"' then
      let inner := r.takeWhile (· ≠ '"')
      (inner, inner.length + 2)
    else
      let w := r.takeWhile (!Text.isBlank ·)
      ('"' :: w, w.length + 1)
  | cs =>
    let w := cs.takeWhile (!Text.isBlank ·)
    (w, w.length)

/-- The next word and the cursor behind it. -/
def next (c : Cursor) : Option (List Char) × Cursor :=
  let c := c.skipBlanks
  if c.rest = [] then (none, c)
  else
    let (w, n) := word c.rest
    (some w, c.advance n)

/-- All that is left from the next character that is not blank. -/
def takeRest (c : Cursor) : Option (List Char) × Cursor :=
  let c := c.skipBlanks
  if c.rest = [] then (none, c) else (some c.rest, c.advance c.rest.length)

@[simp] theorem line_advance (c : Cursor) (n : Nat) : (c.advance n).line = c.line := by
  simp [line, advance]

@[simp] theorem line_skipBlanks (c : Cursor) : c.skipBlanks.line = c.line := by
  simp [skipBlanks]

@[simp] theorem line_next (c : Cursor) : c.next.2.line = c.line := by
  simp only [next]
  split <;> simp

@[simp] theorem line_takeRest (c : Cursor) : c.takeRest.2.line = c.line := by
  simp only [takeRest]
  split <;> simp

end Cursor

end ProbeLink.Prompt
