/-
# Graphemes

What a reader takes for one character may be written with several: a letter with
its marks, a syllable of Hangul, a conjunct of consonants, a sequence of
pictographs or a pair of regional indicators. A text is cut into such graphemes
from left to right, and nothing of it is lost (`Text.flatten_graphemes`).

Key definitions: `Text.Joint`, `Text.Joint.joins`, `Text.graphemes`.
Key theorem: `Text.flatten_graphemes`.
-/
import ProbeLink.Text.GraphemeClass
import ProbeLink.Text.GraphemeExtend

namespace ProbeLink.Text

/-- The parts of a syllable of Hangul. -/
inductive HangulPart where
  | lead
  | vowel
  | trail
  /-- A lead and a vowel in one character. -/
  | leadVowel
  /-- A whole syllable in one character. -/
  | full
  deriving DecidableEq, Repr

/-- The part of a syllable that a character is, if it is one. -/
def hangulPart? (c : Char) : Option HangulPart :=
  let n := c.toNat
  if (0x1100 ≤ n && n ≤ 0x115F) || (0xA960 ≤ n && n ≤ 0xA97C) then some .lead
  else if (0x1160 ≤ n && n ≤ 0x11A7) || (0xD7B0 ≤ n && n ≤ 0xD7C6) || n == 0x16D63
      || (0x16D67 ≤ n && n ≤ 0x16D6A) then
    some .vowel
  else if (0x11A8 ≤ n && n ≤ 0x11FF) || (0xD7CB ≤ n && n ≤ 0xD7FB) then some .trail
  else if 0xAC00 ≤ n ∧ n ≤ 0xD7A3 then
    if (n - 0xAC00) % 28 = 0 then some .leadVowel else some .full
  else none

/-- Whether one part of a syllable may follow another. -/
def HangulPart.continues : HangulPart → HangulPart → Bool
  | .lead, .trail => false
  | .lead, _ => true
  | .vowel, .vowel => true
  | .vowel, .trail => true
  | .leadVowel, .vowel => true
  | .leadVowel, .trail => true
  | .trail, .trail => true
  | .full, .trail => true
  | _, _ => false

/-- The character that joins pictographs. -/
def isJoiner (c : Char) : Bool := c.toNat == 0x200D

/-- Whether a character extends the one before it without taking up space. -/
def isExtending (c : Char) : Bool :=
  isGraphemeExtend c || (0x1F3FB ≤ c.toNat && c.toNat ≤ 0x1F3FF)

/-- Whether a character stands for a letter of a region's code. -/
def isRegional (c : Char) : Bool := 0x1F1E6 ≤ c.toNat && c.toNat ≤ 0x1F1FF

/-- What the characters of a grapheme so far allow to follow. -/
structure Joint where
  /-- The last character. -/
  last : Char
  /-- A pictograph and what extends it. -/
  pictured : Bool
  /-- That, and a joiner. -/
  joined : Bool
  /-- A consonant, and marks that keep a conjunct open. -/
  consonant : Bool
  /-- That, with a linker among the marks. -/
  linked : Bool
  /-- An odd number of regional indicators. -/
  oddRegionals : Bool
  deriving DecidableEq, Repr

namespace Joint

/-- The joint behind the first character of a grapheme. -/
def first (c : Char) : Joint where
  last := c
  pictured := isPictograph c
  joined := false
  consonant := isConjunctConsonant c
  linked := false
  oddRegionals := isRegional c

/-- The joint behind one more character. -/
def next (j : Joint) (c : Char) : Joint where
  last := c
  pictured := isPictograph c || (j.pictured && isExtending c)
  joined := j.pictured && isJoiner c
  consonant := isConjunctConsonant c
    || (j.consonant && (isConjunctLinker c || isJoiner c || (isExtending c && c.toNat != 0x200C)))
  linked := !isConjunctConsonant c
    && (j.linked && (isJoiner c || (isExtending c && c.toNat != 0x200C))
      || (j.consonant && isConjunctLinker c))
  oddRegionals := isRegional c && !j.oddRegionals

/-- Whether a character goes on with the grapheme. -/
def joins (j : Joint) (c : Char) : Bool :=
  if j.last = '\r' ∧ c = '\n' then true
  else if isBreaking j.last || isBreaking c then false
  else
    (match hangulPart? j.last, hangulPart? c with
      | some p, some q => p.continues q
      | _, _ => false)
      || isExtending c || isJoiner c || isSpacingMark c || isPrepended j.last
      || (j.linked && isConjunctConsonant c)
      || (j.joined && isPictograph c)
      || (j.oddRegionals && isRegional c)

end Joint

/-- The graphemes of a text, of which the first has begun; `begun` holds its
characters, the last first. -/
def graphemesFrom (j : Joint) (begun : List Char) : List Char → List (List Char)
  | [] => [begun.reverse]
  | c :: r =>
    if j.joins c then graphemesFrom (j.next c) (c :: begun) r
    else begun.reverse :: graphemesFrom (.first c) [c] r

/-- The graphemes of a text. -/
def graphemes : List Char → List (List Char)
  | [] => []
  | c :: r => graphemesFrom (.first c) [c] r

theorem flatten_graphemesFrom (j : Joint) (begun cs : List Char) :
    (graphemesFrom j begun cs).flatten = begun.reverse ++ cs := by
  induction cs generalizing j begun with
  | nil => simp [graphemesFrom]
  | cons c r ih =>
    unfold graphemesFrom
    split
    · rw [ih]
      simp
    · rw [List.flatten_cons, ih]
      simp

/-- **Nothing is lost.** The graphemes of a text, one after the other, are the
text. -/
theorem flatten_graphemes (cs : List Char) : (graphemes cs).flatten = cs := by
  cases cs with
  | nil => rfl
  | cons c r => simp [graphemes, flatten_graphemesFrom]

end ProbeLink.Text
