/-
# Text quoted for reading

Quoted text shows every character that has a picture as itself, the common
controls and the quote by a short escape, and all others by their number in
hexadecimal digits. A text is quoted with double quotes and a single character
with single ones, and each escapes only its own quote.

Key definitions: `Text.escape`, `Text.quoted`, `Text.quotedChar`.
-/
import ProbeLink.Hex
import ProbeLink.Text.Graphic
import ProbeLink.Text.GraphemeExtend

namespace ProbeLink.Text

/-- One character between `quote` marks. -/
def escape (quote c : Char) : List Char :=
  if c = Char.ofNat 0 then ['\\', '0']
  else if c = '\t' then ['\\', 't']
  else if c = '\r' then ['\\', 'r']
  else if c = '\n' then ['\\', 'n']
  else if c = '\\' then ['\\', '\\']
  else if c = quote then ['\\', quote]
  else if c.toNat < 0x7F && 0x20 ≤ c.toNat then [c]
  else if isGraphic c && !isGraphemeExtend c then [c]
  else '\\' :: 'u' :: '\x7b' :: Nat.toDigits 16 c.toNat ++ ['\x7d']

/-- A text in double quotes. -/
def quoted (s : String) : String :=
  String.ofList ('"' :: s.toList.flatMap (escape '"') ++ ['"'])

/-- A character in single quotes. -/
def quotedChar (c : Char) : String :=
  String.ofList ('\'' :: escape '\'' c ++ ['\''])

end ProbeLink.Text
