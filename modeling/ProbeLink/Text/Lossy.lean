/-
# Reading bytes as text

A byte string is read as UTF-8. Each maximal part of it that begins a
well-formed character without completing one, and each byte that begins none,
reads as one replacement character, so every byte string has a reading
(`Text.lossy`), and a well-formed one reads as itself.

Key definitions: `Text.secondInRange`, `Text.lossyChars`, `Text.lossy`.
-/
import ProbeLink.Bytes

namespace ProbeLink.Text

/-- The character that stands for an ill-formed part. -/
def replacement : Char := Char.ofNat 0xFFFD

/-- A byte that continues a character. -/
def isContinuation (b : UInt8) : Bool := 0x80 ≤ b && b ≤ 0xBF

/-- The second byte of a character of three or four bytes: the lead byte narrows
the range of continuation bytes so that no character has two spellings, none is
a surrogate and none lies above U+10FFFF. -/
def secondInRange (lead b : UInt8) : Bool :=
  if lead = 0xE0 then 0xA0 ≤ b && b ≤ 0xBF
  else if lead = 0xED then 0x80 ≤ b && b ≤ 0x9F
  else if lead = 0xF0 then 0x90 ≤ b && b ≤ 0xBF
  else if lead = 0xF4 then 0x80 ≤ b && b ≤ 0x8F
  else isContinuation b

/-- The character whose bits are those of `lead` below `width`, then six from
each byte of `more`. -/
def assemble (lead : UInt8) (width : Nat) (more : Bytes) : Char :=
  Char.ofNat (more.foldl (fun n b => n * 64 + b.toNat % 64) (lead.toNat % width))

/-- The characters of a byte string, with a replacement for every ill-formed
part. -/
def lossyChars : Bytes → List Char
  | [] => []
  | a :: r =>
    if a < 0x80 then Char.ofNat a.toNat :: lossyChars r
    else if 0xC2 ≤ a ∧ a ≤ 0xDF then
      match r with
      | b :: r₁ =>
        if isContinuation b then assemble a 32 [b] :: lossyChars r₁
        else replacement :: lossyChars (b :: r₁)
      | [] => [replacement]
    else if 0xE0 ≤ a ∧ a ≤ 0xEF then
      match r with
      | b :: c :: r₂ =>
        if secondInRange a b then
          if isContinuation c then assemble a 16 [b, c] :: lossyChars r₂
          else replacement :: lossyChars (c :: r₂)
        else replacement :: lossyChars (b :: c :: r₂)
      | [b] => if secondInRange a b then [replacement] else replacement :: lossyChars [b]
      | [] => [replacement]
    else if 0xF0 ≤ a ∧ a ≤ 0xF4 then
      match r with
      | b :: c :: d :: r₃ =>
        if secondInRange a b then
          if isContinuation c then
            if isContinuation d then assemble a 8 [b, c, d] :: lossyChars r₃
            else replacement :: lossyChars (d :: r₃)
          else replacement :: lossyChars (c :: d :: r₃)
        else replacement :: lossyChars (b :: c :: d :: r₃)
      | [b, c] =>
        if secondInRange a b then
          if isContinuation c then [replacement] else replacement :: lossyChars [c]
        else replacement :: lossyChars [b, c]
      | [b] => if secondInRange a b then [replacement] else replacement :: lossyChars [b]
      | [] => [replacement]
    else replacement :: lossyChars r
  termination_by bs => bs.length

/-- A byte string as text, with a replacement for every ill-formed part. -/
def lossy (bs : Bytes) : String := String.ofList (lossyChars bs)

end ProbeLink.Text
