/-
# Bytes

A byte string is a list of bytes, and a text counts as its UTF-8 bytes. The one
arithmetic on bytes that the protocol knows is their sum modulo 256
(`byteSum`), which splits over concatenation (`byteSum_append`).

Key definitions: `Bytes`, `textBytes`, `byteSum`.
-/

namespace ProbeLink

/-- A byte string. -/
abbrev Bytes := List UInt8

/-- The UTF-8 bytes of a text. -/
def textBytes (s : String) : Bytes := s.toByteArray.data.toList

/-- The sum of all bytes modulo 256. -/
def byteSum : Bytes → UInt8
  | [] => 0
  | b :: r => b + byteSum r

@[simp] theorem byteSum_nil : byteSum [] = 0 := rfl

@[simp] theorem byteSum_cons (b : UInt8) (r : Bytes) : byteSum (b :: r) = b + byteSum r := rfl

theorem byteSum_append (a b : Bytes) : byteSum (a ++ b) = byteSum a + byteSum b := by
  induction a with
  | nil => simp
  | cons x r ih => simp [ih, UInt8.add_assoc]

theorem textBytes_append (s t : String) : textBytes (s ++ t) = textBytes s ++ textBytes t := by
  simp [textBytes]

/-- The bytes of an ASCII text literal, one per character. -/
def asciiBytes (cs : List Char) : Bytes := cs.map fun c => UInt8.ofNat c.toNat

end ProbeLink
