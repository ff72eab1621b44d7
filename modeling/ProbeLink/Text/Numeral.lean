/-
# Unsigned numerals

A numeral is an optional plus sign and one or more digits of its radix, of
either case, with a value below a given limit; nothing else is read
(`Text.unsigned?`). No value is ever reduced modulo the limit.

Key definitions: `Text.digitIn?`, `Text.digitsValue?`, `Text.unsigned?`.
-/

namespace ProbeLink.Text

/-- One more than the largest number of 32 bits. -/
def limit32 : Nat := 4294967296

/-- One more than the largest number of 64 bits. -/
def limit64 : Nat := 18446744073709551616

/-- The value of a digit in a radix of at most 36. Only ASCII characters are
digits. -/
def digitIn? (radix : Nat) (c : Char) : Option Nat :=
  let n := c.toNat
  let v :=
    if 0x30 ≤ n ∧ n ≤ 0x39 then n - 0x30
    else if 0x61 ≤ n ∧ n ≤ 0x7A then n - 0x57
    else if 0x41 ≤ n ∧ n ≤ 0x5A then n - 0x37
    else radix
  if v < radix then some v else none

/-- The value of a run of digits after a part worth `acc`. -/
def digitsFrom? (radix : Nat) (acc : Nat) : List Char → Option Nat
  | [] => some acc
  | c :: r =>
    match digitIn? radix c with
    | some d => digitsFrom? radix (acc * radix + d) r
    | none => none

/-- The value of one or more digits. -/
def digitsValue? (radix : Nat) : List Char → Option Nat
  | [] => none
  | cs => digitsFrom? radix 0 cs

/-- The text after one plus sign, if it starts with one. -/
def dropPlus : List Char → List Char
  | '+' :: r => r
  | cs => cs

/-- The value of a numeral below `limit`. -/
def unsigned? (radix limit : Nat) (cs : List Char) : Option Nat :=
  match digitsValue? radix (dropPlus cs) with
  | some n => if n < limit then some n else none
  | none => none

end ProbeLink.Text
