/-
# Numbers, dates and truth values of TOML

Everything that is written without quotes or brackets is one run of characters,
and is judged as a whole. Digits may be grouped by single underscores between
them. A decimal integer has no leading zero; one behind `0x`, `0o` or `0b` has no
sign. An integer has to fit 64 bits with a sign, and a fraction must not be too
large for a number of double precision. Dates and times have to exist, up to a
leap second at the end of any minute.

Key definitions: `Toml.scalar?`.
-/
import ProbeLink.Text.Numeral
import ProbeLink.Toml.Node

namespace ProbeLink.Toml

/-- Characters of which numbers, dates and truth values are made. -/
def isScalarChar (c : Char) : Bool :=
  c.isAlphanum || c == '+' || c == '-' || c == '.' || c == ':' || c == '_'

/-- One or more digits of a radix with single underscores between them: the
digits, and what follows. `fresh` holds where an underscore may not stand. -/
def groupedDigits (radix : Nat) (fresh : Bool) : List Char → Option (List Char × List Char)
  | [] => if fresh then none else some ([], [])
  | c :: r =>
    if (Text.digitIn? radix c).isSome then
      (groupedDigits radix false r).map fun (ds, rest) => (c :: ds, rest)
    else if fresh then none
    else if c = '_' then groupedDigits radix true r
    else some ([], c :: r)

/-- How many numbers of 64 bits with a sign are negative. -/
def signedLimit : Nat := 9223372036854775808

/-- A number in range, with its sign. -/
def inRange (negative : Bool) (n : Nat) : Option Node :=
  if negative then (if n ≤ signedLimit then some (.integer (-(n : Int))) else none)
  else if n < signedLimit then some (.integer n) else none

/-- An integer in a radix other than ten, behind its two characters. -/
def radixInteger (radix : Nat) (cs : List Char) : Option Node :=
  match groupedDigits radix true cs with
  | some (ds, []) => (Text.digitsValue? radix ds).bind (inRange false)
  | _ => none

/-- Whether `digits · 10 ^ exponent` is too large for a number of double
precision, that is, at least half a unit above the largest. -/
def overflows (digits : List Char) (exponent : Int) : Bool :=
  match Text.digitsValue? 10 (digits.dropWhile (· == '0')) with
  | none => false
  | some n =>
    let width := (digits.dropWhile (· == '0')).length
    let top : Int := exponent + width
    if top < 308 then false
    else if 311 < top then true
    else
      let bound := Nat.pow 2 1024 - Nat.pow 2 970
      if 0 ≤ exponent then decide (bound ≤ n * Nat.pow 10 exponent.toNat)
      else decide (bound * Nat.pow 10 (-exponent).toNat ≤ n)

/-- The sign and the digits of an exponent. -/
def exponent? (cs : List Char) : Option Int :=
  let (negative, cs) : Bool × List Char := match cs with
    | '-' :: r => (true, r)
    | '+' :: r => (false, r)
    | cs => (false, cs)
  match groupedDigits 10 true cs with
  | some (ds, []) =>
    (Text.digitsValue? 10 ds).map fun n => if negative then -(n : Int) else n
  | _ => none

/-- A number with a fraction or an exponent, of which `whole` is in. Only a
positive number can be too large. -/
def fraction? (negative : Bool) (whole : List Char) (cs : List Char) : Option Node :=
  let (places, rest) : List Char × Option (List Char) := match cs with
    | '.' :: r => match groupedDigits 10 true r with
      | some (ds, rest) => (ds, some rest)
      | none => ([], none)
    | cs => ([], some cs)
  match rest with
  | none => none
  | some rest =>
    let exponent := match rest with
      | [] => some 0
      | c :: r => if c = 'e' ∨ c = 'E' then exponent? r else none
    match exponent with
    | none => none
    | some e =>
      if !negative && overflows (whole ++ places) (e - places.length) then none else some .float

/-- A decimal number behind its sign. -/
def decimal? (negative : Bool) (cs : List Char) : Option Node :=
  match groupedDigits 10 true cs with
  | none => none
  | some (ds, rest) =>
    if 1 < ds.length ∧ ds.head? = some '0' then none
    else if rest = [] then (Text.digitsValue? 10 ds).bind (inRange negative)
    else fraction? negative ds rest

/-- The value of exactly two digits with a bound. -/
def twoDigits? (low high : Nat) (a b : Char) : Option Nat :=
  match Text.digitsValue? 10 [a, b] with
  | some n => if low ≤ n ∧ n ≤ high then some n else none
  | none => none

/-- The number of days of a month. -/
def daysIn (year month : Nat) : Nat :=
  if month = 2 then
    if year % 4 = 0 ∧ (year % 100 ≠ 0 ∨ year % 400 = 0) then 29 else 28
  else if month = 4 ∨ month = 6 ∨ month = 9 ∨ month = 11 then 30
  else 31

/-- What follows a date that exists. -/
def date? : List Char → Option (List Char)
  | y₁ :: y₂ :: y₃ :: y₄ :: '-' :: m₁ :: m₂ :: '-' :: d₁ :: d₂ :: rest =>
    match Text.digitsValue? 10 [y₁, y₂, y₃, y₄], twoDigits? 1 12 m₁ m₂ with
    | some year, some month => (twoDigits? 1 (daysIn year month) d₁ d₂).map fun _ => rest
    | _, _ => none
  | _ => none

/-- What follows a time that exists. -/
def time? : List Char → Option (List Char)
  | h₁ :: h₂ :: ':' :: m₁ :: m₂ :: ':' :: s₁ :: s₂ :: rest =>
    match twoDigits? 0 23 h₁ h₂, twoDigits? 0 59 m₁ m₂, twoDigits? 0 60 s₁ s₂ with
    | some _, some _, some _ =>
      match rest with
      | '.' :: d :: r => if d.isDigit then some (r.dropWhile Char.isDigit) else none
      | ['.'] => none
      | rest => some rest
    | _, _, _ => none
  | _ => none

/-- Whether a text is an offset from universal time. -/
def isOffset : List Char → Bool
  | ['Z'] => true
  | ['z'] => true
  | [sign, h₁, h₂, ':', m₁, m₂] =>
    (sign == '+' || sign == '-') && (twoDigits? 0 23 h₁ h₂).isSome
      && (twoDigits? 0 59 m₁ m₂).isSome
  | _ => false

/-- A date, a time, or both with or without an offset. -/
def dateTime? (cs : List Char) : Option Node :=
  match date? cs with
  | some [] => some .dateTime
  | some (sep :: r) =>
    if sep = 'T' ∨ sep = 't' ∨ sep = ' ' then
      match time? r with
      | some rest => if rest = [] ∨ isOffset rest then some .dateTime else none
      | none => none
    else none
  | none =>
    match time? cs with
    | some [] => some .dateTime
    | _ => none

/-- The value that a run of characters writes. -/
def scalar? (cs : List Char) : Option Node :=
  match cs with
  | ['t', 'r', 'u', 'e'] => some (.boolean true)
  | ['f', 'a', 'l', 's', 'e'] => some (.boolean false)
  | ['i', 'n', 'f'] => some .float
  | ['n', 'a', 'n'] => some .float
  | ['+', 'i', 'n', 'f'] => some .float
  | ['+', 'n', 'a', 'n'] => some .float
  | ['-', 'i', 'n', 'f'] => some .float
  | ['-', 'n', 'a', 'n'] => some .float
  | '0' :: 'x' :: r => radixInteger 16 r
  | '0' :: 'o' :: r => radixInteger 8 r
  | '0' :: 'b' :: r => radixInteger 2 r
  | '+' :: r => decimal? false r
  | '-' :: r => decimal? true r
  | cs => (decimal? false cs).orElse fun _ => dateTime? cs

end ProbeLink.Toml
