/-
# Strings of TOML

A string stands in double quotes, with escapes, or in single quotes, without. In
three quotes it may run over several lines: a line end right behind the opening
is left out, one behind a backslash is left out with the blanks that follow, and
up to two quotes may stand right before the closing three. No string holds a
control character other than the tab.

Key definitions: `Toml.string?`, `Toml.lineString?`.
-/

namespace ProbeLink.Toml

/-- Whether a character may stand in a string or a comment as it is. -/
def isPlain (c : Char) : Bool := c == '\t' || (0x20 ≤ c.toNat && c.toNat ≠ 0x7F)

/-- The value of a hexadecimal digit. -/
def hexValue? (c : Char) : Option Nat :=
  let n := c.toNat
  if 0x30 ≤ n ∧ n ≤ 0x39 then some (n - 0x30)
  else if 0x61 ≤ n ∧ n ≤ 0x66 then some (n - 0x57)
  else if 0x41 ≤ n ∧ n ≤ 0x46 then some (n - 0x37)
  else none

/-- The character whose number some digits write, if there is one. -/
def charOfDigits? (digits : List Char) : Option Char :=
  match digits.foldlM (fun n c => (hexValue? c).map (n * 16 + ·)) 0 with
  | some n => if n.isValidChar then some (Char.ofNat n) else none
  | none => none

/-- The character that a letter behind a backslash stands for. -/
def shortEscape? : Char → Option Char
  | 'b' => some (Char.ofNat 8)
  | 't' => some '\t'
  | 'n' => some '\n'
  | 'f' => some (Char.ofNat 12)
  | 'r' => some '\r'
  | '"' => some '"'
  | '\\' => some '\\'
  | _ => none

/-- An escape behind its backslash: the character and what follows. -/
def escape? : List Char → Option (Char × List Char)
  | 'u' :: a :: b :: c :: d :: r => (charOfDigits? [a, b, c, d]).map fun x => (x, r)
  | 'U' :: a :: b :: c :: d :: e :: f :: g :: h :: r =>
    (charOfDigits? [a, b, c, d, e, f, g, h]).map fun x => (x, r)
  | c :: r => (shortEscape? c).map fun x => (x, r)
  | [] => none

/-- The text without blanks and line ends at its start. -/
def skipLines : List Char → List Char
  | ' ' :: r => skipLines r
  | '\t' :: r => skipLines r
  | '\n' :: r => skipLines r
  | '\r' :: '\n' :: r => skipLines r
  | cs => cs

/-- What follows a backslash at the end of a line: blanks, a line end, and then
any blanks and line ends. -/
def continued? (cs : List Char) : Option (List Char) :=
  match cs.dropWhile fun c => c == ' ' || c == '\t' with
  | '\n' :: r => some (skipLines r)
  | '\r' :: '\n' :: r => some (skipLines r)
  | _ => none

/-- The rest of a string in double quotes, and what follows it. The number
bounds the length. -/
def basicBody : Nat → List Char → Option (List Char × List Char)
  | 0, _ => none
  | _ + 1, [] => none
  | n + 1, c :: r =>
    if c = '"' then some ([], r)
    else if c = '\\' then
      match escape? r with
      | some (x, r) => (basicBody n r).map fun (cs, rest) => (x :: cs, rest)
      | none => none
    else if isPlain c then (basicBody n r).map fun (cs, rest) => (c :: cs, rest)
    else none

/-- The rest of a string in single quotes, and what follows it. -/
def literalBody : List Char → Option (List Char × List Char)
  | [] => none
  | c :: r =>
    if c = '\'' then some ([], r)
    else if isPlain c then (literalBody r).map fun (cs, rest) => (c :: cs, rest)
    else none

/-- The quotes at a closing: all but three of at most five belong to the string. -/
def closing? (quote : Char) (cs : List Char) : Option (List Char × List Char) :=
  let n := (cs.takeWhile (· == quote)).length
  if 3 ≤ n then some (List.replicate (min n 5 - 3) quote, cs.drop (min n 5)) else none

/-- The rest of a string in three double quotes, and what follows it. -/
def longBasicBody : Nat → List Char → Option (List Char × List Char)
  | 0, _ => none
  | _ + 1, [] => none
  | n + 1, c :: r =>
    let keep (x : Char) (r : List Char) := (longBasicBody n r).map fun (cs, rest) => (x :: cs, rest)
    if c = '"' then
      match closing? '"' (c :: r) with
      | some out => some out
      | none => keep c r
    else if c = '\\' then
      match escape? r with
      | some (x, r) => keep x r
      | none =>
        match continued? r with
        | some r => longBasicBody n r
        | none => none
    else if c = '\n' then keep c r
    else if c = '\r' then
      match r with
      | '\n' :: r => keep '\n' r
      | _ => none
    else if isPlain c then keep c r
    else none

/-- The rest of a string in three single quotes, and what follows it. -/
def longLiteralBody : Nat → List Char → Option (List Char × List Char)
  | 0, _ => none
  | _ + 1, [] => none
  | n + 1, c :: r =>
    let keep (x : Char) (r : List Char) :=
      (longLiteralBody n r).map fun (cs, rest) => (x :: cs, rest)
    if c = '\'' then
      match closing? '\'' (c :: r) with
      | some out => some out
      | none => keep c r
    else if c = '\n' then keep c r
    else if c = '\r' then
      match r with
      | '\n' :: r => keep '\n' r
      | _ => none
    else if isPlain c then keep c r
    else none

/-- The text without a line end at its start. -/
def dropLineEnd : List Char → List Char
  | '\n' :: r => r
  | '\r' :: '\n' :: r => r
  | cs => cs

/-- A string on one line that starts a text, and what follows it. -/
def lineString? (cs : List Char) : Option (String × List Char) :=
  match cs with
  | '"' :: r => (basicBody (r.length + 1) r).map fun (s, rest) => (String.ofList s, rest)
  | '\'' :: r => (literalBody r).map fun (s, rest) => (String.ofList s, rest)
  | _ => none

/-- A string that starts a text, and what follows it. -/
def string? (cs : List Char) : Option (String × List Char) :=
  match cs with
  | '"' :: '"' :: '"' :: r =>
    (longBasicBody (r.length + 1) (dropLineEnd r)).map fun (s, rest) => (String.ofList s, rest)
  | '\'' :: '\'' :: '\'' :: r =>
    (longLiteralBody (r.length + 1) (dropLineEnd r)).map fun (s, rest) => (String.ofList s, rest)
  | cs => lineString? cs

end ProbeLink.Toml
