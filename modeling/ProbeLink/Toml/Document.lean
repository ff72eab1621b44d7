/-
# Documents of TOML

A document is a list of lines. A line may open a table by its header, open one
more table under a repeated header, or give a key its value in the table opened
last; a comment may end it. Arrays may run over several lines, tables in braces
may not. Nesting is limited to `depthLimit`, and so is the length of a dotted
key.

Reading gives the tree of the whole document, or nothing if anything in it is
wrong.

Key definitions: `Toml.value?`, `Toml.Line`, `Toml.document?`.
-/
import ProbeLink.Toml.Scalar
import ProbeLink.Toml.Text

namespace ProbeLink.Toml

/-- How deep arrays and tables in braces may be nested, and how many parts a
dotted key may have. -/
def depthLimit : Nat := 80

/-- The text without the blanks at its start. -/
def skipBlanks (cs : List Char) : List Char := cs.dropWhile fun c => c == ' ' || c == '\t'

/-- What follows a comment or a line end within an array: from `inComment` on,
a comment's characters up to its line end. -/
def skipTrivia (inComment : Bool) : List Char → Option (List Char)
  | [] => some []
  | '\n' :: r => skipTrivia false r
  | '\r' :: '\n' :: r => skipTrivia false r
  | c :: r =>
    if inComment then (if isPlain c then skipTrivia true r else none)
    else if c = ' ' ∨ c = '\t' then skipTrivia false r
    else if c = '#' then skipTrivia true r
    else some (c :: r)

/-- Whether a character may stand in a key without quotes. -/
def isBareKeyChar (c : Char) : Bool := c.isAlphanum || c == '-' || c == '_'

/-- One part of a key, and what follows it. -/
def keyPart? (cs : List Char) : Option (String × List Char) :=
  match cs with
  | [] => none
  | c :: _ =>
    if c = '"' ∨ c = '\'' then lineString? cs
    else
      let bare := cs.takeWhile isBareKeyChar
      if bare = [] then none else some (String.ofList bare, cs.dropWhile isBareKeyChar)

/-- A key of at most `n` parts with dots between them, and what follows it and
its blanks. -/
def key? : Nat → List Char → Option (List String × List Char)
  | 0, _ => none
  | n + 1, cs =>
    match keyPart? (skipBlanks cs) with
    | none => none
    | some (k, r) =>
      match skipBlanks r with
      | '.' :: r => (key? n r).map fun (ks, rest) => (k :: ks, rest)
      | r => some ([k], r)

/-- A run of characters that writes a value, and what follows it. A date and a
time may have a single blank between them. -/
def bareValue? (cs : List Char) : Option (Node × List Char) :=
  let run := cs.takeWhile isScalarChar
  let rest := cs.dropWhile isScalarChar
  match (date? run), rest with
  | some [], ' ' :: c :: r =>
    if c.isDigit then
      let more := c :: r
      (scalar? (run ++ ' ' :: more.takeWhile isScalarChar)).map fun n =>
        (n, more.dropWhile isScalarChar)
    else (scalar? run).map fun n => (n, rest)
  | _, _ => (scalar? run).map fun n => (n, rest)

mutual

/-- A value and what follows it. `n` bounds the steps and `depth` the nesting. -/
def value? (n depth : Nat) (cs : List Char) : Option (Node × List Char) :=
  match n with
  | 0 => none
  | n + 1 =>
    match cs with
    | '"' :: _ => (string? cs).map fun (s, rest) => (.string s, rest)
    | '\'' :: _ => (string? cs).map fun (s, rest) => (.string s, rest)
    | '[' :: r =>
      if depth ≤ 1 then none
      else (items? n (depth - 1) r).map fun (items, rest) => (.array items, rest)
    | '\x7b' :: r =>
      if depth ≤ 1 then none
      else
        match skipBlanks r with
        | '\x7d' :: rest => some (.table .braces [], rest)
        | r => (pairs? n (depth - 1) [] r).map fun (es, rest) => (.table .braces es, rest)
    | cs => bareValue? cs

/-- The items of an array up to its closing bracket, and what follows it. -/
def items? (n depth : Nat) (cs : List Char) : Option (List Node × List Char) :=
  match n with
  | 0 => none
  | n + 1 =>
    match skipTrivia false cs with
    | none => none
    | some (']' :: rest) => some ([], rest)
    | some cs =>
      match value? n depth cs with
      | none => none
      | some (item, r) =>
        match skipTrivia false r with
        | some (',' :: r) => (items? n depth r).map fun (items, rest) => (item :: items, rest)
        | some (']' :: rest) => some ([item], rest)
        | _ => none

/-- The entries of a table in braces up to its closing brace, and what follows
it. -/
def pairs? (n depth : Nat) (es : Entries) (cs : List Char) : Option (Entries × List Char) :=
  match n with
  | 0 => none
  | n + 1 =>
    match key? (depthLimit - 1) cs with
    | some (path, '=' :: r) =>
      match value? n depth (skipBlanks r) with
      | none => none
      | some (v, r) =>
        match (splitLast path).bind fun (front, k) => putInBraces front k v es with
        | none => none
        | some es =>
          match skipBlanks r with
          | ',' :: r => pairs? n depth es r
          | '\x7d' :: rest => some (es, rest)
          | _ => none
    | _ => none

end

/-- What a line says. -/
inductive Line where
  | blank
  | header (path : List String)
  | element (path : List String)
  | entry (path : List String) (value : Node)

/-- What follows the end of a line, behind blanks and a comment. -/
def lineEnd? (cs : List Char) : Option (List Char) :=
  let behind (cs : List Char) : Option (List Char) := match cs with
    | [] => some []
    | '\n' :: r => some r
    | '\r' :: '\n' :: r => some r
    | _ => none
  match skipBlanks cs with
  | '#' :: r => behind (r.dropWhile isPlain)
  | r => behind r

/-- A line, without its end, and what follows. -/
def line? (cs : List Char) : Option (Line × List Char) :=
  match skipBlanks cs with
  | [] => some (.blank, [])
  | '#' :: r => some (.blank, '#' :: r)
  | '\n' :: r => some (.blank, '\n' :: r)
  | '\r' :: r => some (.blank, '\r' :: r)
  | '[' :: '[' :: r =>
    match key? (depthLimit - 1) r with
    | some (path, ']' :: ']' :: rest) => some (.element path, rest)
    | _ => none
  | '[' :: r =>
    match key? (depthLimit - 1) r with
    | some (path, ']' :: rest) => some (.header path, rest)
    | _ => none
  | cs =>
    match key? (depthLimit - 1) cs with
    | some (path, '=' :: r) =>
      let r := skipBlanks r
      (value? (2 * r.length + 2) depthLimit r).map fun (v, rest) => (.entry path v, rest)
    | _ => none

/-- The lines of a text. The number bounds how many there are. -/
def lines? : Nat → List Char → Option (List Line)
  | 0, _ => none
  | _ + 1, [] => some []
  | n + 1, cs =>
    match line? cs with
    | none => none
    | some (l, r) =>
      match lineEnd? r with
      | none => none
      | some r => (lines? n r).map (l :: ·)

/-- Enters lines into a tree, one after the other, in the table opened last. -/
def enter? (header : List String) (root : Entries) : List Line → Option Entries
  | [] => some root
  | .blank :: r => enter? header root r
  | .header path :: r =>
    match openTable path root with
    | some root => enter? path root r
    | none => none
  | .element path :: r =>
    match openElement path root with
    | some root => enter? path root r
    | none => none
  | .entry path v :: r =>
    match (splitLast path).bind fun (front, k) => put header front k v root with
    | some root => enter? header root r
    | none => none

/-- The text without a byte order mark at its start. -/
def dropMark : List Char → List Char
  | c :: r => if c.toNat = 0xFEFF then r else c :: r
  | [] => []

/-- The tree of a document. -/
def document? (text : String) : Option Entries :=
  let cs := dropMark text.toList
  (lines? (cs.length + 1) cs).bind (enter? [] [])

end ProbeLink.Toml
