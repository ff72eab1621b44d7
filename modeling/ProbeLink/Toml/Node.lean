/-
# The tree of a TOML document

A node is a value or a table. Tables remember how they came about, because that
decides what may be added to them later: a table is defined at most once, by a
header or by dotted keys, and a table in braces is complete where it stands.

Entering a node at a path makes the tables on the way that are not there yet
(`Entries.update`). Nothing is ever replaced.

Key definitions: `Toml.Node`, `Toml.openTable`, `Toml.openElement`,
`Toml.putIn`, `Toml.put`.
-/

namespace ProbeLink.Toml

/-- How a table came about. -/
inductive Origin where
  /-- By its own header, or as the whole document. -/
  | header
  /-- On the way to the table of a longer header. -/
  | implied
  /-- By dotted keys. -/
  | dotted
  /-- In braces. -/
  | braces
  /-- By dotted keys within braces. -/
  | bracesDotted
  deriving DecidableEq, Repr

/-- A value or a table. -/
inductive Node where
  | string (s : String)
  | integer (n : Int)
  | float
  | boolean (b : Bool)
  | dateTime
  | array (items : List Node)
  | table (origin : Origin) (entries : List (String × Node))
  /-- Tables under one repeated header, the latest last. -/
  | tables (items : List (List (String × Node)))

/-- The entries of a table, in the order in which they were made. -/
abbrev Entries := List (String × Node)

namespace Entries

def get? (es : Entries) (k : String) : Option Node := List.lookup k es

/-- Changes the node under a key, which may be missing, or makes it. -/
def update (es : Entries) (k : String) (f : Option Node → Option Node) : Option Entries :=
  match es with
  | [] => (f none).map fun n => [(k, n)]
  | (k', n) :: r =>
    if k' = k then (f (some n)).map fun n => (k', n) :: r
    else (update r k f).map fun r => (k', n) :: r

end Entries

/-- Changes the latest of some tables. -/
def updateLatest (f : Entries → Option Entries) : List Entries → Option (List Entries)
  | [] => none
  | [t] => (f t).map fun t => [t]
  | t :: r => (updateLatest f r).map (t :: ·)

/-- Changes the table at the end of a header's path. Tables that are missing on
the way are implied; a value on the way refuses. -/
def within : List String → (Entries → Option Entries) → Entries → Option Entries
  | [], f, es => f es
  | k :: path, f, es =>
    es.update k fun
      | none => (within path f []).map (.table .implied)
      | some (.table .braces _) => none
      | some (.table .bracesDotted _) => none
      | some (.table origin inner) => (within path f inner).map (.table origin)
      | some (.tables items) => (updateLatest (within path f) items).map .tables
      | some _ => none

/-- The parts of a path before its last key, and that key. -/
def splitLast : List String → Option (List String × String)
  | [] => none
  | [k] => some ([], k)
  | k :: r => (splitLast r).map fun (front, last) => (k :: front, last)

/-- Opens the table of a header. A table that was only implied may be opened
once. -/
def openTable (path : List String) (root : Entries) : Option Entries :=
  match splitLast path with
  | none => none
  | some (front, k) =>
    within front (fun es => es.update k fun
      | none => some (.table .header [])
      | some (.table .implied inner) => some (.table .header inner)
      | some _ => none) root

/-- Opens one more table under a repeated header. -/
def openElement (path : List String) (root : Entries) : Option Entries :=
  match splitLast path with
  | none => none
  | some (front, k) =>
    within front (fun es => es.update k fun
      | none => some (.tables [[]])
      | some (.tables items) => some (.tables (items ++ [[]]))
      | some _ => none) root

/-- Makes an entry under a key that has none. -/
def putNew (k : String) (n : Node) (es : Entries) : Option Entries :=
  es.update k fun
    | none => some n
    | some _ => none

/-- Makes an entry under a dotted key. Each table on the way is made by dotted
keys, or is only passed through: the last of them has to be one that dotted keys
made. -/
def putDotted (made : Origin) : List String → String → Node → Entries → Option Entries
  | [], k, n, es => putNew k n es
  | [step], k, n, es =>
    es.update step fun
      | none => (putNew k n []).map (.table made)
      | some (.table origin inner) =>
        if origin = made then (putNew k n inner).map (.table origin) else none
      | some _ => none
  | step :: path, k, n, es =>
    es.update step fun
      | none => (putDotted made path k n []).map (.table made)
      | some (.table origin inner) =>
        if origin = made ∨ (origin = .implied ∧ made = .dotted) then
          (putDotted made path k n inner).map (.table origin)
        else none
      | some (.tables items) =>
        if made = .dotted then (updateLatest (putDotted made path k n) items).map .tables
        else none
      | some _ => none

/-- Makes an entry in the table of a header. -/
def put (header : List String) (path : List String) (k : String) (n : Node) (root : Entries) :
    Option Entries :=
  within header (putDotted .dotted path k n) root

/-- Makes an entry in a table in braces. -/
def putInBraces (path : List String) (k : String) (n : Node) (es : Entries) : Option Entries :=
  putDotted .bracesDotted path k n es

end ProbeLink.Toml
