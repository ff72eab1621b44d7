/-
# What can be reached

A site is what a program finds around it: serial lines, other files and
directories, each by its path. It has no network. A path is followed from the
root, and the first name in it that leads nowhere decides the fault.

Key definitions: `Site`, `Site.lookUp`, `Site.openLine`, `Site.textAt`.
-/
import ProbeLink.Link.Error

namespace ProbeLink

/-- What is around a program, by path. -/
structure Site where
  /-- Serial lines. -/
  lines : List String := []
  /-- Files that are no terminals, with their contents. -/
  files : List (String × String) := []
  directories : List String := []
  deriving DecidableEq, Repr

/-- What is found at a path. -/
inductive Site.Place where
  | line (path : String)
  | file (contents : String)
  | directory
  deriving DecidableEq, Repr

namespace Site

/-- The longest path and the longest name in it, in bytes. -/
def maxPath : Nat := 4095

def maxName : Nat := 255

/-- What a path without detours leads to. -/
def at? (s : Site) (path : String) : Option Place :=
  if s.lines.contains path then some (.line path)
  else
    match s.files.lookup path with
    | some contents => some (.file contents)
    | none => if s.directories.contains path then some .directory else none

/-- The parts of a text between slashes. -/
def names : List Char → List (List Char)
  | [] => [[]]
  | '/' :: r => [] :: names r
  | c :: r =>
    match names r with
    | n :: ns => (c :: n) :: ns
    | [] => [[c]]

/-- The path to a name in a directory. -/
def inside (dir name : String) : String := if dir = "/" then "/" ++ name else dir ++ "/" ++ name

/-- Follows names; `trail` holds the directories that lead here, the nearest first. -/
def follow (s : Site) (trail : List String) : List (List Char) → Except PathFault Place
  | [] => .ok .directory
  | [] :: r => follow s trail r
  | ['.'] :: r => follow s trail r
  | ['.', '.'] :: r => follow s trail.tail r
  | n :: r =>
    let name := String.ofList n
    let path := inside (trail.head?.getD "/") name
    if maxName < name.utf8ByteSize then .error .nameTooLong
    else
      match s.at? path with
      | none => .error .noSuchFile
      | some .directory => follow s (path :: trail) r
      | some place => if r = [] then .ok place else .error .notADirectory

/-- What a path leads to. -/
def lookUp (s : Site) (path : String) : Except PathFault Place :=
  if path.toList.contains (Char.ofNat 0) then .error .notAPath
  else if path = "" then .error .noSuchFile
  else if maxPath < path.utf8ByteSize then .error .nameTooLong
  else s.follow [] (names path.toList)

/-- The path of the serial line that an address leads to. -/
def openLine (s : Site) : Address → Except LinkError String
  | .tcp _ => .error (.io .networkUnreachable)
  | .serial path =>
    match s.lookUp path with
    | .ok (.line path) => .ok path
    | .ok (.file _) => .error (.serial .notATerminal)
    | .ok .directory => .error (.serial .isADirectory)
    | .error fault => .error (.serial fault)

/-- The contents of a file. -/
def textAt (s : Site) (path : String) : Except PathFault String :=
  match s.lookUp path with
  | .ok (.file contents) => .ok contents
  | .ok (.line _) => .ok ""
  | .ok .directory => .error .isADirectory
  | .error fault => .error fault

end Site

end ProbeLink
