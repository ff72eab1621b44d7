/-
# Links

A link carries bytes to the target and back. Its operations take time: an agent
begins one, and if it is not over at once the agent waits until it can be moved
on, one step after another, until it answers. At most one operation of an agent
is under way. An operation given up leaves behind what it has done so far.

A link can be closed by anyone at any time. Whatever helpers a link has, such as
the far end of a pipe, move on their own.

Key definitions: `Link`, `Progress`.
-/
import ProbeLink.Agent
import ProbeLink.Bytes
import ProbeLink.Link.Error

namespace ProbeLink

/-- The answer of an operation, if it is over. -/
abbrev Progress (α : Type) := Option (Except LinkError α)

/-- A kind of link. -/
class Link (L : Type) where
  isClosed : L → Bool
  /-- Everything that was put on the wire, oldest first. -/
  wire : L → Bytes
  /-- Everything that the target has got, oldest first. -/
  delivered : L → Bytes
  /-- The agent's operation under way can be moved on. -/
  ready : L → Agent → Bool
  /-- Begins to read one byte. -/
  beginRead : L → Agent → L × Progress UInt8
  resumeRead : L → Agent → L × Progress UInt8
  /-- Begins to write all of a byte string. -/
  beginWrite : L → Agent → Bytes → L × Progress Unit
  resumeWrite : L → Agent → L × Progress Unit
  /-- Closes the link and begins to let go of what is below it. -/
  beginShutdown : L → Agent → L × Progress Unit
  resumeShutdown : L → Agent → L × Progress Unit
  /-- Gives up the agent's operation under way. -/
  cancel : L → Agent → L
  close : L → L
  helpers : List Agent
  helperReady : L → Agent → Bool
  helperMove : L → Agent → L
  /-- How many bytes are still to be moved by anyone. -/
  pending : L → Nat

end ProbeLink
