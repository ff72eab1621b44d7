/-
# The two halves below a stream

A port is a medium with a read half and a write half. It says of each half
whether an operation would have to wait; the operation itself is asked for only
when it would not.

Key definition: `Port`.
-/
import ProbeLink.Agent
import ProbeLink.Bytes
import ProbeLink.Link.Error

namespace ProbeLink

/-- A medium with a read half and a write half. -/
class Port (P : Type) where
  /-- A read would not have to wait. -/
  canRead : P → Bool
  /-- Reads the next bytes; none at the end of the stream. -/
  read : P → P × Except IoFault Bytes
  /-- A write of at least one byte would not have to wait. -/
  canWrite : P → Bool
  /-- Writes a beginning of the bytes, and says how many it took. -/
  write : P → Bytes → P × Except IoFault Nat
  flush : P → Except IoFault Unit
  /-- Shuts the write half down. -/
  shutdown : P → P × Except IoFault Unit
  /-- All bytes that the write half took, oldest first. -/
  taken : P → Bytes
  /-- All bytes that the far end has got, oldest first. -/
  delivered : P → Bytes
  helpers : List Agent
  helperReady : P → Agent → Bool
  helperMove : P → Agent → P
  /-- How many bytes are still to be moved. -/
  pending : P → Nat

end ProbeLink
