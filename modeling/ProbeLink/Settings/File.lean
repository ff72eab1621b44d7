/-
# Settings from a file

A file of settings is a document with the keys `address` and `log_level` and the
tables `session` and `serial`. A key that is missing keeps its default, and one
that is not known is passed over; a value of the wrong type or out of range
makes the whole file invalid. A table of settings may also be written as an
array of its values in their order, or as a date, which sets nothing.

Key definitions: `Settings.ofEntries?`, `Settings.ofText?`.
-/
import ProbeLink.Settings
import ProbeLink.Toml.Document

namespace ProbeLink.Settings

open Toml (Node Entries)

/-- A number below a limit. -/
def number? (limit : Nat) : Node → Option Nat
  | .integer n => if 0 ≤ n ∧ n.toNat < limit then some n.toNat else none
  | _ => none

def boolean? : Node → Option Bool
  | .boolean b => some b
  | _ => none

def string? : Node → Option String
  | .string s => some s
  | _ => none

/-- The value of a node that may be missing: a default, what it reads as, or
nothing if it reads as nothing. -/
def orDefault {α : Type} (read : Node → Option α) (dflt : α) : Option Node → Option α
  | none => some dflt
  | some n => read n

/-- What a group of settings gives under the name or the place of each of them. -/
def fields? : Node → Option (String → Nat → Option Node)
  | .table _ es => some fun name _ => Entries.get? es name
  | .array items => some fun _ place => items[place]?
  | .tables items => some fun _ place => items[place]?.map (.table .header)
  | .dateTime => some fun _ _ => none
  | _ => none

/-- The settings of a session that a node gives. -/
def session? (n : Node) : Option SessionSettings := do
  let field ← fields? n
  let dflt : SessionSettings := {}
  return {
    replyTimeoutMs :=
      ← orDefault (number? Text.limit64) dflt.replyTimeoutMs (field "reply_timeout_ms" 0)
    maxFrameLen := ← orDefault (number? Text.limit64) dflt.maxFrameLen (field "max_frame_len" 1)
    verifyReplies := ← orDefault boolean? dflt.verifyReplies (field "verify_replies" 2) }

/-- The settings of a serial line that a node gives. -/
def serial? (n : Node) : Option SerialSettings := do
  let field ← fields? n
  let dflt : SerialSettings := {}
  return {
    baudRate := ← orDefault (number? Text.limit32) dflt.baudRate (field "baud_rate" 0)
    pollIntervalMs :=
      ← orDefault (number? Text.limit64) dflt.pollIntervalMs (field "poll_interval_ms" 1) }

/-- The settings that a tree gives. -/
def ofEntries? (es : Entries) : Option Settings := do
  return {
    address := ← orDefault (fun n => (string? n).map some) none (es.get? "address")
    logLevel := ← orDefault (fun n => (string? n).map some) none (es.get? "log_level")
    session := ← orDefault session? {} (es.get? "session")
    serial := ← orDefault serial? {} (es.get? "serial") }

/-- The settings that the text of a file gives. -/
def ofText? (text : String) : Option Settings := (Toml.document? text).bind ofEntries?

end ProbeLink.Settings
