/-
# Targets

A target frames what it is sent, as the other side does, and remembers the
frames it has got. What it does about a frame is its own affair: it sends bytes
or takes its end of the line away.

Key definitions: `Target`, `Target.hear`, `Target.nextFrame`, `Target.Response`.
-/
import ProbeLink.Framer

namespace ProbeLink

/-- What a target does about a frame. -/
inductive Target.Response where
  | send (bytes : Bytes)
  | hangUp
  deriving DecidableEq, Repr

/-- A target and the frames that it has got. -/
structure Target where
  framer : Framer := { max := Framer.defaultMax }
  /-- All frames, oldest first. -/
  heard : List Packet := []
  deriving DecidableEq, Repr

namespace Target

/-- The packet of a frame, if it is one. -/
def packet? : Frame → Option Packet
  | .packet p => some p
  | _ => none

/-- Takes bytes in. -/
def hear (t : Target) (bytes : Bytes) : Target :=
  { framer := t.framer.after bytes
    heard := t.heard ++ (t.framer.feed bytes).filterMap packet? }

/-- Takes bytes in up to the end of the next frame; the bytes behind it, or
nothing if no frame ends in them. -/
def nextFrame (t : Target) : Bytes → Target × Option Bytes
  | [] => (t, none)
  | b :: r =>
    match t.framer.push b with
    | (framer, some (.packet p)) => ({ framer, heard := t.heard ++ [p] }, some r)
    | (framer, _) => nextFrame { t with framer } r

end Target

end ProbeLink
