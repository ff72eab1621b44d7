/-
# Links with a target at the far end

What the target sends is read in the order in which it was sent, each byte once,
and what was put on the wire stays there. A link may keep bytes back for any
length of time; operations may be begun, given up or cut off by a close in the
meantime, and still nothing is made up, lost or turned around.

Key definitions: `Onward`, `Reads`, `FarEnd`.
-/
import Mathlib.Data.List.Basic
import ProbeLink.Link.Pipe
import ProbeLink.Link.Script
import ProbeLink.Link.Serial
import ProbeLink.Link.Stream

namespace ProbeLink

section Laws

variable {L : Type} [Link L]

/-- Nothing is read, and the wire may get longer. -/
structure Onward (incoming : L → Bytes) (l l' : L) : Prop where
  incoming : incoming l' = incoming l
  wire : Link.wire l <+: Link.wire l'

/-- A byte that is read was the next one to come. -/
structure Reads (incoming : L → Bytes) (l : L) (r : L × Progress UInt8) : Prop where
  wire : Link.wire l <+: Link.wire r.1
  waits : r.2 = none → incoming r.1 = incoming l
  takes : ∀ b, r.2 = some (.ok b) → incoming l = b :: incoming r.1

end Laws

/-- A link that a target sends over. -/
class FarEnd (L : Type) [Link L] where
  /-- What the target has sent and nobody has read, oldest first. -/
  incoming : L → Bytes
  /-- The target can send. -/
  accepts : L → Bool
  send : L → Bytes → L
  incoming_send {l : L} (bytes : Bytes) : accepts l = true →
    incoming (send l bytes) = incoming l ++ bytes
  wire_send (l : L) (bytes : Bytes) : Link.wire (send l bytes) = Link.wire l
  delivered (l : L) : Link.delivered l <+: Link.wire l
  beginRead (l : L) (a : Agent) : Reads incoming l (Link.beginRead l a)
  resumeRead (l : L) (a : Agent) : Reads incoming l (Link.resumeRead l a)
  beginWrite (l : L) (a : Agent) (bytes : Bytes) :
    Onward incoming l (Link.beginWrite l a bytes).1
  resumeWrite (l : L) (a : Agent) : Onward incoming l (Link.resumeWrite l a).1
  beginShutdown (l : L) (a : Agent) : Onward incoming l (Link.beginShutdown l a).1
  resumeShutdown (l : L) (a : Agent) : Onward incoming l (Link.resumeShutdown l a).1
  cancel (l : L) (a : Agent) : Onward incoming l (Link.cancel l a)
  close (l : L) : Onward incoming l (Link.close l)
  helperMove (l : L) (a : Agent) : Onward incoming l (Link.helperMove l a)

/-! ### Scripted links -/

namespace ScriptLink

/-- The bytes in front of the first fault. -/
def bytesAhead : List Item → Bytes
  | .byte b :: r => b :: bytesAhead r
  | .fault _ :: _ => []
  | [] => []

/-- No fault lies ahead. -/
def clear : List Item → Bool
  | .byte _ :: r => clear r
  | .fault _ :: _ => false
  | [] => true

theorem bytesAhead_append : ∀ {items : List Item}, clear items = true → ∀ bytes : Bytes,
    bytesAhead (items ++ bytes.map .byte) = bytesAhead items ++ bytes
  | [], _, [] => rfl
  | [], h, b :: bytes => by
    have ih := bytesAhead_append h bytes
    simpa [bytesAhead] using ih
  | .byte b :: r, h, bytes => by
    have ih := bytesAhead_append (show clear r = true from h) bytes
    simp only [List.cons_append, bytesAhead, ih]

/-- What is written before is in front of what is written later. -/
theorem wire_foldl (out : Bytes) : ∀ r : List Event,
    r.foldl (fun out e => match e with
      | .wrote bytes => bytes ++ out
      | _ => out) out = ({ record := r } : ScriptLink).wire ++ out
  | [] => rfl
  | .wrote bytes :: r => by
    have hfirst : ({ record := .wrote bytes :: r } : ScriptLink).wire
        = ({ record := r } : ScriptLink).wire ++ bytes :=
      (wire_foldl (bytes ++ []) r).trans (by rw [List.append_nil])
    rw [hfirst, List.append_assoc]
    exact wire_foldl (bytes ++ out) r
  | .read _ :: r | .readFailed _ :: r | .writeFailed _ :: r | .lateWrite :: r | .closed :: r =>
    wire_foldl out r

/-- Noting something keeps what is on the wire. -/
theorem wire_note (l : ScriptLink) (e : Event) : l.wire <+: (l.note e).wire := by
  cases e with
  | wrote bytes => exact ⟨bytes ++ [], (wire_foldl (bytes ++ []) l.record).symm⟩
  | _ => exact List.prefix_rfl

theorem close_onward (l : ScriptLink) :
    Onward (fun l : ScriptLink => bytesAhead l.inbox) l l.close := by
  unfold close
  split
  · exact ⟨rfl, List.prefix_rfl⟩
  · exact ⟨rfl, wire_note _ _⟩

/-- A read that is over has read what came next. -/
theorem read_reads (l : ScriptLink) :
    Reads (fun l : ScriptLink => bytesAhead l.inbox) l l.read := by
  unfold read
  split
  · exact ⟨wire_note _ _, nofun, nofun⟩
  · split
    · rename_i b r hi
      refine ⟨wire_note _ _, nofun, fun c hc => ?_⟩
      cases hc
      simp only [hi, bytesAhead, note]
    · exact ⟨wire_note _ _, nofun, nofun⟩
    · exact ⟨List.prefix_rfl, fun _ => rfl, nofun⟩

end ScriptLink

instance : FarEnd ScriptLink where
  incoming l := ScriptLink.bytesAhead l.inbox
  accepts l := ScriptLink.clear l.inbox
  send := ScriptLink.offerBytes
  incoming_send bytes h := ScriptLink.bytesAhead_append h bytes
  wire_send _ _ := rfl
  delivered _ := List.prefix_rfl
  beginRead l a := by
    have h := l.read_reads
    simp only [Link.beginRead, ScriptLink.beginRead]
    split <;> rename_i hr <;> rw [hr] at h
    · exact h
    · exact ⟨h.wire, h.waits, nofun⟩
  resumeRead l a := by
    have h := l.read_reads
    simp only [Link.resumeRead, ScriptLink.resumeRead]
    split <;> rename_i hr <;> rw [hr] at h
    · exact ⟨h.wire, nofun, h.takes⟩
    · exact h
  beginWrite l a bytes := by
    simp only [Link.beginWrite, ScriptLink.write]
    split
    · exact ⟨rfl, ScriptLink.wire_note _ _⟩
    · split <;> exact ⟨rfl, ScriptLink.wire_note _ _⟩
  resumeWrite _ _ := ⟨rfl, List.prefix_rfl⟩
  beginShutdown l a := by
    simp only [Link.beginShutdown, ScriptLink.shutdown]
    split <;> exact l.close_onward
  resumeShutdown _ _ := ⟨rfl, List.prefix_rfl⟩
  cancel _ _ := ⟨rfl, List.prefix_rfl⟩
  close := ScriptLink.close_onward
  helperMove _ _ := ⟨rfl, List.prefix_rfl⟩

/-! ### Serial lines -/

namespace SerialLine

/-- A byte that is taken out was the next one to come. -/
theorem draw_reads (l : SerialLine) : Reads SerialLine.inbox l l.draw := by
  unfold draw
  split
  · rename_i b r hi
    refine ⟨List.prefix_rfl, nofun, fun c hc => ?_⟩
    cases hc
    exact hi
  · split
    · exact ⟨List.prefix_rfl, fun _ => rfl, nofun⟩
    · split <;> exact ⟨List.prefix_rfl, nofun, nofun⟩

theorem beginRead_reads (l : SerialLine) (a : Agent) :
    Reads SerialLine.inbox l (l.beginRead a) := by
  have h : Reads SerialLine.inbox l l.read := by
    unfold read
    split
    · exact ⟨List.prefix_rfl, nofun, nofun⟩
    · exact l.draw_reads
  unfold beginRead
  split <;> rename_i hr <;> rw [hr] at h
  · exact h
  · exact ⟨h.wire, h.waits, nofun⟩

theorem resumeRead_reads (l : SerialLine) (a : Agent) :
    Reads SerialLine.inbox l (l.resumeRead a) := by
  unfold resumeRead
  dsimp only
  split
  · exact ⟨List.prefix_rfl, nofun, nofun⟩
  · have h := draw_reads { l with readers := l.readers.erase a, luck := 0 }
    split <;> rename_i hr <;> rw [hr] at h
    · exact ⟨h.wire, nofun, h.takes⟩
    · exact ⟨List.prefix_rfl, fun _ => rfl, nofun⟩

theorem write_onward (l : SerialLine) (bytes : Bytes) :
    Onward SerialLine.inbox l (l.write bytes).1 := by
  unfold write
  split
  · exact ⟨rfl, List.prefix_rfl⟩
  · split
    · exact ⟨rfl, List.prefix_rfl⟩
    · exact ⟨rfl, List.prefix_append _ _⟩

/-- The porter puts something on the wire or not, and reads nothing. -/
theorem carry_onward (l : SerialLine) : Onward SerialLine.inbox l l.carry := by
  unfold carry
  split
  · exact ⟨rfl, List.prefix_rfl⟩
  · rename_i job _
    have h := write_onward { l with jobs := l.jobs.eraseIdx l.nextJob, luck := 0 } job.bytes
    dsimp only
    split <;> exact ⟨h.incoming, h.wire⟩

end SerialLine

instance : FarEnd SerialLine where
  incoming := SerialLine.inbox
  accepts _ := true
  send := SerialLine.offer
  incoming_send _ _ := rfl
  wire_send _ _ := rfl
  delivered _ := List.prefix_rfl
  beginRead := SerialLine.beginRead_reads
  resumeRead := SerialLine.resumeRead_reads
  beginWrite l a bytes := by
    simp only [Link.beginWrite, SerialLine.beginWrite]
    split <;> exact ⟨rfl, List.prefix_rfl⟩
  resumeWrite l a := by
    simp only [Link.resumeWrite, SerialLine.resumeWrite]
    split <;> exact ⟨rfl, List.prefix_rfl⟩
  beginShutdown _ _ := ⟨rfl, List.prefix_rfl⟩
  resumeShutdown _ _ := ⟨rfl, List.prefix_rfl⟩
  cancel _ _ := ⟨rfl, List.prefix_rfl⟩
  close _ := ⟨rfl, List.prefix_rfl⟩
  helperMove l a := by
    cases a with
    | porter => exact l.carry_onward
    | _ => exact ⟨rfl, List.prefix_rfl⟩

/-! ### Streams over a pipe -/

namespace StreamLink

/-- What the target has sent: read ahead, in the pipe, or on its way into it. -/
def underWay (l : StreamLink Pipe) : Bytes := l.buffered ++ l.port.inbound ++ l.port.offered

/-- A byte that is taken out was the next one to come. -/
theorem draw_reads (l : StreamLink Pipe) : Reads underWay l (l.draw.1, some l.draw.2) := by
  cases hb : l.buffered with
  | cons b r =>
    simp only [draw, hb]
    refine ⟨List.prefix_rfl, nofun, fun c hc => ?_⟩
    cases hc
    simp only [underWay, hb, List.cons_append]
  | nil =>
    have hall := List.take_append_drop Pipe.readAhead l.port.inbound
    cases ht : l.port.inbound.take Pipe.readAhead with
    | nil =>
      simp only [draw, hb, Port.read, Pipe.read, ht]
      exact ⟨List.prefix_rfl, nofun, nofun⟩
    | cons b r =>
      simp only [draw, hb, Port.read, Pipe.read, ht]
      refine ⟨List.prefix_rfl, nofun, fun c hc => ?_⟩
      cases hc
      rw [ht] at hall
      simp only [underWay, hb, List.nil_append]
      exact congrArg (· ++ l.port.offered) hall.symm

theorem resumeRead_reads (l : StreamLink Pipe) (a : Agent) :
    Reads underWay l (l.resumeRead a) := by
  unfold resumeRead
  dsimp only
  split
  · exact ⟨List.prefix_rfl, nofun, nofun⟩
  · have h := draw_reads { l with readers := l.readers.erase a, flagFirst := false }
    exact ⟨h.wire, h.waits, h.takes⟩

theorem resumeWrite_onward (l : StreamLink Pipe) (a : Agent) :
    Onward underWay l (l.resumeWrite a).1 := by
  unfold resumeWrite
  split
  · split
    · unfold release
      split <;> exact ⟨rfl, List.prefix_rfl⟩
    · split <;> exact ⟨rfl, List.prefix_rfl⟩
  · split <;> exact ⟨rfl, List.prefix_rfl⟩
  · rename_i rest _ _
    simp only [Port.write, Pipe.write]
    split <;> rename_i hw <;> split at hw <;> cases hw
    · refine ⟨rfl, ?_⟩
      simp only [Link.wire, Port.taken, keepWriting, ← List.append_assoc]
      exact List.prefix_append _ _
    · exact ⟨rfl, List.prefix_rfl⟩
  · exact ⟨rfl, List.prefix_rfl⟩

theorem close_onward (l : StreamLink Pipe) : Onward underWay l l.close := by
  simp only [close, release]
  repeat' split
  all_goals exact ⟨rfl, List.prefix_rfl⟩

/-- The far end moves bytes on and keeps their order. -/
theorem helperMove_onward (l : StreamLink Pipe) (a : Agent) :
    Onward underWay l (l.helperMove a) := by
  cases a with
  | farWriter =>
    simp only [helperMove, Port.helperMove, Pipe.farWrite]
    split
    · exact ⟨rfl, List.prefix_rfl⟩
    · refine ⟨?_, List.prefix_rfl⟩
      simp only [underWay, List.append_assoc, List.take_append_drop]
  | farReader =>
    refine ⟨rfl, ?_⟩
    simp only [Link.wire, Port.taken, helperMove, Port.helperMove, Pipe.farRead, List.append_nil]
    exact List.prefix_rfl
  | _ => exact ⟨rfl, List.prefix_rfl⟩

end StreamLink

instance : FarEnd (StreamLink Pipe) where
  incoming := StreamLink.underWay
  accepts l := !(l.port.gone || l.port.ending)
  send l bytes := { l with port := l.port.offer bytes }
  incoming_send bytes h := by
    rw [Bool.not_eq_true'] at h
    simp only [StreamLink.underWay, Pipe.offer, h, Bool.false_eq_true, if_false, List.append_assoc]
  wire_send l bytes := by
    simp only [Link.wire, Port.taken, Pipe.offer]
    split <;> rfl
  delivered _ := List.prefix_append _ _
  beginRead l a := by
    simp only [Link.beginRead, StreamLink.beginRead]
    split
    · exact ⟨List.prefix_rfl, nofun, nofun⟩
    · exact ⟨List.prefix_rfl, fun _ => rfl, nofun⟩
  resumeRead := StreamLink.resumeRead_reads
  beginWrite l a bytes := by
    simp only [Link.beginWrite, StreamLink.beginWrite]
    split <;> exact ⟨rfl, List.prefix_rfl⟩
  resumeWrite := StreamLink.resumeWrite_onward
  beginShutdown _ _ := ⟨rfl, List.prefix_rfl⟩
  resumeShutdown l a := by
    simp only [Link.resumeShutdown, StreamLink.resumeShutdown, Port.shutdown]
    split <;> exact ⟨rfl, List.prefix_rfl⟩
  cancel _ _ := ⟨rfl, List.prefix_rfl⟩
  close := StreamLink.close_onward
  helperMove := StreamLink.helperMove_onward

end ProbeLink
