/-
# The reading agent is a fold over what the framer says

A session that is alone with its reading agent takes the bytes of a scripted link
one by one. As long as no write fails, the framer's verdict on a byte decides what
is written before the next read (`response`), who gets a packet, and which
counters move. So the session that has dealt with some bytes is a function of
those bytes (`Session.caughtUp`), and the loop goes through them up to the end of
the stream (`Session.Listening.run`). Every schedule comes to that end, and the
fair one gets there (`Session.reads_through`).

Key definitions: `response`, `ReaderRun`, `Session.caughtUp`, `Session.hungUp`,
`Session.listening`, `Session.ReadThrough`.
Key theorems: `Session.Listening.run`, `ReaderRun.of_moves`, `Session.reads_through`.
-/
import Mathlib.Data.List.Basic
import ProbeLink.Link.Script
import ProbeLink.Proofs.Segments
import ProbeLink.Session.Moves

namespace ProbeLink

/-! ### What the framer says, sorted -/

namespace Frame

/-- The packet of a reply. -/
@[simp] def reply? : Frame → Option Packet
  | .packet p => if p.kind = .reply then some p else none
  | .nak => none
  | .error _ => none

/-- The packet of a notification. -/
@[simp] def notification? : Frame → Option Packet
  | .packet p => if p.kind = .notification then some p else none
  | .nak => none
  | .error _ => none

@[simp] def isNak : Frame → Bool
  | .packet _ => false
  | .nak => true
  | .error _ => false

@[simp] def isError : Frame → Bool
  | .packet _ => false
  | .nak => false
  | .error _ => true

end Frame

/-- What is written because of a verdict, if `last` is the frame sent last. -/
@[simp] def response (last : Option Bytes) : Option Frame → List Bytes
  | some (.packet p) => if p.kind = .reply then [[ackByte]] else []
  | some .nak => last.toList
  | _ => []

/-- The reads and writes that bytes with their verdicts bring about. -/
def readTrace (last : Option Bytes) (bs : List (UInt8 × Option Frame)) : List ScriptLink.Event :=
  bs.flatMap fun b => .read b.1 :: (response last b.2).map .wrote

/-! ### What is left of a scripted link after a write or a read -/

namespace ScriptLink

/-- The link after a write that went well. -/
def wrote (l : ScriptLink) (bytes : Bytes) : ScriptLink :=
  { l with attempts := l.attempts + 1, record := .wrote bytes :: l.record }

/-- The link after a byte is read. -/
def took (l : ScriptLink) (b : UInt8) : ScriptLink :=
  { l with inbox := l.inbox.tail, record := .read b :: l.record }

/-- No write fails, and the link is open. -/
structure Sound (l : ScriptLink) : Prop where
  isOpen : l.isClosed = false
  noFault : l.writeFault = fun _ => none

/-- The link is open, and the next write goes through. -/
structure Accepts (l : ScriptLink) : Prop where
  isOpen : l.isClosed = false
  noFault : l.writeFault l.attempts = none

theorem Accepts.beginWrite {l : ScriptLink} (h : l.Accepts) (a : Agent) (bytes : Bytes) :
    Link.beginWrite l a bytes = (l.wrote bytes, some (.ok ())) := by
  simp [Link.beginWrite, write, h.isOpen, h.noFault, note, wrote]

theorem beginRead_byte {l : ScriptLink} (hopen : l.isClosed = false) (a : Agent) {b : UInt8}
    {r : List Item} (hi : l.inbox = .byte b :: r) :
    Link.beginRead l a = (l.took b, some (.ok b)) := by
  simp [Link.beginRead, beginRead, read, hopen, hi, note, took]

theorem beginRead_fault {l : ScriptLink} (hopen : l.isClosed = false) (a : Agent) {e : LinkError}
    {r : List Item} (hi : l.inbox = .fault e :: r) :
    Link.beginRead l a
      = ({ l with inbox := r, record := .readFailed e :: l.record }, some (.error e)) := by
  simp [Link.beginRead, beginRead, read, hopen, hi, note]

/-- A shutdown closes the link, whether or not it goes well. -/
theorem beginShutdown_open {l : ScriptLink} (hopen : l.isClosed = false) (a : Agent) :
    ∃ r, Link.beginShutdown l a
      = ({ l with isClosed := true, record := .closed :: l.record }, some r) := by
  simp only [Link.beginShutdown, shutdown, close, hopen, note, Bool.false_eq_true, if_false]
  cases l.shutdownFault <;> exact ⟨_, rfl⟩

end ScriptLink

namespace Outlet

variable {w : Outlet} {l : ScriptLink}

/-- An acknowledgement is written at once if nobody else is in line. -/
theorem move_ack (hw : w.line = []) (hl : l.Accepts) (a : Agent) :
    (w.enter a .ack).move l a = (w, l.wrote [ackByte], some (.ok .sent)) := by
  obtain ⟨line, last⟩ := w
  obtain rfl : line = [] := hw
  simp [enter, move, begin, hl.beginWrite, after, without]

/-- The last frame is written again at once if nobody else is in line. -/
theorem move_again (hw : w.line = []) (hl : w.last ≠ none → l.Accepts) (a : Agent) :
    (w.enter a .again).move l a = match w.last with
      | some bytes => (w, l.wrote bytes, some (.ok .sent))
      | none => (w, l, some (.ok .nothing)) := by
  obtain ⟨line, last⟩ := w
  obtain rfl : line = [] := hw
  cases last with
  | none => simp [enter, move, without]
  | some bytes => simp [enter, move, begin, (hl nofun).beginWrite, after, without]

end Outlet

/-! ### The reading agent issues no call -/

namespace Session

theorem calls_takeByte {L : Type} (s : Session L) (b : UInt8) : (s.takeByte b).calls = s.calls := by
  unfold takeByte
  split
  · rfl
  · simp only [route, handOver]
    repeat' split
    all_goals rfl
  · rfl
  · rfl

variable {L : Type} [Link L]

theorem calls_endReader (s : Session L) (result : Except SessionError Unit) :
    (s.endReader result).calls = s.calls := by
  simp only [endReader]
  split <;> rfl

theorem calls_moveReader (s : Session L) : s.moveReader.calls = s.calls := by
  unfold moveReader
  split
  · unfold afterRead
    split <;> simp [calls_takeByte, failReader, calls_endReader]
  · unfold afterRead
    split <;> simp [calls_takeByte, failReader, calls_endReader]
  · unfold afterAck
    split <;> simp [count, failReader, calls_endReader]
  · unfold afterResend
    split <;> simp [count, failReader, calls_endReader]
  · split <;> rfl
  · rfl

end Session

/-! ### Runs of the reading agent -/

section Runs

variable {L : Type} [Link L]

/-- The reading agent moves `n` times in a row. -/
inductive ReaderRun : ℕ → Session L → Session L → Prop where
  | refl (s : Session L) : ReaderRun 0 s s
  | move {n : ℕ} {s t : Session L} : s.readerReady = true → ReaderRun n s.moveReader t →
      ReaderRun (n + 1) s t

theorem ReaderRun.trans {k n : ℕ} {s t u : Session L} (h : ReaderRun k s t) (h' : ReaderRun n t u) :
    ReaderRun (k + n) s u := by
  induction h with
  | refl => simpa using h'
  | @move k _ _ hr _ ih => rw [Nat.add_right_comm]; exact .move hr (ih h')

/-- Without calls and helpers the reading agent is the only one that can move. -/
theorem eq_reader_of_ready {s : Session L} (hc : s.calls = [])
    (hh : ∀ a, Link.helperReady s.link a = false) {a : Agent} (ha : Interplay.ready s a = true) :
    a = .reader := by
  cases a with
  | reader => rfl
  | call n => simp [Interplay.ready, Session.callReady, hc] at ha
  | release | porter | chance | farWriter | farReader => simp [Interplay.ready, hh] at ha

end Runs

/-! ### A rendezvous that hears several replies -/

namespace Rendezvous

/-- Hands packets over one after the other: the rendezvous after it, and how many
were dropped. -/
def offerAll (m : Rendezvous) : List Packet → Rendezvous × ℕ
  | [] => (m, 0)
  | p :: ps =>
    (((m.offer p).1.offerAll ps).1,
      (if (m.offer p).2 then 0 else 1) + ((m.offer p).1.offerAll ps).2)

theorem offerAll_append (m : Rendezvous) : ∀ ps qs : List Packet, m.offerAll (ps ++ qs)
    = (((m.offerAll ps).1.offerAll qs).1, (m.offerAll ps).2 + ((m.offerAll ps).1.offerAll qs).2)
  | [], qs => by simp [offerAll]
  | p :: ps, qs => by simp [offerAll, offerAll_append _ ps qs, Nat.add_assoc]

/-- With nobody waiting every packet is dropped. -/
theorem offerAll_of_unclaimed {m : Rendezvous} (hm : m.slot = none) :
    ∀ ps : List Packet, m.offerAll ps = (m, ps.length)
  | [] => rfl
  | p :: ps => by
    have ho : m.offer p = (m, false) := by simp [offer, hm]
    simp [offerAll, ho, offerAll_of_unclaimed hm ps, Nat.add_comm]

end Rendezvous

/-- Queues packets one after the other. -/
def Notifications.pushAll (q : Notifications) (ps : List Packet) : Notifications :=
  { q with queued := q.queued.map (· ++ ps) }

theorem Notifications.pushAll_nil (q : Notifications) : q.pushAll [] = q := by
  obtain ⟨_ | ps, sinks⟩ := q <;> simp [pushAll]

theorem Notifications.pushAll_singleton (q : Notifications) (p : Packet) :
    q.pushAll [p] = (q.push p).1 := by
  obtain ⟨_ | ps, sinks⟩ := q <;> rfl

theorem Notifications.pushAll_append (q : Notifications) (ps qs : List Packet) :
    q.pushAll (ps ++ qs) = (q.pushAll ps).pushAll qs := by
  obtain ⟨_ | rs, sinks⟩ := q <;> simp [pushAll]

/-! ### The session once it has read some bytes -/

namespace Counters

/-- The counters once the framer has said `out`, of which `dropped` replies found
nobody waiting; a request to repeat counts only if something was sent before. -/
def tally (c : Counters) (sentBefore : Bool) (dropped : ℕ) (out : List Frame) : Counters :=
  { c with
    acksSent := c.acksSent + (out.filterMap Frame.reply?).length
    droppedReplies := c.droppedReplies + dropped
    framingErrors := c.framingErrors + out.countP Frame.isError
    notifications := c.notifications + (out.filterMap Frame.notification?).length
    replies := c.replies + (out.filterMap Frame.reply?).length
    retransmits := c.retransmits + if sentBefore then out.countP Frame.isNak else 0 }

theorem tally_append (c : Counters) (sentBefore : Bool) (d d' : ℕ) (out out' : List Frame) :
    (c.tally sentBefore d out).tally sentBefore d' out'
      = c.tally sentBefore (d + d') (out ++ out') := by
  cases sentBefore <;> simp [tally, Nat.add_assoc]

end Counters

namespace Session

/-- The session once its reading agent has dealt with the bytes. -/
def caughtUp (s : Session ScriptLink) (input : Bytes) : Session ScriptLink :=
  let out := s.framer.feed input
  let trace := readTrace s.outlet.last (input.zip (s.framer.verdicts input))
  { s with
    framer := s.framer.after input
    link := { s.link with
      inbox := s.link.inbox.drop input.length
      attempts := s.link.attempts
        + ((s.framer.verdicts input).flatMap (response s.outlet.last)).length
      record := trace.reverse ++ s.link.record }
    rendezvous := (s.rendezvous.offerAll (out.filterMap Frame.reply?)).1
    notifications := s.notifications.pushAll (out.filterMap Frame.notification?)
    counters := s.counters.tally s.outlet.last.isSome
      (s.rendezvous.offerAll (out.filterMap Frame.reply?)).2 out }

/-- The session once its reading agent has met the end of the stream. -/
def hungUp (s : Session ScriptLink) (e : LinkError) : Session ScriptLink :=
  { s with
    link := { s.link with
      inbox := s.link.inbox.tail
      isClosed := true
      record := .closed :: .readFailed e :: s.link.record }
    rendezvous := s.rendezvous.close
    reader := .ended (if e.isClosed then .ok () else .error (.link e)) }

/-- The reading agent is between two bytes of an open link, and nobody else writes. -/
structure Hearing (s : Session ScriptLink) (input : Bytes) (e : LinkError) : Prop where
  idle : s.reader = .idle
  line : s.outlet.line = []
  isOpen : s.link.isClosed = false
  inbox : s.link.inbox = input.map .byte ++ [.fault e]

/-- The reading agent is between two bytes, and nothing is in its way. -/
structure Listening (s : Session ScriptLink) (input : Bytes) (e : LinkError) : Prop where
  idle : s.reader = .idle
  line : s.outlet.line = []
  link : s.link.Sound
  inbox : s.link.inbox = input.map .byte ++ [.fault e]

theorem Listening.hearing {s : Session ScriptLink} {input : Bytes} {e : LinkError}
    (h : s.Listening input e) : s.Hearing input e :=
  ⟨h.idle, h.line, h.link.isOpen, h.inbox⟩

/-- Bytes are dealt with one after the other. -/
theorem caughtUp_append (s : Session ScriptLink) (a b : Bytes) :
    (s.caughtUp a).caughtUp b = s.caughtUp (a ++ b) := by
  have hzip : (a ++ b).zip (s.framer.verdicts a ++ (s.framer.after a).verdicts b)
      = a.zip (s.framer.verdicts a) ++ b.zip ((s.framer.after a).verdicts b) :=
    List.zip_append (Framer.verdicts_length _ _).symm
  simp only [caughtUp, Framer.after_append, Framer.feed_append, Framer.verdicts_append, hzip,
    readTrace, List.flatMap_append, List.reverse_append, List.append_assoc, List.length_append,
    List.drop_drop, List.filterMap_append, Rendezvous.offerAll_append,
    Notifications.pushAll_append, Counters.tally_append, Nat.add_assoc]

theorem Hearing.after_byte {s : Session ScriptLink} {b : UInt8} {r : Bytes} {e : LinkError}
    (h : s.Hearing (b :: r) e) : (s.caughtUp [b]).Hearing r e :=
  ⟨h.idle, h.line, h.isOpen, by simp [caughtUp, h.inbox]⟩

theorem Listening.after_byte {s : Session ScriptLink} {b : UInt8} {r : Bytes} {e : LinkError}
    (h : s.Listening (b :: r) e) : (s.caughtUp [b]).Listening r e :=
  ⟨h.idle, h.line, ⟨h.link.isOpen, h.link.noFault⟩, h.hearing.after_byte.inbox⟩

theorem Hearing.ready {s : Session ScriptLink} {input : Bytes} {e : LinkError}
    (h : s.Hearing input e) : s.readerReady = true := by
  rw [readerReady, h.idle]

/-- Reading a byte is a read, and then what the byte brings about. -/
theorem Hearing.move_byte {s : Session ScriptLink} {b : UInt8} {r : Bytes} {e : LinkError}
    (h : s.Hearing (b :: r) e) :
    s.moveReader = ({ s with link := s.link.took b }).takeByte b := by
  have hi : s.link.inbox = .byte b :: (r.map ScriptLink.Item.byte ++ [.fault e]) := h.inbox
  simp only [moveReader, h.idle, ScriptLink.beginRead_byte h.isOpen .reader hi, afterRead]

/-- What one byte brings about, by the verdict on it. -/
theorem caughtUp_byte (s : Session ScriptLink) {b : UInt8} {f : Framer} {v : Option Frame}
    (hpush : s.framer.push b = (f, v)) : s.caughtUp [b] = { s with
      framer := f
      link := { s.link with
        inbox := s.link.inbox.tail
        attempts := s.link.attempts + (response s.outlet.last v).length
        record := ((response s.outlet.last v).map .wrote).reverse ++ .read b :: s.link.record }
      rendezvous := (s.rendezvous.offerAll (v.toList.filterMap Frame.reply?)).1
      notifications := s.notifications.pushAll (v.toList.filterMap Frame.notification?)
      counters := s.counters.tally s.outlet.last.isSome
        (s.rendezvous.offerAll (v.toList.filterMap Frame.reply?)).2 v.toList } := by
  have hfeed : s.framer.feed [b] = v.toList := by
    simp only [Framer.feed, hpush]
    cases v <;> rfl
  simp [caughtUp, hfeed, hpush, Framer.after, Framer.verdicts, readTrace]

/-- An acknowledgement under way is over in one move. -/
theorem moveReader_acking {s : Session ScriptLink} {w : Outlet} (hr : s.reader = .acking)
    (hw : w.line = []) (ho : s.outlet = w.enter .reader .ack) (hl : s.link.Accepts) :
    s.readerReady = true ∧ s.moveReader = { s.count .acksSent with
      outlet := w, link := s.link.wrote [ackByte], reader := .idle } := by
  constructor
  · simp [readerReady, hr, Outlet.ready, ho, Outlet.enter, hw]
  · simp only [moveReader, hr, ho, Outlet.move_ack hw hl, afterAck, count]

/-- A repetition under way is over in one move. -/
theorem moveReader_resending {s : Session ScriptLink} {w : Outlet} (hr : s.reader = .resending)
    (hw : w.line = []) (ho : s.outlet = w.enter .reader .again)
    (hl : w.last ≠ none → s.link.Accepts) :
    s.readerReady = true ∧ s.moveReader = match w.last with
      | some bytes => { s.count .retransmits with
          outlet := w, link := s.link.wrote bytes, reader := .idle }
      | none => { s with outlet := w, reader := .idle } := by
  constructor
  · simp [readerReady, hr, Outlet.ready, ho, Outlet.enter, hw]
  · simp only [moveReader, hr, ho, Outlet.move_again hw hl]
    cases w.last <;> simp only [afterResend, count]

theorem handOver_eq {L : Type} (s : Session L) (p : Packet) : s.handOver p = { s with
    rendezvous := (s.rendezvous.offer p).1
    counters := if (s.rendezvous.offer p).2 then s.counters
      else s.counters.bump .droppedReplies } := by
  simp only [handOver]
  split <;> rfl

/-- A byte is dealt with in one move, or in two if it makes the reading agent write. -/
theorem Hearing.run_byte {s : Session ScriptLink} {b : UInt8} {r : Bytes} {e : LinkError}
    (h : s.Hearing (b :: r) e)
    (hwrite : response s.outlet.last (s.framer.push b).2 ≠ [] →
      s.link.writeFault s.link.attempts = none) :
    ∃ k ≤ 2, ReaderRun k s (s.caughtUp [b]) := by
  have hmove := h.move_byte
  have hready := h.ready
  obtain ⟨hidle, hline, hopen, -⟩ := h
  rcases hpush : s.framer.push b with ⟨f, v⟩
  rw [hpush] at hwrite
  rw [caughtUp_byte s hpush]
  rw [takeByte, hpush] at hmove
  -- one move is enough unless something has to be written
  have hone : ∀ t, s.moveReader = t → ∃ k ≤ 2, ReaderRun k s t :=
    fun t ht => ⟨1, by omega, .move hready (ht ▸ .refl _)⟩
  have htwo : ∀ u t, s.moveReader = u → u.readerReady = true ∧ u.moveReader = t →
      ∃ k ≤ 2, ReaderRun k s t :=
    fun u t hu ht => ⟨2, by omega, .move hready (hu ▸ .move ht.1 (ht.2 ▸ .refl _))⟩
  rcases v with _ | ⟨kind, payload, first, second⟩ | _ | err
  · apply hone
    rw [hmove]
    simp [Rendezvous.offerAll, Notifications.pushAll_nil, Counters.tally, ScriptLink.took, hidle]
  · cases kind with
    | reply =>
      simp only [route, count, handOver_eq] at hmove
      have htook : (s.link.took b).Accepts := ⟨hopen, hwrite (by simp)⟩
      obtain ⟨h1, h2⟩ := moveReader_acking (s := s.moveReader) (by rw [hmove]) hline (by rw [hmove])
        (by rw [hmove]; exact htook)
      refine htwo _ _ rfl ⟨h1, h2.trans ?_⟩
      rw [hmove]
      cases htaken : (s.rendezvous.offer ⟨.reply, payload, first, second⟩).2 <;>
        simp [Rendezvous.offerAll, Notifications.pushAll_nil, Counters.tally, Counters.bump, count,
          ScriptLink.took, ScriptLink.wrote, hidle, htaken]
    | notification =>
      apply hone
      rw [hmove]
      simp [Rendezvous.offerAll, Notifications.pushAll_singleton, Counters.tally, Counters.bump,
        count, ScriptLink.took, route, hidle]
  · have htook : s.outlet.last ≠ none → (s.link.took b).Accepts :=
      fun hlast => ⟨hopen, hwrite (by simpa using hlast)⟩
    obtain ⟨h1, h2⟩ := moveReader_resending (s := s.moveReader) (by rw [hmove]) hline
      (by rw [hmove]) (by rw [hmove]; exact htook)
    refine htwo _ _ rfl ⟨h1, h2.trans ?_⟩
    rw [hmove]
    cases hlast : s.outlet.last <;>
      simp [Rendezvous.offerAll, Notifications.pushAll_nil, Counters.tally, Counters.bump, count,
        List.filterMap_cons, ScriptLink.took, ScriptLink.wrote, hidle]
  · apply hone
    rw [hmove]
    simp [Rendezvous.offerAll, Notifications.pushAll_nil, Counters.tally, Counters.bump, count,
      List.filterMap_cons, ScriptLink.took, hidle]

/-- The end of the stream ends the loop. -/
theorem Hearing.run_end {s : Session ScriptLink} {e : LinkError} (h : s.Hearing [] e) :
    ReaderRun 1 s (s.hungUp e) := by
  have hi : s.link.inbox = [.fault e] := h.inbox
  have hlink := ScriptLink.beginRead_fault h.isOpen .reader hi
  obtain ⟨r, hdown⟩ := ScriptLink.beginShutdown_open (a := .reader)
    (l := { s.link with inbox := [], record := .readFailed e :: s.link.record }) h.isOpen
  have hmove : s.moveReader = s.hungUp e := by
    simp only [moveReader, h.idle, hlink, afterRead, failReader, endReader, hdown, hungUp, hi,
      List.tail_cons]
  exact .move h.ready (hmove ▸ .refl _)

theorem caughtUp_nil (s : Session ScriptLink) : s.caughtUp [] = s := by
  simp [caughtUp, Framer.feed, Framer.verdicts, Framer.after, readTrace, Rendezvous.offerAll,
    Notifications.pushAll_nil, Counters.tally]

/-- **The loop is a fold over what the framer says.** -/
theorem Listening.run {s : Session ScriptLink} {input : Bytes} {e : LinkError}
    (h : s.Listening input e) :
    ∃ k ≤ 2 * input.length + 1, ReaderRun k s ((s.caughtUp input).hungUp e) := by
  induction input generalizing s with
  | nil => exact ⟨1, by simp, s.caughtUp_nil.symm ▸ h.hearing.run_end⟩
  | cons b r ih =>
    obtain ⟨k, hk, hrun⟩ := h.hearing.run_byte fun _ => by rw [h.link.noFault]
    obtain ⟨n, hn, hrest⟩ := ih h.after_byte
    rw [caughtUp_append] at hrest
    exact ⟨k + n, by rw [List.length_cons]; omega, hrun.trans hrest⟩

end Session

/-! ### Every schedule comes to the same end -/

namespace ReaderRun

theorem woken_reader {s : Session ScriptLink} (hc : s.calls = []) :
    Interplay.woken s [.reader] = [] := by
  simp [Interplay.woken, Interplay.agents, hc, Link.helpers]

/-- The fair schedule lets the reading agent move as long as it can. -/
theorem drain_eq {n k : ℕ} {s t : Session ScriptLink} (hrun : ReaderRun n s t) (hc : s.calls = []) :
    Interplay.drain (n + k) [.reader] s = Interplay.drain k [.reader] t := by
  induction hrun with
  | refl => rw [Nat.zero_add]
  | @move n s t hr _ ih =>
    have hm : (Interplay.move s .reader).calls = [] := (Session.calls_moveReader s).trans hc
    rw [show n + 1 + k = n + k + 1 by omega, Interplay.drain]
    simp only [show Interplay.ready s .reader = true from hr, if_true, woken_reader hm,
      List.append_nil]
    exact ih hm

/-- A run to the end cannot be left: any schedule that comes to rest has taken it. -/
theorem of_moves {n : ℕ} {s t w : Session ScriptLink} (hrun : ReaderRun n s t) (hc : s.calls = [])
    (ht : t.readerReady = false) (hw : Interplay.Moves s w) :
    (∃ m, ReaderRun m w t) ∧ w.calls = [] := by
  induction hw with
  | refl => exact ⟨⟨n, hrun⟩, hc⟩
  | @tail w a _ hr ih =>
    obtain ⟨⟨m, hm⟩, hwc⟩ := ih
    obtain rfl := eq_reader_of_ready hwc (fun _ => rfl) hr
    refine ⟨?_, (Session.calls_moveReader w).trans hwc⟩
    cases hm with
    | refl => exact absurd (ht.symm.trans hr) (by decide)
    | move _ hm => exact ⟨_, hm⟩

/-- The fair schedule comes to the end of a run if it has moves enough. -/
theorem settle_eq {n : ℕ} {s t : Session ScriptLink} (hrun : ReaderRun n s t) (hc : s.calls = [])
    (hs : s.readerReady = true) (ht : t.readerReady = false) (hn : n < Interplay.effort s) :
    Interplay.settle s = t := by
  have hwoken : Interplay.woken s [] = [.reader] := by
    simp [Interplay.woken, Interplay.agents, Interplay.ready, hc, hs, Link.helpers]
  obtain ⟨j, hj⟩ : ∃ j, Interplay.effort s = n + (j + 1) := ⟨Interplay.effort s - n - 1, by omega⟩
  have hnil : ∀ i, Interplay.drain i [] t = t := fun i => by cases i <;> rfl
  rw [Interplay.settle, hwoken, hj, hrun.drain_eq hc, Interplay.drain]
  simp only [show Interplay.ready t .reader = false from ht, Bool.false_eq_true, if_false, hnil]

theorem eq_of_atRest {n : ℕ} {s t w : Session ScriptLink} (hrun : ReaderRun n s t)
    (hc : s.calls = []) (ht : t.readerReady = false) (hw : Interplay.Moves s w)
    (hrest : Interplay.AtRest w) : w = t := by
  obtain ⟨⟨m, hm⟩, -⟩ := hrun.of_moves hc ht hw
  cases hm with
  | refl => rfl
  | move hr _ => exact absurd ((hrest .reader).symm.trans hr) (by decide)

end ReaderRun

/-! ### From the start to the end of the stream -/

namespace Session

/-- A session about to read. A frame may have been sent before, somebody may wait
for a reply, and the consumer of notifications may be gone. The target sends
`input`, and then the stream ends with `e`. -/
def listening (settings : SessionSettings) (shutdownFault : Option LinkError) (sent : Option Bytes)
    (waiting consumer : Bool) (input : Bytes) (e : LinkError) : Session ScriptLink :=
  let s := start ({ shutdownFault } : ScriptLink) settings
  let s := match sent with
    | some frame =>
      let r := (s.outlet.enter (.call 0) (.frame frame)).move s.link (.call 0)
      { s with outlet := r.1, link := r.2.1 }
    | none => s
  { s with
    link := (s.link.offerBytes input).offer [.fault e]
    rendezvous := if waiting then s.rendezvous.claim.1 else s.rendezvous
    notifications := if consumer then s.notifications else s.notifications.dropQueue }

/-- What the reading agent has done once it has come to the end of the stream:
everything is told from what the framer says about the input. -/
structure ReadThrough (m : ℕ) (sent : Option Bytes) (waiting consumer : Bool) (input : Bytes)
    (e : LinkError) (s : Session ScriptLink) : Prop where
  /-- Every byte is read once and in order, and what it makes the agent write is
  written before the next read. -/
  history : s.link.history = sent.toList.map .wrote
    ++ readTrace sent (input.zip ((Framer.fresh m).verdicts input)) ++ [.readFailed e, .closed]
  ended : s.reader = .ended (if e.isClosed then .ok () else .error (.link e))
  /-- The queue holds the notifications in the order in which they came. -/
  queue : s.notifications.queued =
    if consumer then some (((Framer.fresh m).feed input).filterMap Frame.notification?) else none
  /-- The one who waits gets the first reply. -/
  waiter : waiting = true → s.rendezvous.channel 0 =
    match (((Framer.fresh m).feed input).filterMap Frame.reply?).head? with
    | some p => .full p
    | none => .hungUp
  counters : s.counters = {
    replies := (((Framer.fresh m).feed input).filterMap Frame.reply?).length
    notifications := (((Framer.fresh m).feed input).filterMap Frame.notification?).length
    acksSent := (((Framer.fresh m).feed input).filterMap Frame.reply?).length
    retransmits := if sent.isSome then ((Framer.fresh m).feed input).countP Frame.isNak else 0
    framingErrors := ((Framer.fresh m).feed input).countP Frame.isError
    droppedReplies := (((Framer.fresh m).feed input).filterMap Frame.reply?).length
      - if waiting then 1 else 0 }

theorem listening_eq (settings : SessionSettings) (shutdownFault : Option LinkError)
    (sent : Option Bytes) (waiting consumer : Bool) (input : Bytes) (e : LinkError) :
    listening settings shutdownFault sent waiting consumer input e = {
      link := {
        inbox := input.map .byte ++ [.fault e]
        attempts := sent.toList.length
        shutdownFault
        record := sent.toList.map .wrote }
      settings
      outlet := { last := sent }
      rendezvous := if waiting then { slot := some 0, channels := [.opened] } else {}
      notifications := { queued := if consumer then some [] else none }
      framer := Framer.fresh settings.maxFrameLen } := by
  cases sent <;> cases waiting <;> cases consumer <;> rfl

/-- A rendezvous with one waiter gives it the first packet. -/
theorem offerAll_waiting (ps : List Packet) :
    (⟨some 0, [.opened], false⟩ : Rendezvous).offerAll ps = match ps with
      | [] => (⟨some 0, [.opened], false⟩, 0)
      | p :: ps => (⟨none, [.full p], false⟩, ps.length) := by
  cases ps with
  | nil => rfl
  | cons p ps =>
    have ho : (⟨some 0, [.opened], false⟩ : Rendezvous).offer p
        = (⟨none, [.full p], false⟩, true) := rfl
    rw [Rendezvous.offerAll, ho, Rendezvous.offerAll_of_unclaimed rfl]
    simp

/-- The fold over the framer's verdicts, read at the end. -/
theorem readThrough_listening (settings : SessionSettings) (shutdownFault : Option LinkError)
    (sent : Option Bytes) (waiting consumer : Bool) (input : Bytes) (e : LinkError) :
    ReadThrough settings.maxFrameLen sent waiting consumer input e
      (((listening settings shutdownFault sent waiting consumer input e).caughtUp
        input).hungUp e) := by
  rw [listening_eq]
  refine ⟨?_, rfl, ?_, fun hwait => ?_, ?_⟩
  · cases sent <;> simp [hungUp, caughtUp, ScriptLink.history]
  · cases consumer <;> simp [hungUp, caughtUp, Notifications.pushAll]
  · subst hwait
    simp only [hungUp, caughtUp, if_true, offerAll_waiting]
    cases ((Framer.fresh settings.maxFrameLen).feed input).filterMap Frame.reply? <;> rfl
  · have hdrop : ((if waiting then ⟨some 0, [.opened], false⟩ else {} : Rendezvous).offerAll
        (((Framer.fresh settings.maxFrameLen).feed input).filterMap Frame.reply?)).2
        = (((Framer.fresh settings.maxFrameLen).feed input).filterMap Frame.reply?).length
          - if waiting then 1 else 0 := by
      cases waiting with
      | false => rw [if_neg (by decide), Rendezvous.offerAll_of_unclaimed rfl]; rfl
      | true =>
        rw [if_pos rfl, offerAll_waiting]
        cases ((Framer.fresh settings.maxFrameLen).feed input).filterMap Frame.reply? <;> simp
    simp [hungUp, caughtUp, Counters.tally, hdrop]

section Listening

variable (settings : SessionSettings) (shutdownFault : Option LinkError) (sent : Option Bytes)
  (waiting consumer : Bool) (input : Bytes) (e : LinkError)

theorem calls_listening :
    (listening settings shutdownFault sent waiting consumer input e).calls = [] := by
  rw [listening_eq]

theorem isListening_listening :
    (listening settings shutdownFault sent waiting consumer input e).Listening input e := by
  rw [listening_eq]
  exact ⟨rfl, rfl, ⟨rfl, rfl⟩, rfl⟩

/-- The fair schedule comes to rest. -/
theorem atRest_settle_listening : Interplay.AtRest
    (Interplay.settle (listening settings shutdownFault sent waiting consumer input e)) := by
  have hl := isListening_listening settings shutdownFault sent waiting consumer input e
  have hc := calls_listening settings shutdownFault sent waiting consumer input e
  obtain ⟨k, hk, hrun⟩ := hl.run
  generalize listening settings shutdownFault sent waiting consumer input e = s at *
  have hend : ((s.caughtUp input).hungUp e).readerReady = false := rfl
  have heffort : k < Interplay.effort s := by
    have hpending : s.link.inbox.length = input.length + 1 := by simp [hl.inbox]
    have hpos : input.length + 1 + 0 + 4 ≤ (input.length + 1 + 0 + 4) * (s.longestFrame + 4) :=
      Nat.le_mul_of_pos_right _ (by omega)
    simp only [Interplay.effort, Link.pending, hc, List.length_nil, hpending]
    omega
  rw [hrun.settle_eq hc hl.hearing.ready hend heffort]
  intro a
  by_contra ha
  rw [Bool.not_eq_false] at ha
  have hce : ((s.caughtUp input).hungUp e).calls = [] := hc
  obtain rfl := eq_reader_of_ready hce (fun _ => rfl) ha
  exact absurd (hend.symm.trans ha) (by decide)

variable {settings shutdownFault sent waiting consumer input e}

/-- Whatever schedule comes to rest has dealt with all bytes and met the end of the stream. -/
theorem eq_of_atRest_listening {w : Session ScriptLink}
    (hw : Interplay.Moves (listening settings shutdownFault sent waiting consumer input e) w)
    (hrest : Interplay.AtRest w) :
    w = ((listening settings shutdownFault sent waiting consumer input e).caughtUp
      input).hungUp e := by
  obtain ⟨k, -, hrun⟩ :=
    (isListening_listening settings shutdownFault sent waiting consumer input e).run
  exact hrun.eq_of_atRest (calls_listening ..) rfl hw hrest

end Listening

/-- **The reading agent does what the framer says, byte by byte.** With no write
failing, the fair schedule comes to rest, and whatever schedule comes to rest has
read every byte once and in order and has written, before the next read, one
acknowledgement behind each reply and the last frame behind each request to
repeat; the notifications are queued as they came, the one who waits has the
first reply, and the counters are what the framer's outputs count. -/
theorem reads_through (settings : SessionSettings) (shutdownFault : Option LinkError)
    (sent : Option Bytes) (waiting consumer : Bool) (input : Bytes) (e : LinkError) :
    let s := listening settings shutdownFault sent waiting consumer input e
    Interplay.AtRest (Interplay.settle s) ∧
      ∀ w, Interplay.Moves s w → Interplay.AtRest w →
        ReadThrough settings.maxFrameLen sent waiting consumer input e w := by
  intro s
  refine ⟨atRest_settle_listening settings shutdownFault sent waiting consumer input e,
    fun w hw hrest => ?_⟩
  rw [eq_of_atRest_listening hw hrest]
  exact readThrough_listening settings shutdownFault sent waiting consumer input e

end Session

end ProbeLink
