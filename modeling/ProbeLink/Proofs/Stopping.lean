/-
# The reading agent stops at its first failure

A write of the reading agent can fail like any other operation on the link. The
loop then ends with the byte that asked for the write: nothing more is read, the
rendezvous is closed and the link is shut down, whether or not the shutdown goes
well. What the byte completed has been dealt with before the write began, so a
reply has been counted and handed over, or dropped, when its acknowledgement
fails (`Session.Hearing.stops`).

A call that waits for a reply meanwhile has no part in this. A move of the
reading agent does one thing to the rendezvous, whatever it is like
(`Session.moveReader_beside`), so the session with the call goes along with the
session in which the call does not move (`Session.Tended`).

Key definitions: `Session.Stop`, `Session.StoppedAt`, `Deed`, `Session.beside`,
`Session.Tended`, `Session.attending`, `Session.Stopped`.
Key theorems: `Session.Hearing.stops`, `Session.moveReader_beside`,
`Session.stops_at_first_failure`.
-/
import ProbeLink.Proofs.Smooth

namespace ProbeLink

/-! ### A write that fails -/

namespace ScriptLink

/-- The link is open, and the next write fails. -/
structure Refuses (l : ScriptLink) (e : LinkError) : Prop where
  isOpen : l.isClosed = false
  fault : l.writeFault l.attempts = some e

/-- The link after a write that failed. -/
def refused (l : ScriptLink) (e : LinkError) : ScriptLink :=
  { l with attempts := l.attempts + 1, record := .writeFailed e :: l.record }

theorem Refuses.beginWrite {l : ScriptLink} {e : LinkError} (h : l.Refuses e) (a : Agent)
    (bytes : Bytes) : Link.beginWrite l a bytes = (l.refused e, some (.error e)) := by
  simp [Link.beginWrite, write, h.isOpen, h.fault, note, refused]

end ScriptLink

/-- Whoever is alone in line and fails to write has left the line at once. -/
theorem Outlet.move_refused {w : Outlet} {l : ScriptLink} {e : LinkError} (hw : w.line = [])
    (hl : l.Refuses e) (a : Agent) {o : Outgoing} (ho : o = .ack ∨ o = .again ∧ w.last ≠ none) :
    (w.enter a o).move l a = (w, l.refused e, some (.error e)) := by
  obtain ⟨line, last⟩ := w
  obtain rfl : line = [] := hw
  rcases ho with rfl | ⟨rfl, hlast⟩
  · simp [enter, move, begin, hl.beginWrite, after, without]
  · obtain ⟨bytes, rfl⟩ := Option.ne_none_iff_exists'.mp hlast
    simp [enter, move, begin, hl.beginWrite, after, without]

/-- Only a reply and a request to repeat that can be met make the reading agent write. -/
theorem writes_cases {last : Option Bytes} {v : Option Frame} (h : response last v ≠ []) :
    (∃ p : Packet, v = some (.packet p) ∧ p.kind = .reply) ∨ v = some .nak ∧ last ≠ none := by
  rcases v with _ | p | _ | err
  · exact absurd rfl h
  · exact .inl ⟨p, rfl, by simpa using h⟩
  · exact .inr ⟨rfl, by simpa using h⟩
  · exact absurd rfl h

/-- Nothing makes it write twice. -/
theorem response_length {last : Option Bytes} {v : Option Frame} (h : response last v ≠ []) :
    (response last v).length = 1 := by
  obtain ⟨p, rfl, hkind⟩ | ⟨rfl, hlast⟩ := writes_cases h
  · simp [hkind]
  · obtain ⟨bytes, rfl⟩ := Option.ne_none_iff_exists'.mp hlast
    rfl

/-- What is written because of bytes, if `last` is the frame sent last. -/
def responses (f : Framer) (last : Option Bytes) (bs : Bytes) : List Bytes :=
  (f.verdicts bs).flatMap (response last)

theorem responses_append (f : Framer) (last : Option Bytes) (a b : Bytes) :
    responses f last (a ++ b) = responses f last a ++ responses (f.after a) last b := by
  rw [responses, Framer.verdicts_append, List.flatMap_append, responses, responses]

theorem responses_singleton (f : Framer) (last : Option Bytes) (b : UInt8) :
    responses f last [b] = response last (f.push b).2 := by
  simp [responses, Framer.verdicts]

namespace Session

/-- The session once a write of its reading agent has failed that byte `b` asked for. -/
def brokeOff (s : Session ScriptLink) (b : UInt8) (e : LinkError) : Session ScriptLink :=
  let replies := (s.framer.push b).2.toList.filterMap Frame.reply?
  { s with
    framer := (s.framer.push b).1
    link := { s.link with
      inbox := s.link.inbox.tail
      attempts := s.link.attempts + 1
      isClosed := true
      record := .closed :: .writeFailed e :: .read b :: s.link.record }
    rendezvous := (s.rendezvous.offerAll replies).1.close
    counters := { s.counters with
      replies := s.counters.replies + replies.length
      droppedReplies := s.counters.droppedReplies + (s.rendezvous.offerAll replies).2 }
    reader := .ended (if e.isClosed then .ok () else .error (.link e)) }

/-- A reading agent whose write fails ends the loop in the same move. -/
theorem moveReader_refused {s : Session ScriptLink} {w : Outlet} {o : Outgoing} {e : LinkError}
    (hr : s.reader = .acking ∧ o = .ack ∨ s.reader = .resending ∧ o = .again ∧ w.last ≠ none)
    (hw : w.line = []) (ho : s.outlet = w.enter .reader o) (hl : s.link.Refuses e) :
    s.readerReady = true ∧ s.moveReader = { s with
      outlet := w
      link := { s.link with
        attempts := s.link.attempts + 1
        isClosed := true
        record := .closed :: .writeFailed e :: s.link.record }
      rendezvous := s.rendezvous.close
      reader := .ended (if e.isClosed then .ok () else .error (.link e)) } := by
  have hmove := Outlet.move_refused (o := o) hw hl .reader
    (hr.elim (fun h => .inl h.2) fun h => .inr h.2)
  obtain ⟨r, hdown⟩ := ScriptLink.beginShutdown_open (l := s.link.refused e) hl.isOpen .reader
  constructor
  · rcases hr with ⟨hr, -⟩ | ⟨hr, -⟩ <;>
      simp [readerReady, hr, Outlet.ready, ho, Outlet.enter, hw]
  · rcases hr with ⟨hr, -⟩ | ⟨hr, -⟩ <;>
      simp only [moveReader, hr, ho, hmove, afterAck, afterResend, failReader, endReader, hdown] <;>
      rfl

/-- A byte that asks for a write that fails ends the loop in two moves. -/
theorem Hearing.breaks {s : Session ScriptLink} {b : UInt8} {r : Bytes} {e c : LinkError}
    (h : s.Hearing (b :: r) e) (hasked : response s.outlet.last (s.framer.push b).2 ≠ [])
    (hfault : s.link.writeFault s.link.attempts = some c) : ReaderRun 2 s (s.brokeOff b c) := by
  have hmove := h.move_byte
  have htook : (s.link.took b).Refuses c := ⟨h.isOpen, hfault⟩
  rcases hpush : s.framer.push b with ⟨f, v⟩
  rw [hpush] at hasked
  rw [takeByte, hpush] at hmove
  have htwo : ∀ t, s.moveReader.readerReady = true ∧ s.moveReader.moveReader = t →
      ReaderRun 2 s t := fun t ht => .move h.ready (.move ht.1 (ht.2 ▸ .refl _))
  obtain ⟨⟨kind, payload, first, second⟩, rfl, rfl⟩ | ⟨rfl, hlast⟩ := writes_cases hasked
  · simp only [route, count, handOver_eq] at hmove
    obtain ⟨h1, h2⟩ := moveReader_refused (s := s.moveReader) (.inl ⟨by rw [hmove], rfl⟩) h.line
      (by rw [hmove]) (by rw [hmove]; exact htook)
    refine htwo _ ⟨h1, h2.trans ?_⟩
    rw [hmove]
    cases htaken : (s.rendezvous.offer ⟨.reply, payload, first, second⟩).2 <;>
      simp [brokeOff, hpush, Rendezvous.offerAll, Counters.bump, ScriptLink.took, htaken]
  · obtain ⟨h1, h2⟩ := moveReader_refused (s := s.moveReader) (.inr ⟨by rw [hmove], rfl, hlast⟩)
      h.line (by rw [hmove]) (by rw [hmove]; exact htook)
    refine htwo _ ⟨h1, h2.trans ?_⟩
    rw [hmove]
    simp [brokeOff, hpush, Rendezvous.offerAll, ScriptLink.took, List.filterMap_cons]

/-! ### Where the loop stops -/

/-- Where a loop stops that reads `input` and then the end `e` of the stream, and
whose writes go as `fault` says: `done` are the bytes that were dealt with to the
end, `read` are all bytes that were read, `events` is what happened on the link,
and `cause` is what stopped it. -/
inductive Stop (f : Framer) (last : Option Bytes) (fault : ℕ → Option LinkError) (input : Bytes)
    (e : LinkError) : (done read : Bytes) → List ScriptLink.Event → LinkError → Prop where
  /-- All writes went well up to the end of the stream. -/
  | atEnd : (∀ i < (responses f last input).length, fault i = none) →
      Stop f last fault input e input input
        (readTrace last (input.zip (f.verdicts input)) ++ [.readFailed e]) e
  /-- The first write to fail is one that byte `b` asks for. -/
  | atWrite {done rest : Bytes} {b : UInt8} {c : LinkError} : input = done ++ b :: rest →
      (∀ i < (responses f last done).length, fault i = none) →
      response last ((f.after done).push b).2 ≠ [] →
      fault (responses f last done).length = some c →
      Stop f last fault input e done (done ++ [b])
        (readTrace last (done.zip (f.verdicts done)) ++ [.read b, .writeFailed c]) c

/-- The writes of a session's reading agent from now on. -/
def faults (s : Session ScriptLink) (i : ℕ) : Option LinkError :=
  s.link.writeFault (s.link.attempts + i)

/-- What is left of the session once the loop has stopped, but for what nobody asks
about any more. -/
structure StoppedAt (s : Session ScriptLink) (done read : Bytes) (events : List ScriptLink.Event)
    (cause : LinkError) (t : Session ScriptLink) : Prop where
  record : t.link.record = .closed :: (events.reverse ++ s.link.record)
  isClosed : t.link.isClosed = true
  rendezvous : t.rendezvous
    = (s.rendezvous.offerAll ((s.framer.feed read).filterMap Frame.reply?)).1.close
  notifications : t.notifications
    = s.notifications.pushAll ((s.framer.feed read).filterMap Frame.notification?)
  /-- A reply counts when it is read, an acknowledgement when it is written. -/
  counters : t.counters = { s.counters with
    replies := s.counters.replies + ((s.framer.feed read).filterMap Frame.reply?).length
    acksSent := s.counters.acksSent + ((s.framer.feed done).filterMap Frame.reply?).length
    retransmits := s.counters.retransmits
      + if s.outlet.last.isSome then (s.framer.feed done).countP Frame.isNak else 0
    droppedReplies := s.counters.droppedReplies
      + (s.rendezvous.offerAll ((s.framer.feed read).filterMap Frame.reply?)).2
    framingErrors := s.counters.framingErrors + (s.framer.feed read).countP Frame.isError
    notifications := s.counters.notifications
      + ((s.framer.feed read).filterMap Frame.notification?).length }
  ended : t.reader = .ended (if cause.isClosed then .ok () else .error (.link cause))
  calls : t.calls = s.calls
  settings : t.settings = s.settings

theorem stoppedAt_end (s : Session ScriptLink) (input : Bytes) (e : LinkError) :
    s.StoppedAt input input
      (readTrace s.outlet.last (input.zip (s.framer.verdicts input)) ++ [.readFailed e]) e
      ((s.caughtUp input).hungUp e) := by
  refine ⟨?_, rfl, rfl, rfl, ?_, rfl, rfl, rfl⟩
  · simp [hungUp, caughtUp]
  · simp [hungUp, caughtUp, Counters.tally]

/-- A byte that asks for a write completes a reply or is a request to repeat. -/
theorem feed_of_response {f : Framer} {last : Option Bytes} {b : UInt8}
    (h : response last (f.push b).2 ≠ []) :
    f.feed [b] = (f.push b).2.toList ∧ (f.feed [b]).filterMap Frame.notification? = [] ∧
      (f.feed [b]).countP Frame.isError = 0 := by
  obtain ⟨p, hv, hkind⟩ | ⟨hv, -⟩ := writes_cases h
  · simp [Framer.feed, hv, hkind]
  · simp [Framer.feed, hv, List.filterMap_cons]

theorem stoppedAt_write (s : Session ScriptLink) (done : Bytes) (b : UInt8) (c : LinkError)
    (h : response s.outlet.last ((s.framer.after done).push b).2 ≠ []) :
    s.StoppedAt done (done ++ [b])
      (readTrace s.outlet.last (done.zip (s.framer.verdicts done)) ++ [.read b, .writeFailed c]) c
      ((s.caughtUp done).brokeOff b c) := by
  obtain ⟨hfeed, hnote, herror⟩ := feed_of_response h
  refine ⟨?_, rfl, ?_, ?_, ?_, rfl, rfl, rfl⟩
  · simp [brokeOff, caughtUp]
  · simp [brokeOff, caughtUp, Framer.feed_append, Rendezvous.offerAll_append, hfeed]
  · simp [brokeOff, caughtUp, Framer.feed_append, hnote]
  · simp [brokeOff, caughtUp, Framer.feed_append, Rendezvous.offerAll_append, Counters.tally, hnote,
      herror, ← hfeed, Nat.add_assoc]

/-- **The loop goes up to its first failure.** It is over after two moves for each
byte and one for the end of the stream. -/
theorem Hearing.stops {s : Session ScriptLink} {input : Bytes} {e : LinkError}
    (h : s.Hearing input e) : ∃ done read events cause t,
      Stop s.framer s.outlet.last s.faults input e done read events cause ∧
      s.StoppedAt done read events cause t ∧ ∃ k ≤ 2 * input.length + 1, ReaderRun k s t := by
  suffices hrun : ∀ done rest, input = done ++ rest → (s.caughtUp done).Hearing rest e →
      (∀ i < (responses s.framer s.outlet.last done).length, s.faults i = none) →
      ∃ done' read events cause t,
        Stop s.framer s.outlet.last s.faults input e done' read events cause ∧
        s.StoppedAt done' read events cause t ∧
        ∃ k ≤ 2 * rest.length + 1, ReaderRun k (s.caughtUp done) t by
    obtain ⟨done, read, events, cause, t, hstop, ht, k, hk, hk'⟩ :=
      hrun [] input rfl (s.caughtUp_nil.symm ▸ h) nofun
    exact ⟨done, read, events, cause, t, hstop, ht, k, hk, s.caughtUp_nil ▸ hk'⟩
  intro done rest
  induction rest generalizing done with
  | nil =>
    intro hin hhear hwell
    obtain rfl : input = done := by simpa using hin
    exact ⟨_, _, _, _, _, .atEnd hwell, s.stoppedAt_end input e, 1, by simp, hhear.run_end⟩
  | cons b r ih =>
    intro hin hhear hwell
    by_cases hasked : response s.outlet.last ((s.framer.after done).push b).2 = []
    · -- nothing to write
      obtain ⟨k, hk, hbyte⟩ := hhear.run_byte fun hne => absurd hasked hne
      have hnone : responses s.framer s.outlet.last (done ++ [b])
          = responses s.framer s.outlet.last done := by
        rw [responses_append, responses_singleton, hasked, List.append_nil]
      obtain ⟨done', read, events, cause, t, hstop, ht, n, hn, hrest⟩ := ih (done ++ [b])
        (by simp [hin]) (s.caughtUp_append done [b] ▸ hhear.after_byte) (hnone ▸ hwell)
      rw [caughtUp_append] at hbyte
      exact ⟨done', read, events, cause, t, hstop, ht, k + n, by rw [List.length_cons]; omega,
        hbyte.trans hrest⟩
    · have hone := response_length hasked
      cases hfault : s.faults (responses s.framer s.outlet.last done).length with
      | none =>
        obtain ⟨k, hk, hbyte⟩ := hhear.run_byte fun _ => hfault
        obtain ⟨done', read, events, cause, t, hstop, ht, n, hn, hrest⟩ := ih (done ++ [b])
          (by simp [hin]) (s.caughtUp_append done [b] ▸ hhear.after_byte) fun i hi => by
            rw [responses_append, responses_singleton, List.length_append, hone] at hi
            rcases Nat.lt_succ_iff_lt_or_eq.mp hi with hi | rfl
            · exact hwell i hi
            · exact hfault
        rw [caughtUp_append] at hbyte
        exact ⟨done', read, events, cause, t, hstop, ht, k + n, by rw [List.length_cons]; omega,
          hbyte.trans hrest⟩
      | some c =>
        exact ⟨_, _, _, _, _, .atWrite hin hwell hasked hfault,
          s.stoppedAt_write done b c hasked, 2, by rw [List.length_cons]; omega,
          hhear.breaks hasked hfault⟩

end Session

/-! ### A call that waits meanwhile -/

namespace CallPhase

/-- The call is over and has an answer. -/
@[simp] def hasAnswer : CallPhase → Bool
  | .ended (.ok _) => true
  | _ => false

/-- The call is over for want of time. -/
@[simp] def timedOut : CallPhase → Bool
  | .ended (.error (.timeout _)) => true
  | _ => false

end CallPhase

/-- A packet waits in it. -/
@[simp] def Channel.isFull : Channel → Bool
  | .full _ => true
  | _ => false

/-- What a move of the reading agent does to the rendezvous. -/
inductive Deed where
  | nothing
  | offer (p : Packet)
  | close

namespace Deed

def on : Deed → Rendezvous → Rendezvous
  | nothing, m => m
  | offer p, m => (m.offer p).1
  | close, m => m.close

/-- How many packets it drops. -/
def drops : Deed → Rendezvous → ℕ
  | offer p, m => if (m.offer p).2 then 0 else 1
  | _, _ => 0

/-- With nobody in the slot no channel changes, and every packet is dropped. -/
theorem unclaimed (d : Deed) (cs cs' : List Channel) (c c' : Bool) :
    d.on ⟨none, cs, c⟩ = ⟨none, cs, (d.on ⟨none, cs', c⟩).closed⟩ ∧
      d.drops ⟨none, cs, c⟩ = d.drops ⟨none, cs', c'⟩ := by
  cases d <;> exact ⟨rfl, rfl⟩

end Deed

namespace Session

section Calls

variable {L : Type} [Link L] {u w t : Session L} {command payload : String}

/-- The session with another rendezvous and other calls, which have been told of
other replies dropped and of other timeouts. -/
def beside (u : Session L) (m : Rendezvous) (calls : List Call) (line : List ℕ)
    (dropped timeouts : ℕ) : Session L :=
  { u with
    rendezvous := m
    calls
    commandLine := line
    counters := { u.counters with droppedReplies := dropped, timeouts } }

omit [Link L] in
theorem beside_self (u : Session L) : u.beside u.rendezvous u.calls u.commandLine
    u.counters.droppedReplies u.counters.timeouts = u := rfl

theorem endReader_beside (u : Session L) (result : Except SessionError Unit) (m : Rendezvous)
    (calls : List Call) (line : List ℕ) (dropped timeouts : ℕ) :
    (u.beside m calls line dropped timeouts).endReader result
      = (u.endReader result).beside m.close calls line dropped timeouts := by
  simp only [endReader, beside]
  split <;> rfl

omit [Link L] in
theorem takeByte_beside (u : Session L) (b : UInt8) : ∃ d : Deed, ∀ m calls line dropped timeouts,
    (u.beside m calls line dropped timeouts).takeByte b
      = (u.takeByte b).beside (d.on m) calls line (dropped + d.drops m) timeouts := by
  rcases hpush : u.framer.push b with ⟨f, _ | p | _ | err⟩
  · exact ⟨.nothing, fun _ _ _ _ _ => by simp only [takeByte, beside, hpush]; rfl⟩
  · cases hkind : p.kind with
    | reply =>
      refine ⟨.offer p, fun m _ _ _ _ => ?_⟩
      simp only [takeByte, beside, hpush, route, hkind, count, handOver_eq]
      cases hm : (m.offer p).2 <;> cases hu : (u.rendezvous.offer p).2 <;>
        simp [Deed.on, Deed.drops, Counters.bump, hm]
    | notification =>
      refine ⟨.nothing, fun _ _ _ _ _ => ?_⟩
      simp only [takeByte, beside, hpush, route, hkind, count]
      rfl
  · exact ⟨.nothing, fun _ _ _ _ _ => by simp only [takeByte, beside, hpush]; rfl⟩
  · exact ⟨.nothing, fun _ _ _ _ _ => by simp only [takeByte, beside, hpush, count]; rfl⟩

theorem afterRead_beside (u : Session L) (r : L × Progress UInt8) : ∃ d : Deed,
    ∀ m calls line dropped timeouts, (u.beside m calls line dropped timeouts).afterRead r
      = (u.afterRead r).beside (d.on m) calls line (dropped + d.drops m) timeouts := by
  rcases r with ⟨link, _ | e | b⟩
  · exact ⟨.nothing, fun _ _ _ _ _ => rfl⟩
  · exact ⟨.close, fun _ _ _ _ _ => endReader_beside { u with link } _ _ _ _ _ _⟩
  · obtain ⟨d, hd⟩ := takeByte_beside { u with link } b
    exact ⟨d, hd⟩

/-- **The reading agent does the same whoever waits.** -/
theorem moveReader_beside (u : Session L) : ∃ d : Deed, ∀ m calls line dropped timeouts,
    (u.beside m calls line dropped timeouts).moveReader
      = u.moveReader.beside (d.on m) calls line (dropped + d.drops m) timeouts := by
  cases hr : u.reader with
  | idle =>
    obtain ⟨d, hd⟩ := afterRead_beside u (Link.beginRead u.link .reader)
    refine ⟨d, fun m calls line dropped timeouts => ?_⟩
    simp only [moveReader, hr, ← hd]
    simp only [beside, hr]
  | reading =>
    obtain ⟨d, hd⟩ := afterRead_beside u (Link.resumeRead u.link .reader)
    refine ⟨d, fun m calls line dropped timeouts => ?_⟩
    simp only [moveReader, hr, ← hd]
    simp only [beside, hr]
  | acking =>
    rcases hmove : u.outlet.move u.link .reader with ⟨outlet, link, _ | e | o⟩
    · exact ⟨.nothing, fun _ _ _ _ _ => by simp only [moveReader, beside, hr, hmove, afterAck]; rfl⟩
    · refine ⟨.close, fun m calls line dropped timeouts => ?_⟩
      have hend := endReader_beside { u with outlet, link } (if e.isClosed then .ok ()
        else .error (.link e)) m calls line dropped timeouts
      simp only [moveReader, beside, hr, hmove, afterAck, failReader] at hend ⊢
      exact hend
    · exact ⟨.nothing, fun _ _ _ _ _ => by
        simp only [moveReader, beside, hr, hmove, afterAck, count]; rfl⟩
  | resending =>
    rcases hmove : u.outlet.move u.link .reader with ⟨outlet, link, _ | e | _ | _⟩
    · exact ⟨.nothing, fun _ _ _ _ _ => by
        simp only [moveReader, beside, hr, hmove, afterResend]; rfl⟩
    · refine ⟨.close, fun m calls line dropped timeouts => ?_⟩
      have hend := endReader_beside { u with outlet, link } (if e.isClosed then .ok ()
        else .error (.link e)) m calls line dropped timeouts
      simp only [moveReader, beside, hr, hmove, afterResend, failReader] at hend ⊢
      exact hend
    · exact ⟨.nothing, fun _ _ _ _ _ => by
        simp only [moveReader, beside, hr, hmove, afterResend, count]; rfl⟩
    · exact ⟨.nothing, fun _ _ _ _ _ => by
        simp only [moveReader, beside, hr, hmove, afterResend]; rfl⟩
  | closing result =>
    refine ⟨.nothing, fun _ _ _ _ _ => ?_⟩
    simp only [moveReader, beside, hr]
    split <;> rfl
  | ended result => exact ⟨.nothing, fun _ _ _ _ _ => by simp only [moveReader, beside, hr]; rfl⟩

/-- What the reading agent has no hand in. -/
def Apart (s s' : Session L) : Prop := s'.held = s.held ∧ s'.now = s.now ∧ s'.settings = s.settings

theorem apart_endReader (s : Session L) (result : Except SessionError Unit) :
    s.Apart (s.endReader result) := by
  simp only [endReader]
  split <;> exact ⟨rfl, rfl, rfl⟩

theorem apart_afterRead (s : Session L) (r : L × Progress UInt8) : s.Apart (s.afterRead r) := by
  obtain ⟨link, _ | e | b⟩ := r
  · exact ⟨rfl, rfl, rfl⟩
  · exact apart_endReader { s with link } _
  · have hkeeps := takeByte_keeps { s with link } b
    refine ⟨hkeeps.1, hkeeps.2.1, ?_⟩
    simp only [afterRead, takeByte, route, handOver_eq]
    repeat' split
    all_goals rfl

theorem apart_moveReader (s : Session L) : s.Apart s.moveReader := by
  unfold moveReader
  split
  · exact s.apart_afterRead _
  · exact s.apart_afterRead _
  · unfold afterAck
    split
    · exact ⟨rfl, rfl, rfl⟩
    · exact ⟨rfl, rfl, rfl⟩
    · rename_i outlet link e _
      exact apart_endReader { s with outlet, link } _
  · unfold afterResend
    split
    · exact ⟨rfl, rfl, rfl⟩
    · exact ⟨rfl, rfl, rfl⟩
    · exact ⟨rfl, rfl, rfl⟩
    · rename_i outlet link e _
      exact apart_endReader { s with outlet, link } _
  · split <;> exact ⟨rfl, rfl, rfl⟩
  · exact ⟨rfl, rfl, rfl⟩

/-- What has become of the one claim: nothing yet, a reply, or the end. -/
inductive Fate : Rendezvous → Prop where
  | opened : Fate ⟨some 0, [.opened], false⟩
  | full (p : Packet) (closed : Bool) : Fate ⟨none, [.full p], closed⟩
  | hungUp : Fate ⟨none, [.hungUp], true⟩

theorem Fate.on {m : Rendezvous} (h : Fate m) (d : Deed) : Fate (d.on m) := by
  cases d with
  | nothing => exact h
  | offer p =>
    cases h with
    | opened => exact .full p false
    | full q closed => exact .full q closed
    | hungUp => exact .hungUp
  | close =>
    cases h with
    | opened => exact .hungUp
    | full q closed => exact .full q true
    | hungUp => exact .hungUp

/-- The only call waits for its reply since the clock stands at zero. -/
structure Waiting (command payload : String) (u : Session L) : Prop where
  calls : u.calls = [⟨.packet command payload, .awaiting 0 u.settings.replyTimeoutMs⟩]
  line : u.commandLine = [0]
  held : u.held = true
  now : u.now = 0
  fate : Fate u.rendezvous

/-- How the wait ends if it ends now, and what the session counts then. -/
inductive Outcome (u : Session L) : Except SessionError Answer → (dropped timeouts : ℕ) → Prop where
  | served {p : Packet} {closed : Bool} : u.rendezvous = ⟨none, [.full p], closed⟩ →
      Outcome u (.ok (.packet p)) u.counters.droppedReplies u.counters.timeouts
  | refused : u.rendezvous = ⟨none, [.hungUp], true⟩ →
      Outcome u (.error .closed) u.counters.droppedReplies u.counters.timeouts
  /-- There was no time to wait, and the reply, if there is one, is dropped. -/
  | late : u.settings.replyTimeoutMs = 0 →
      Outcome u (.error (.timeout 0))
        (u.counters.droppedReplies + u.rendezvous.channels.countP Channel.isFull)
        (u.counters.timeouts + 1)

/-- The session as it is if its only call is moved as well as its reading agent: the
call still waits, or its wait has ended. -/
inductive Tended (command payload : String) (u : Session L) : Session L → Prop where
  | waits : Tended command payload u u
  | ended {result : Except SessionError Answer} {dropped timeouts : ℕ} :
      Waiting command payload u → Outcome u result dropped timeouts → Tended command payload u
        (u.beside ⟨none, [.abandoned], u.rendezvous.closed⟩
          [⟨.packet command payload, .ended result⟩] [] dropped timeouts)

/-- The call ends its wait like this. -/
theorem Waiting.collect (h : u.Waiting command payload) {n : ℕ} (hr : u.callReady n = true) :
    n = 0 ∧ ∃ result dropped timeouts, u.Outcome result dropped timeouts ∧
      u.moveCall 0 = u.beside ⟨none, [.abandoned], u.rendezvous.closed⟩
        [⟨.packet command payload, .ended result⟩] [] dropped timeouts := by
  obtain ⟨hcalls, hline, hheld, hnow, hfate⟩ := h
  obtain rfl : n = 0 := by
    by_contra hn
    have hnone : u.calls[n]? = none := by
      rw [hcalls]
      exact List.getElem?_eq_none (by simp; omega)
    rw [callReady, hnone] at hr
    cases hr
  refine ⟨rfl, ?_⟩
  have hcall : u.calls[0]?
      = some ⟨.packet command payload, .awaiting 0 u.settings.replyTimeoutMs⟩ := by
    rw [hcalls]; rfl
  have hmove : u.moveCall 0 = u.collect 0 0 (.packet command payload) := by rw [moveCall, hcall]
  have hend : ∀ m c result,
      ({ u with rendezvous := m, counters := c } : Session L).finish 0 result
        = { u with
            rendezvous := m
            counters := c
            commandLine := []
            calls := [⟨.packet command payload, .ended result⟩] } := by
    intro m c result
    rw [finish_of_held (by exact hheld)]
    simp [setPhase, hcalls, hline]
  generalize hm : u.rendezvous = m at hfate
  cases hfate with
  | opened =>
    have hzero : u.settings.replyTimeoutMs = 0 := by
      simpa [callReady, hcall, hm, Rendezvous.channel, hnow] using hr
    refine ⟨_, _, _, .late hzero, ?_⟩
    rw [hmove, Session.collect, hm]
    simp only [Rendezvous.channel, List.getD_cons_zero, count, hend, hzero]
    simp [beside, Counters.bump, Rendezvous.withdraw, Rendezvous.clear, Rendezvous.hangUp,
      Rendezvous.channel, Rendezvous.abandon]
  | full p closed =>
    refine ⟨_, _, _, .served hm, ?_⟩
    rw [hmove, Session.collect, hm]
    simp only [Rendezvous.channel, List.getD_cons_zero, Ask.answer]
    exact hend _ _ _
  | hungUp =>
    refine ⟨_, _, _, .refused hm, ?_⟩
    rw [hmove, Session.collect, hm]
    simp only [Rendezvous.channel, List.getD_cons_zero]
    exact hend _ _ _

/-- What a move of the reading agent does, read off the session itself. -/
theorem moveReader_deed (u : Session L) : ∃ d : Deed,
    u.moveReader.rendezvous = d.on u.rendezvous ∧ u.moveReader.calls = u.calls ∧
      u.moveReader.commandLine = u.commandLine ∧
      u.moveReader.counters.droppedReplies = u.counters.droppedReplies + d.drops u.rendezvous ∧
      u.moveReader.counters.timeouts = u.counters.timeouts ∧
      ∀ m calls line dropped timeouts, (u.beside m calls line dropped timeouts).moveReader
        = u.moveReader.beside (d.on m) calls line (dropped + d.drops m) timeouts := by
  obtain ⟨d, hd⟩ := u.moveReader_beside
  have hself := hd u.rendezvous u.calls u.commandLine u.counters.droppedReplies u.counters.timeouts
  rw [u.beside_self] at hself
  refine ⟨d, ?_, ?_, ?_, ?_, ?_, hd⟩
  all_goals rw [hself, beside]

theorem Waiting.move (h : u.Waiting command payload) : u.moveReader.Waiting command payload := by
  obtain ⟨d, hm, hcalls, hline, -⟩ := u.moveReader_deed
  obtain ⟨hheld, hnow, hsettings⟩ := u.apart_moveReader
  exact ⟨by rw [hcalls, hsettings, h.calls], hline.trans h.line, hheld.trans h.held,
    hnow.trans h.now, hm ▸ h.fate.on d⟩

/-- A call whose wait has ended goes along with the reading agent. -/
theorem Tended.move (h : u.Tended command payload w) :
    u.moveReader.Tended command payload w.moveReader := by
  obtain ⟨d, hm, -, -, hdropped, htimeouts, hd⟩ := u.moveReader_deed
  obtain ⟨-, -, hsettings⟩ := u.apart_moveReader
  cases h with
  | waits => exact .waits
  | @ended result dropped timeouts hwait hout =>
    have hfate := hwait.fate
    have hclosed : d.on ⟨none, [.abandoned], u.rendezvous.closed⟩
        = ⟨none, [.abandoned], u.moveReader.rendezvous.closed⟩ := by
      rw [hm]
      generalize u.rendezvous = m at hfate
      cases d <;> cases hfate <;> rfl
    rw [hd, hclosed]
    refine .ended hwait.move ?_
    cases hout with
    | @served p closed hp =>
      rw [hp] at hm hdropped ⊢
      obtain ⟨hon, hdrops⟩ := d.unclaimed [.full p] [.abandoned] closed closed
      rw [← hdrops, ← hdropped, ← htimeouts]
      exact .served (hm.trans hon)
    | refused hp =>
      rw [hp] at hm hdropped ⊢
      obtain ⟨-, hdrops⟩ := d.unclaimed [.hungUp] [.abandoned] true true
      rw [← hdrops, ← hdropped, ← htimeouts]
      refine .refused (hm.trans ?_)
      cases d <;> rfl
    | late hz =>
      -- whatever the reply would have been given to is gone
      have hcount : u.counters.droppedReplies
            + (u.rendezvous.channels.countP Channel.isFull)
            + d.drops ⟨none, [.abandoned], u.rendezvous.closed⟩
          = u.moveReader.counters.droppedReplies
            + u.moveReader.rendezvous.channels.countP Channel.isFull := by
        rw [hm, hdropped]
        generalize u.rendezvous = m at hfate
        cases d <;> cases hfate <;>
          simp [Deed.on, Deed.drops, Rendezvous.offer, Rendezvous.close, Rendezvous.clear,
            Rendezvous.hangUp, Rendezvous.channel]
      rw [hcount, ← htimeouts]
      exact .late (hsettings ▸ hz)

end Calls

/-! ### Both together -/

section Script

variable {u w t : Session ScriptLink} {command payload : String}

/-- No call can move, or only the one that waits. -/
def Attends (command payload : String) (u : Session ScriptLink) : Prop :=
  u.hasLiveCall = false ∨ u.Waiting command payload

theorem Attends.move (h : u.Attends command payload) : u.moveReader.Attends command payload := by
  rcases h with h | h
  · exact .inl (by rw [hasLiveCall, calls_moveReader]; exact h)
  · exact .inr h.move

/-- The reading agent is on its way to `t`, and at most `k` moves of anyone are to come. -/
def HeadsFor (command payload : String) (t : Session ScriptLink) (k : ℕ) (w : Session ScriptLink) :
    Prop :=
  ∃ (u : Session ScriptLink) (j : ℕ), ReaderRun j u t ∧ u.Attends command payload ∧
    u.Tended command payload w ∧ k = j + w.calls.countP fun c => c.phase.isLive

theorem callReady_of_not_live (h : w.hasLiveCall = false) (n : ℕ) : w.callReady n = false := by
  rw [callReady]
  cases hn : w.calls[n]? with
  | none => rfl
  | some c =>
    have hc : c.phase.isLive = false := by
      rw [hasLiveCall, List.any_eq_false] at h
      simpa using h c (List.mem_of_getElem? hn)
    cases hphase : c.phase <;> simp [hphase, CallPhase.isLive] at hc ⊢

theorem Tended.readerReady (h : u.Tended command payload w) : w.readerReady = u.readerReady := by
  cases h <;> rfl

theorem HeadsFor.move (ht : t.readerReady = false) {k : ℕ} {a : Agent}
    (h : HeadsFor command payload t k w) (ha : Interplay.ready w a = true) :
    ∃ k' < k, HeadsFor command payload t k' (Interplay.move w a) := by
  obtain ⟨u, j, hrun, hatt, htend, rfl⟩ := h
  cases a with
  | reader =>
    have hu : u.readerReady = true := htend.readerReady.symm.trans ha
    cases hrun with
    | refl => exact absurd (ht.symm.trans hu) (by decide)
    | @move n _ _ _ hrun =>
      have hcalls : (Interplay.move w Agent.reader).calls = w.calls := calls_moveReader w
      exact ⟨n + w.calls.countP fun c => c.phase.isLive, by omega, u.moveReader, n, hrun, hatt.move,
        htend.move, by rw [hcalls]⟩
  | call n =>
    cases htend with
    | waits =>
      rcases hatt with hnone | hwait
      · exact absurd ((callReady_of_not_live hnone n).symm.trans ha) (by decide)
      · obtain ⟨rfl, result, dropped, timeouts, hout, hmove⟩ := hwait.collect ha
        have hmove : Interplay.move w (Agent.call 0) = _ := hmove
        refine ⟨j, ?_, w, j, hrun, .inr hwait, hmove ▸ .ended hwait hout, ?_⟩
        · simp [hwait.calls, CallPhase.isLive]
        · simp [hmove, beside, CallPhase.isLive]
    | ended => exact absurd ((callReady_of_not_live rfl n).symm.trans ha) (by decide)
  | release | porter | chance | farWriter | farReader => cases ha

theorem HeadsFor.moves (ht : t.readerReady = false) {k : ℕ} {v : Session ScriptLink}
    (h : HeadsFor command payload t k w) (hv : Interplay.Moves w v) :
    ∃ k', HeadsFor command payload t k' v := by
  induction hv with
  | refl => exact ⟨k, h⟩
  | tail a _ ha ih =>
    obtain ⟨k', h'⟩ := ih
    obtain ⟨k'', -, h''⟩ := h'.move ht ha
    exact ⟨k'', h''⟩

/-- Whoever comes to rest has come all the way, and no call waits any more. -/
theorem HeadsFor.rest (hclosed : t.rendezvous.closed = true) {k : ℕ}
    (h : HeadsFor command payload t k w) (hrest : Interplay.AtRest w) :
    t.Tended command payload w ∧ w.hasLiveCall = false := by
  obtain ⟨u, j, hrun, hatt, htend, -⟩ := h
  obtain rfl : u = t := by
    cases hrun with
    | refl => rfl
    | move hu _ =>
      exact absurd ((hrest .reader).symm.trans (htend.readerReady.trans hu)) (by decide)
  refine ⟨htend, ?_⟩
  cases htend with
  | ended => rfl
  | waits =>
    rcases hatt with hnone | hwait
    · exact hnone
    · -- it would be told of the end
      have hready : w.callReady 0 = true := by
        have hfate := hwait.fate
        simp only [callReady, hwait.calls, List.getElem?_cons_zero]
        generalize w.rendezvous = m at hfate hclosed
        cases hfate with
        | opened => cases hclosed
        | full p closed => rfl
        | hungUp => rfl
      exact absurd ((hrest (.call 0)).symm.trans hready) (by decide)

theorem calls_readerRun {n : ℕ} (h : ReaderRun n u t) : t.calls = u.calls := by
  induction h with
  | refl => rfl
  | move _ _ ih => rw [ih, calls_moveReader]

theorem HeadsFor.calls_length {k : ℕ} (h : HeadsFor command payload t k w) :
    w.calls.length ≤ max 1 t.calls.length := by
  obtain ⟨u, j, hrun, -, htend, -⟩ := h
  cases htend with
  | waits => exact (calls_readerRun hrun) ▸ le_max_right _ _
  | ended => exact le_max_left _ _

/-- The fair schedule is among those that come to rest. -/
theorem HeadsFor.settle (ht : t.readerReady = false) (hcalls : t.calls.length ≤ 1) {k : ℕ}
    (h : HeadsFor command payload t k w) (hk : k ≤ 2 * w.link.inbox.length + 2) :
    Interplay.AtRest (Interplay.settle w) := by
  have hmove : ∀ {k : ℕ} {w : Session ScriptLink} {a : Agent}, HeadsFor command payload t k w →
      Interplay.ready w a = true → ∃ k' < k, HeadsFor command payload t k' (Interplay.move w a) :=
    fun h ha => h.move ht ha
  refine Interplay.atRest_settle (m := 2) hmove (fun {k v} hv a ha => ?_) (fun {k v} hv => ?_) h ?_
  · cases a with
    | reader => exact List.mem_cons_self
    | call n =>
      have hn : n < v.calls.length := by
        by_contra hn
        have hnone : v.calls[n]? = none := List.getElem?_eq_none (by omega)
        simp [Interplay.ready, callReady, hnone] at ha
      simp [Interplay.agents, hn]
    | release | porter | chance | farWriter | farReader => cases ha
  · have := hv.calls_length
    simp only [Interplay.agents, Link.helpers, List.length_append, List.length_cons,
      List.length_map, List.length_range, List.length_nil]
    omega
  · have heffort : (w.link.inbox.length + 4) * 4 * 8 * 8 ≤ Interplay.effort w :=
      Nat.mul_le_mul (Nat.mul_le_mul
        (Nat.mul_le_mul (by simp only [Link.pending]; omega) (by omega)) le_rfl) (by omega)
    omega

end Script

/-! ### From the start to the end of the loop -/

/-- Call 0 asks for a packet and goes as far as it can by itself. -/
def commanding (s : Session ScriptLink) (command payload : String) : Session ScriptLink :=
  (((s.issue (.packet command payload)).moveCall 0).moveCall 0).moveCall 0

/-- A session about to read. Its writes and its shutdown fail as told. Somebody may
have asked for a packet, and may have given up waiting for it; the consumer of
notifications may be gone. The target sends `input`, and then the stream ends with
`e`. -/
def attending (settings : SessionSettings) (writeFault : ℕ → Option LinkError)
    (shutdownFault : Option LinkError) (asked : Option (String × String)) (gaveUp consumer : Bool)
    (input : Bytes) (e : LinkError) : Session ScriptLink :=
  let s := start ({ writeFault, shutdownFault } : ScriptLink) settings
  let s := match asked with
    | some (command, payload) => s.commanding command payload
    | none => s
  let s := if gaveUp then s.abort 0 else s
  { s with
    link := (s.link.offerBytes input).offer [.fault e]
    notifications := if consumer then s.notifications else s.notifications.dropQueue }

/-- What is on record of the first write if it writes `frame`. -/
def firstWrite (writeFault : ℕ → Option LinkError) (frame : Bytes) : ScriptLink.Event :=
  match writeFault 0 with
  | none => .wrote frame
  | some e => .writeFailed e

/-- The frame of what was asked. -/
def frameOf (asked : String × String) : Bytes := commandFrame asked.1 asked.2

theorem commanding_start (settings : SessionSettings) (writeFault : ℕ → Option LinkError)
    (shutdownFault : Option LinkError) (command payload : String) :
    (start ({ writeFault, shutdownFault } : ScriptLink) settings).commanding command payload =
      match writeFault 0 with
      | none => {
          link := {
            attempts := 1, writeFault, shutdownFault
            record := [.wrote (frameOf (command, payload))] }
          settings
          outlet := { last := some (frameOf (command, payload)) }
          rendezvous := ⟨some 0, [.opened], false⟩
          counters := { commandsSent := 1 }
          framer := Framer.fresh settings.maxFrameLen
          commandLine := [0]
          calls := [⟨.packet command payload, .awaiting 0 settings.replyTimeoutMs⟩] }
      | some e => {
          link := { attempts := 1, writeFault, shutdownFault, record := [.writeFailed e] }
          settings
          outlet := { last := some (frameOf (command, payload)) }
          rendezvous := ⟨none, [.abandoned], false⟩
          framer := Framer.fresh settings.maxFrameLen
          calls := [⟨.packet command payload,
            .ended (.error (if e.isClosed then .closed else .link e))⟩] } := by
  cases hfault : writeFault 0 <;>
    simp [commanding, start, issue, moveCall, Ask.body?, setPhase, claim, Rendezvous.claim,
      Rendezvous.clear, afterSend, Outlet.enter, Outlet.move, Outlet.begin, Outlet.after,
      Outlet.without, Link.beginWrite, ScriptLink.write, ScriptLink.note, hfault, finish,
      closeIfForgotten, count, Counters.bump, Rendezvous.withdraw, Rendezvous.hangUp,
      Rendezvous.abandon, Rendezvous.channel, frameOf, Framer.fresh]

/-- What the session is like before it reads. -/
structure Prepared (settings : SessionSettings) (writeFault : ℕ → Option LinkError)
    (asked : Option (String × String)) (consumer : Bool) (input : Bytes) (e : LinkError)
    (s : Session ScriptLink) : Prop where
  hearing : s.Hearing input e
  patience : s.settings.replyTimeoutMs = settings.replyTimeoutMs
  framer : s.framer = Framer.fresh settings.maxFrameLen
  last : s.outlet.last = asked.map frameOf
  faults : s.faults = fun i => writeFault (asked.toList.length + i)
  record : s.link.record = asked.toList.map fun x => firstWrite writeFault (frameOf x)
  queue : s.notifications.queued = if consumer then some [] else none
  counters : s.counters
    = { commandsSent := if asked.isSome ∧ writeFault 0 = none then 1 else 0 }

/-- Nobody waits in it, and nobody has been waiting: no call gets a reply. -/
structure Unattended (s : Session ScriptLink) : Prop where
  still : s.hasLiveCall = false
  few : s.calls.length ≤ 1
  unanswered : (s.calls.countP fun c => c.phase.hasAnswer) = 0
  untimed : (s.calls.countP fun c => c.phase.timedOut) = 0
  dropped : ∀ ps : List Packet, (s.rendezvous.offerAll ps).2 = ps.length

theorem offerAll_abandoned (ps : List Packet) :
    ((⟨some 0, [.abandoned], false⟩ : Rendezvous).offerAll ps).2 = ps.length := by
  cases ps with
  | nil => rfl
  | cons p ps =>
    have ho : (⟨some 0, [.abandoned], false⟩ : Rendezvous).offer p
        = (⟨none, [.abandoned], false⟩, false) := rfl
    rw [Rendezvous.offerAll, ho, Rendezvous.offerAll_of_unclaimed rfl]
    simp [Nat.add_comm]

section Start

variable (settings : SessionSettings) (writeFault : ℕ → Option LinkError)
  (shutdownFault : Option LinkError) (asked : Option (String × String)) (gaveUp consumer : Bool)
  (input : Bytes) (e : LinkError)

theorem prepared_attending : Prepared settings writeFault asked consumer input e
    (attending settings writeFault shutdownFault asked gaveUp consumer input e) := by
  rcases asked with _ | ⟨command, payload⟩
  · cases gaveUp <;> cases consumer <;>
      exact ⟨⟨rfl, rfl, rfl, rfl⟩, rfl, rfl, rfl, rfl, rfl, rfl, rfl⟩
  · have hask := commanding_start settings writeFault shutdownFault command payload
    simp only [attending, hask]
    cases hfault : writeFault 0 <;> cases gaveUp <;> cases consumer <;>
      refine ⟨⟨rfl, rfl, rfl, rfl⟩, rfl, rfl, rfl, rfl, ?_, rfl, ?_⟩ <;>
      simp [firstWrite, hfault, abort, withdraw, closeIfForgotten, ScriptLink.offerBytes,
        ScriptLink.offer, setPhase, CallPhase.isLive]

theorem waiting_attending {command payload : String} (htaken : writeFault 0 = none) :
    let s := attending settings writeFault shutdownFault (some (command, payload)) false consumer
      input e
    s.Waiting command payload ∧ s.rendezvous = ⟨some 0, [.opened], false⟩ := by
  have hask := commanding_start settings writeFault shutdownFault command payload
  simp only [attending, hask, htaken]
  exact ⟨⟨rfl, rfl, rfl, rfl, .opened⟩, rfl⟩

theorem unattended_attending (h : ∀ x, asked = some x → writeFault 0 = none → gaveUp = true) :
    (attending settings writeFault shutdownFault asked gaveUp consumer input e).Unattended := by
  rcases asked with _ | ⟨command, payload⟩
  · cases gaveUp <;> exact ⟨rfl, Nat.zero_le 1, rfl, rfl, fun ps => by
      rw [Rendezvous.offerAll_of_unclaimed rfl]⟩
  · have hask := commanding_start settings writeFault shutdownFault command payload
    simp only [attending, hask]
    cases hfault : writeFault 0 with
    | none =>
      obtain rfl := h _ rfl hfault
      exact ⟨rfl, le_rfl, rfl, rfl, offerAll_abandoned⟩
    | some c =>
      cases gaveUp <;> refine ⟨rfl, le_rfl, rfl, ?_, fun ps => by
        rw [Rendezvous.offerAll_of_unclaimed rfl]⟩ <;> cases c <;> rfl

end Start

/-- The replies among what bytes complete. -/
def repliesIn (m : ℕ) (bs : Bytes) : List Packet :=
  ((Framer.fresh m).feed bs).filterMap Frame.reply?

/-- How the one who waits fares when these replies are read. -/
def fare (replies : List Packet) : Except SessionError Answer :=
  match replies.head? with
  | some p => .ok (.packet p)
  | none => .error .closed

/-- What everything has come to once the loop has stopped at `cause`, having read the
bytes `read` and dealt with the bytes `done`. -/
structure Stopped (settings : SessionSettings) (writeFault : ℕ → Option LinkError)
    (asked : Option (String × String)) (gaveUp consumer : Bool) (done read : Bytes)
    (events : List ScriptLink.Event) (cause : LinkError) (w : Session ScriptLink) : Prop where
  /-- Nothing is read or written after what stopped the loop. -/
  history : w.link.history
    = (asked.toList.map fun x => firstWrite writeFault (frameOf x)) ++ events ++ [.closed]
  ended : w.reader = .ended (if cause.isClosed then .ok () else .error (.link cause))
  /-- Nobody can claim a reply, and nobody still has a claim. -/
  closed : w.rendezvous.closed = true ∧ w.rendezvous.slot = none ∧ w.link.isClosed = true
  queue : w.notifications.queued = if consumer then
    some (((Framer.fresh settings.maxFrameLen).feed read).filterMap Frame.notification?) else none
  /-- The one who waits is served or told of the end, unless it has no time to wait. -/
  waiter : ∀ x, asked = some x → writeFault 0 = none → gaveUp = false → ∃ result,
    w.calls = [⟨.packet x.1 x.2, .ended result⟩] ∧
      (result = fare (repliesIn settings.maxFrameLen read) ∨
        settings.replyTimeoutMs = 0 ∧ result = .error (.timeout 0))
  still : w.hasLiveCall = false
  replies : w.counters.replies = (repliesIn settings.maxFrameLen read).length
  /-- Each reply was handed over or counted as dropped, acknowledged or not. -/
  delivered : w.counters.droppedReplies + (w.calls.countP fun c => c.phase.hasAnswer)
    = (repliesIn settings.maxFrameLen read).length
  acks : w.counters.acksSent = (repliesIn settings.maxFrameLen done).length
  retransmits : w.counters.retransmits = if asked.isSome then
    ((Framer.fresh settings.maxFrameLen).feed done).countP Frame.isNak else 0
  others : w.counters.framingErrors
      = ((Framer.fresh settings.maxFrameLen).feed read).countP Frame.isError ∧
    w.counters.notifications
      = (((Framer.fresh settings.maxFrameLen).feed read).filterMap Frame.notification?).length ∧
    w.counters.commandsSent = (if asked.isSome ∧ writeFault 0 = none then 1 else 0) ∧
    w.counters.timeouts = w.calls.countP fun c => c.phase.timedOut

section Stop

variable {settings : SessionSettings} {writeFault : ℕ → Option LinkError}
  {asked : Option (String × String)} {gaveUp consumer : Bool} {input done read : Bytes}
  {events : List ScriptLink.Event} {e cause : LinkError} {s t w : Session ScriptLink}
  {command payload : String}

/-- What the reading agent has done does not depend on the calls. -/
theorem StoppedAt.stopped (h : s.StoppedAt done read events cause t)
    (hs : Prepared settings writeFault asked consumer input e s) {m : Rendezvous}
    {calls : List Call} {line : List ℕ} {dropped timeouts : ℕ}
    (hw : w = t.beside m calls line dropped timeouts) (hm : m.closed = true ∧ m.slot = none)
    (hwaiter : ∀ x, asked = some x → writeFault 0 = none → gaveUp = false → ∃ result,
      calls = [⟨.packet x.1 x.2, .ended result⟩] ∧
        (result = fare (repliesIn settings.maxFrameLen read) ∨
          settings.replyTimeoutMs = 0 ∧ result = .error (.timeout 0)))
    (hover : w.hasLiveCall = false)
    (hdropped : dropped + (calls.countP fun c => c.phase.hasAnswer)
      = (repliesIn settings.maxFrameLen read).length)
    (htimeouts : timeouts = calls.countP fun c => c.phase.timedOut) :
    Stopped settings writeFault asked gaveUp consumer done read events cause w := by
  subst hw
  have hcounters := h.counters
  rw [hs.counters, hs.framer, hs.last] at hcounters
  refine ⟨?_, h.ended, ⟨hm.1, hm.2, h.isClosed⟩, ?_, hwaiter, hover, ?_, hdropped, ?_, ?_,
    ?_, ?_, ?_, htimeouts⟩
  · have hrecord : (t.beside m calls line dropped timeouts).link.record = _ := h.record
    rw [ScriptLink.history, hrecord, hs.record]
    cases asked <;> simp
  · have hnotes : (t.beside m calls line dropped timeouts).notifications = _ := h.notifications
    rw [hnotes, Notifications.pushAll, hs.queue, hs.framer]
    cases consumer <;> simp
  · simp [beside, hcounters, repliesIn]
  · simp [beside, hcounters, repliesIn]
  · simp [beside, hcounters]
  · simp [beside, hcounters]
  · simp [beside, hcounters]
  · simp [beside, hcounters]

theorem StoppedAt.unattended (h : s.StoppedAt done read events cause t)
    (hs : Prepared settings writeFault asked consumer input e s) (hnone : s.Unattended)
    (hnot : ∀ x, asked = some x → writeFault 0 = none → gaveUp = true)
    (hw : t.Tended command payload w) :
    Stopped settings writeFault asked gaveUp consumer done read events cause w := by
  have hcounters := h.counters
  rw [hs.counters] at hcounters
  cases hw with
  | ended hwait _ =>
    have hlive : s.hasLiveCall = true := by rw [hasLiveCall, ← h.calls, hwait.calls]; rfl
    exact absurd (hnone.still.symm.trans hlive) (by decide)
  | waits =>
    refine h.stopped hs t.beside_self.symm ?_ (fun x hx htaken hgave => ?_) ?_ ?_ ?_
    · rw [h.rendezvous]
      exact ⟨rfl, by simp [Rendezvous.close, Rendezvous.clear]; split <;> simp_all⟩
    · rw [hnot x hx htaken] at hgave
      cases hgave
    · rw [hasLiveCall, h.calls]
      exact hnone.still
    · rw [h.calls, hnone.unanswered, hcounters, hs.framer]
      simp [repliesIn, hnone.dropped]
    · rw [h.calls, hnone.untimed, hcounters]

/-- The end of a wait for the first of the replies that were read. -/
theorem Outcome.told {result : Except SessionError Answer} {dropped timeouts : ℕ}
    (h : t.Outcome result dropped timeouts) (ps : List Packet)
    (hend : t.rendezvous = ⟨none, [match ps.head? with
      | some p => .full p
      | none => .hungUp], true⟩)
    (hdrop : t.counters.droppedReplies = ps.length - 1) (hnever : t.counters.timeouts = 0) :
    (result = fare ps ∨ t.settings.replyTimeoutMs = 0 ∧ result = .error (.timeout 0)) ∧
      dropped + (if (CallPhase.ended result).hasAnswer then 1 else 0) = ps.length ∧
      timeouts = if (CallPhase.ended result).timedOut then 1 else 0 := by
  cases h with
  | served hp =>
    rw [hend] at hp
    cases ps <;> simp_all [Session.fare]
  | refused hp =>
    rw [hend] at hp
    cases ps <;> simp_all [Session.fare]
  | late hz =>
    refine ⟨.inr ⟨hz, rfl⟩, ?_, by rw [hnever]; rfl⟩
    rw [hend, hdrop]
    cases ps <;> simp

theorem StoppedAt.attended (h : s.StoppedAt done read events cause t)
    (hs : Prepared settings writeFault (some (command, payload)) consumer input e s)
    (hwait : s.Waiting command payload) (hfree : s.rendezvous = ⟨some 0, [.opened], false⟩)
    (hw : t.Tended command payload w) (hover : w.hasLiveCall = false) :
    Stopped settings writeFault (some (command, payload)) gaveUp consumer done read events cause
      w := by
  have hcounters := h.counters
  have hm := h.rendezvous
  rw [hs.counters, hs.framer, hfree, offerAll_waiting] at hcounters
  rw [hs.framer, hfree, offerAll_waiting] at hm
  cases hw with
  | waits =>
    have hlive : t.hasLiveCall = true := by rw [hasLiveCall, h.calls, hwait.calls]; rfl
    exact absurd (hover.symm.trans hlive) (by decide)
  | @ended result dropped timeouts htwait hout =>
    have hclosed : t.rendezvous.closed = true := by rw [hm]; rfl
    have hfare := hout.told (repliesIn settings.maxFrameLen read)
      (by rw [hm, repliesIn]; cases ((Framer.fresh _).feed read).filterMap Frame.reply? <;> rfl)
      (by
        rw [hcounters, repliesIn]
        cases ((Framer.fresh _).feed read).filterMap Frame.reply? <;> simp)
      (by rw [hcounters])
    rw [h.settings, hs.patience] at hfare
    refine h.stopped hs rfl ⟨hclosed, rfl⟩ (fun x hx _ _ => ?_) hover ?_ ?_
    · cases hx
      exact ⟨result, rfl, hfare.1⟩
    · rw [List.countP_singleton]
      exact hfare.2.1
    · rw [List.countP_singleton]
      exact hfare.2.2

end Stop

/-- **The loop stops at its first failure, and leaves nobody waiting.** Whatever comes
in, however the stream ends and whichever writes fail, the fair schedule comes to
rest, and whatever schedule comes to rest has read every byte up to the first write
of the reading agent that failed, or up to the end of the stream if none did, and
nothing after it. The loop ended well just if what stopped it was that the link is
closed. The rendezvous and the link are closed, the shutdown failing or not; the
reply whose acknowledgement failed was handed over or counted as dropped, like the
others; and the one who waited has the first reply or was told that the session is
closed. -/
theorem stops_at_first_failure (settings : SessionSettings) (writeFault : ℕ → Option LinkError)
    (shutdownFault : Option LinkError) (asked : Option (String × String)) (gaveUp consumer : Bool)
    (input : Bytes) (e : LinkError) :
    let s := attending settings writeFault shutdownFault asked gaveUp consumer input e
    Interplay.AtRest (Interplay.settle s) ∧
      ∀ w, Interplay.Moves s w → Interplay.AtRest w → ∃ done read events cause,
        Stop (Framer.fresh settings.maxFrameLen) (asked.map frameOf)
          (fun i => writeFault (asked.toList.length + i)) input e done read events cause ∧
        Stopped settings writeFault asked gaveUp consumer done read events cause w := by
  intro s
  have hs : Prepared settings writeFault asked consumer input e s :=
    prepared_attending settings writeFault shutdownFault asked gaveUp consumer input e
  obtain ⟨done, read, events, cause, t, hstop, ht, k, hk, hrun⟩ := hs.hearing.stops
  rw [hs.framer, hs.last, hs.faults] at hstop
  have hready : t.readerReady = false := by rw [readerReady, ht.ended]
  have hclosed : t.rendezvous.closed = true := by rw [ht.rendezvous]; rfl
  have hinbox : s.link.inbox.length = input.length + 1 := by simp [hs.hearing.inbox]
  by_cases hwaits : ∃ x, asked = some x ∧ writeFault 0 = none ∧ gaveUp = false
  · obtain ⟨⟨command, payload⟩, rfl, htaken, rfl⟩ := hwaits
    obtain ⟨hwait, hfree⟩ : s.Waiting command payload ∧ s.rendezvous = ⟨some 0, [.opened], false⟩ :=
      waiting_attending settings writeFault shutdownFault consumer input e htaken
    have hheads : HeadsFor command payload t (k + 1) s :=
      ⟨s, k, hrun, .inr hwait, .waits, by simp [hwait.calls, CallPhase.isLive]⟩
    refine ⟨hheads.settle hready (by simp [ht.calls, hwait.calls]) (by omega), fun w hw hrest => ?_⟩
    obtain ⟨k', hheads⟩ := hheads.moves hready hw
    obtain ⟨htend, hover⟩ := hheads.rest hclosed hrest
    exact ⟨done, read, events, cause, hstop, ht.attended hs hwait hfree htend hover⟩
  · have hnot : ∀ x, asked = some x → writeFault 0 = none → gaveUp = true := fun x hx htaken => by
      by_contra hgave
      exact hwaits ⟨x, hx, htaken, Bool.eq_false_iff.mpr hgave⟩
    have hnone : s.Unattended :=
      unattended_attending settings writeFault shutdownFault asked gaveUp consumer input e hnot
    have hzero : (s.calls.countP fun c => c.phase.isLive) = 0 := by
      rw [List.countP_eq_zero]
      exact List.any_eq_false.mp hnone.still
    have hheads : HeadsFor "" "" t k s := ⟨s, k, hrun, .inl hnone.still, .waits, by rw [hzero]; rfl⟩
    refine ⟨hheads.settle hready (ht.calls ▸ hnone.few) (by omega), fun w hw hrest => ?_⟩
    obtain ⟨k', hheads⟩ := hheads.moves hready hw
    obtain ⟨htend, -⟩ := hheads.rest hclosed hrest
    exact ⟨done, read, events, cause, hstop, ht.unattended hs hnone hnot htend⟩

end Session

end ProbeLink
