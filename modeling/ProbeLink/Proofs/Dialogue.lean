/-
# One command, one answer

Commands are sent one after the other over a link in working order, and the target answers
each with one reply, once it has the whole frame and before the call runs out of time. In
between it sends what it likes that is not a reply, and all of it arrives in pieces of any
size. Then each call gets the answer with its own number, as it was sent; nothing is
dropped, nobody runs out of time, every reply is acknowledged once, and the notifications
are queued in the order in which they came (`Dialogue.answered_in_turn`, in
`ProbeLink.Proofs.Answers`). Here stand the dialogue, what holds of it at every moment, and
that each move keeps it.

A call claims the slot when all replies before its own have been read, and the target
answers it only afterwards. So a reply that is read is that of the last call, which waits
for it, and the slot is empty again when the next call begins (`Dialogue.Stage`, kept by
every step).

Key definitions: `Dialogue`, `Dialogue.step`, `Dialogue.Reached`, `Dialogue.Stage`,
`Dialogue.Sound`.
Key theorem: `Dialogue.Sound.move`.
-/
import ProbeLink.Proofs.Exchange
import ProbeLink.Proofs.Smooth
import ProbeLink.Proofs.Turns

namespace ProbeLink

/-- The notification that a segment is. -/
def Segment.notification? : Segment → Option Packet
  | .frame p => if p.kind = .notification then some p else none
  | _ => none

theorem Segment.notification?_eq (m : ℕ) (g : Segment) :
    (g.output m).bind Frame.notification? = g.notification? := by
  cases g <;> rfl

/-- A byte completes at most one frame. -/
theorem Framer.feed_singleton (f : Framer) (b : UInt8) : f.feed [b] = (f.push b).2.toList :=
  (f.feed_cons b []).trans (List.append_nil _)

/-- When the call runs out of time. -/
def CallPhase.deadline? : CallPhase → Option ℕ
  | .awaiting _ d => some d
  | _ => none

/-- These agents can move one after the other. -/
def Interplay.CanMove {W : Type} [Interplay W] (w : W) : List Agent → Prop
  | [] => True
  | a :: as => ready w a = true ∧ CanMove (move w a) as

namespace Session

variable {L : Type} [Link L]

theorem atRest_iff (s : Session L) : Interplay.AtRest s ↔ s.readerReady = false ∧
    (∀ n < s.calls.length, s.callReady n = false) ∧ Still s.link := by
  constructor
  · intro h
    exact ⟨h .reader, fun n _ => h (.call n),
      ⟨h .release, h .porter, h .chance, h .farWriter, h .farReader⟩⟩
  · rintro ⟨hreader, hcalls, hstill⟩ a
    cases a with
    | reader => exact hreader
    | call n =>
      by_cases hn : n < s.calls.length
      · exact hcalls n hn
      · show s.callReady n = false
        rw [callReady, List.getElem?_eq_none (Nat.le_of_not_lt hn)]
    | release => exact hstill.release
    | porter => exact hstill.porter
    | chance => exact hstill.chance
    | farWriter => exact hstill.farWriter
    | farReader => exact hstill.farReader

instance (l : L) : Decidable (Still l) :=
  decidable_of_iff (Link.helperReady l .release = false ∧ Link.helperReady l .porter = false ∧
    Link.helperReady l .chance = false ∧ Link.helperReady l .farWriter = false ∧
    Link.helperReady l .farReader = false)
    ⟨fun ⟨hrelease, hporter, hchance, hwriter, hreader⟩ =>
      ⟨hrelease, hporter, hchance, hwriter, hreader⟩,
    fun h => ⟨h.release, h.porter, h.chance, h.farWriter, h.farReader⟩⟩

instance (s : Session L) : Decidable (Interplay.AtRest s) :=
  decidable_of_iff _ s.atRest_iff.symm

/-- The acknowledgements that are still to be written. -/
def acksDue {L : Type} (s : Session L) : ℕ :=
  match s.reader with
  | .acking => 1
  | _ => 0

theorem acksDue_le_one {L : Type} (s : Session L) : s.acksDue ≤ 1 := by
  unfold acksDue
  split <;> omega

/-- A reader that is not to write owes no acknowledgement. -/
theorem acksDue_of_wants {L : Type} {s : Session L} (h : s.wants .reader = none) :
    s.acksDue = 0 := by
  unfold acksDue
  split
  · rename_i hreader
    simp [wants, hreader] at h
  · rfl

/-- What a byte brings: the replies and notifications that it completes are counted, and an
acknowledgement is due for each reply. -/
theorem takeByte_brings {L : Type} (s : Session L) (b : UInt8) :
    (s.takeByte b).acksDue = ((s.framer.push b).2.toList.filterMap Frame.reply?).length ∧
    (s.takeByte b).notifications = s.notifications.pushAll
      ((s.framer.push b).2.toList.filterMap Frame.notification?) ∧
    (s.takeByte b).counters.acksSent = s.counters.acksSent ∧
    (s.takeByte b).counters.timeouts = s.counters.timeouts ∧
    (s.takeByte b).counters.replies = s.counters.replies
      + ((s.framer.push b).2.toList.filterMap Frame.reply?).length ∧
    (s.takeByte b).counters.droppedReplies = s.counters.droppedReplies
      + (s.rendezvous.offerAll ((s.framer.push b).2.toList.filterMap Frame.reply?)).2 := by
  have hnone : s.notifications.pushAll [] = s.notifications := s.notifications.pushAll_nil
  unfold takeByte
  split
  · rename_i hpush
    rw [hpush]
    exact ⟨rfl, hnone.symm, rfl, rfl, rfl, rfl⟩
  · rename_i f p hpush
    rw [hpush]
    obtain ⟨kind, payload, first, second⟩ := p
    cases kind with
    | reply =>
      rw [route_reply _ rfl]
      refine ⟨rfl, hnone.symm, ?_, ?_, ?_, ?_⟩
      all_goals
        cases hoffer : (s.rendezvous.offer ⟨.reply, payload, first, second⟩).2 <;>
          simp [hoffer, Counters.bump, Rendezvous.offerAll]
    | notification =>
      exact ⟨rfl, (s.notifications.pushAll_singleton _).symm, rfl, rfl, rfl, rfl⟩
  · rename_i hpush
    rw [hpush]
    exact ⟨rfl, hnone.symm, rfl, rfl, rfl, rfl⟩
  · rename_i hpush
    rw [hpush]
    exact ⟨rfl, hnone.symm, rfl, rfl, rfl, rfl⟩

/-- Nothing is read: what has been read stays, and so do the counters of what it brought. -/
structure Unread [FarEnd L] (s s' : Session L) : Prop where
  settings : s'.settings = s.settings
  now : s'.now = s.now
  framer : s'.framer = s.framer
  incoming : FarEnd.incoming s'.link = FarEnd.incoming s.link
  notifications : s'.notifications = s.notifications
  replies : s'.counters.replies = s.counters.replies
  dropped : s'.counters.droppedReplies = s.counters.droppedReplies
  timeouts : s'.counters.timeouts = s.counters.timeouts
  acks : s'.counters.acksSent + s'.acksDue = s.counters.acksSent + s.acksDue

end Session

/-! ### A session and a target that answers -/

/-- A session whose calls take turns, and a target: what it has sent, and what of it has not
been delivered yet; what the session has read, which notifications were taken from the
queue, and what was on the wire when the turn of a call to write came. -/
structure Dialogue (L : Type) extends Turns L where
  sent : List Segment := []
  unsent : Bytes := []
  read : Bytes := []
  received : List Packet := []
  writtenAt : ℕ → Option Bytes := fun _ => none

/-- What can happen next. -/
inductive Dialogue.Event where
  | move (a : Agent)
  /-- A packet is asked for, once all calls before are over. -/
  | command (command payload : String)
  /-- The target answers the command whose answer is next. -/
  | reply (p : Packet)
  /-- The target sends something that is not a reply. -/
  | chatter (g : Segment)
  /-- Up to so many bytes of what the target sent are delivered. -/
  | deliver (n : ℕ)
  | advance (ms : ℕ)
  | takeQueue
  /-- The next notification is taken from the queue. -/
  | receive

namespace Dialogue

open CallPhase

section World

variable {L : Type} [Link L] [FarEnd L]

/-- What the framer has said about what was read. -/
def said (x : Dialogue L) : List Frame :=
  (Framer.fresh x.session.settings.maxFrameLen).feed x.read

/-- The replies that the session has read. -/
def heard (x : Dialogue L) : List Packet := x.said.filterMap Frame.reply?

/-- The notifications that the session has read. -/
def noted (x : Dialogue L) : List Packet := x.said.filterMap Frame.notification?

/-- The replies that the target has sent, each the answer to the command of its number. -/
def answers (x : Dialogue L) : List Packet := x.sent.filterMap Segment.reply?

/-- The notifications that the target has sent. -/
def notes (x : Dialogue L) : List Packet := x.sent.filterMap Segment.notification?

/-- The target has received the whole command frame of call `n`. -/
def Received (x : Dialogue L) (n : ℕ) : Prop :=
  ∃ w ∈ x.writtenAt n, ∃ bytes ∈ x.session.frame? n, w ++ bytes <+: Link.delivered x.session.link

instance (x : Dialogue L) (n : ℕ) : Decidable (x.Received n) :=
  inferInstanceAs (Decidable (∃ w ∈ x.writtenAt n, ∃ bytes ∈ x.session.frame? n,
    w ++ bytes <+: Link.delivered x.session.link))

/-- The answer to call `n` is there: it has been read, or all of it was delivered and the
session has done what it could. -/
def Answered (x : Dialogue L) (n : ℕ) : Prop :=
  n < x.heard.length ∨ n < x.answers.length ∧ x.unsent = [] ∧ Interplay.AtRest x.session

instance (x : Dialogue L) (n : ℕ) : Decidable (x.Answered n) :=
  inferInstanceAs (Decidable (_ ∨ _ ∧ _ ∧ _))

/-- The clock can be moved on: whoever runs out of time by then has its answer. -/
def InTime (x : Dialogue L) (ms : ℕ) : Prop :=
  ∀ n < x.session.calls.length, ∀ d ∈ (x.session.phase? n).bind deadline?,
    d ≤ x.session.now + ms → x.Answered n

instance (x : Dialogue L) (ms : ℕ) : Decidable (x.InTime ms) :=
  inferInstanceAs (Decidable (∀ n < x.session.calls.length,
    ∀ d ∈ (x.session.phase? n).bind deadline?, d ≤ x.session.now + ms → x.Answered n))

/-- The bytes that a move takes off the link. -/
def taken (x : Dialogue L) : Agent → Bytes
  | .reader => x.session.nextByte.toList
  | _ => []

/-- The notes on the wire once an agent has moved. -/
def noteWrite (x : Dialogue L) (a : Agent) (n : ℕ) : Option Bytes :=
  if a = .call n ∧ Exchange.turnsToWrite x.session n = true then some (Link.wire x.session.link)
  else x.writtenAt n

/-- The target sends a segment. -/
def sends (x : Dialogue L) (g : Segment) : Dialogue L :=
  { x with sent := x.sent ++ [g], unsent := x.unsent ++ g.bytes }

/-- One thing happens. What cannot happen changes nothing. -/
def step (x : Dialogue L) : Event → Dialogue L
  | .move a =>
    if Interplay.ready x.session a then
      { x with
        toTurns := x.toTurns.step (.move a)
        read := x.read ++ x.taken a
        writtenAt := x.noteWrite a }
    else x
  | .command command payload =>
    if x.session.hasLiveCall then x
    else { x with toTurns := x.toTurns.step (.issue (.packet command payload)) }
  | .reply p =>
    if p.kind = .reply ∧ (Segment.frame p).Fits x.session.settings.maxFrameLen ∧
        x.Received x.answers.length then
      x.sends (.frame p)
    else x
  | .chatter g =>
    if g.reply? = none ∧ g.Fits x.session.settings.maxFrameLen then x.sends g else x
  | .deliver n =>
    { x with
      toTurns := x.toTurns.step (.link (FarEnd.send x.session.link (x.unsent.take n)))
      unsent := x.unsent.drop n }
  | .advance ms => if x.InTime ms then { x with toTurns := x.toTurns.step (.advance ms) } else x
  | .takeQueue => { x with toTurns := x.toTurns.step .takeQueue }
  | .receive =>
    match x.session.notifications.receive with
    | (q, some (.packet p)) =>
      { x with toTurns := x.toTurns.step (.queue q), received := x.received ++ [p] }
    | _ => x

def run (x : Dialogue L) (es : List Event) : Dialogue L := es.foldl step x

end World

/-- A new session on a link. -/
def start {L : Type} (link : L) (settings : SessionSettings) : Dialogue L :=
  { toTurns := Turns.start link settings }

/-- Something that can come of a new session on a link in working order, over which nothing
was sent yet. -/
def Reached {L : Type} [Link L] [Steady L] (x : Dialogue L) : Prop :=
  ∃ (link : L) (settings : SessionSettings) (es : List Event),
    Steady.works link false none ∧ FarEnd.incoming link = [] ∧ Link.wire link = [] ∧
      0 < settings.replyTimeoutMs ∧ x = (start link settings).run es

/-! ### The invariant -/

section Invariant

variable {L : Type} {x y : Dialogue L} {base base' : Bytes} {n : ℕ}

/-- Every reply is counted and acknowledged once, and none is dropped or waited for in
vain. -/
structure Counted (x : Dialogue L) : Prop where
  replies : x.session.counters.replies = x.heard.length
  dropped : x.session.counters.droppedReplies = 0
  timeouts : x.session.counters.timeouts = 0
  acks : x.session.counters.acksSent + x.session.acksDue = x.heard.length

/-- Only the last call may not be over, and nothing is answered or written for a call that
has not claimed a reply. -/
structure Sequenced (x : Dialogue L) : Prop where
  past : ∀ n, n + 1 < x.session.calls.length → ∃ r, x.session.phase? n = some (.ended r)
  asked : ∀ n < x.answers.length, ¬Early (x.session.phase? n)
  begun : ∀ n, x.writtenAt n ≠ none → ¬Early (x.session.phase? n)

/-- The writes that are over: acknowledgements, as many as were counted, and command
frames. -/
structure Logged (x : Dialogue L) (ws : List Bytes) : Prop where
  pieces : ∀ w ∈ ws, w = [ackByte] ∨ ∃ n, x.session.frame? n = some w
  acks : ws.count [ackByte] = x.session.counters.acksSent
  turn : ∀ n o r, x.session.outlet.line = ⟨.call n, o, true⟩ :: r →
    x.writtenAt n = some ws.flatten

/-- The ticket of call `n` waits in the slot for reply `n`, or has got it. -/
def Awaits (x : Dialogue L) (n t : ℕ) : Prop :=
  x.heard.length = n ∧ x.session.rendezvous.slot = some t ∧
      x.session.rendezvous.channel t = .opened ∨
    x.heard.length = n + 1 ∧ ∃ p, x.heard[n]? = some p ∧ x.session.rendezvous.channel t = .full p

/-- What the phase of call `n` has to do with the replies; `base` is on the wire. -/
def Stage (x : Dialogue L) (base : Bytes) (n : ℕ) : Option CallPhase → Prop
  | none => True
  | some .issued | some .queued => x.heard.length = n
  | some (.sending t) => x.Awaits n t
  | some (.awaiting t d) => x.Awaits n t ∧ (x.heard.length = n → x.session.now < d) ∧
      ∃ w bytes, x.writtenAt n = some w ∧ x.session.frame? n = some bytes ∧ w ++ bytes <+: base
  | some (.ended r) => ∃ p, x.heard[n]? = some p ∧ r = .ok (.packet p)
  | _ => False

/-- A call for which reply `n` is no news is in the stage it was in. -/
theorem Stage.past {o : Option CallPhase} (h : x.Stage base n o)
    (ho : o = none ∨ ∃ r, o = some (.ended r)) (hheard : x.heard <+: y.heard) :
    y.Stage base' n o := by
  rcases ho with rfl | ⟨r, rfl⟩
  · trivial
  · obtain ⟨p, hp, hr⟩ := h
    exact ⟨p, getElem?_mono hheard hp, hr⟩

/-- Nothing that a call relies on changes, and more gets on the wire. -/
theorem Stage.mono {o : Option CallPhase} (h : x.Stage base n o) (hheard : y.heard = x.heard)
    (hm : y.session.rendezvous = x.session.rendezvous) (hnow : y.session.now = x.session.now)
    (hframe : y.session.frame? n = x.session.frame? n)
    (hwrite : ∀ t d, o = some (.awaiting t d) → y.writtenAt n = x.writtenAt n)
    (hbase : base <+: base') : y.Stage base' n o := by
  have hawaits : ∀ t, y.Awaits n t ↔ x.Awaits n t := by
    intro t
    rw [Awaits, Awaits, hheard, hm]
  cases o with
  | none => trivial
  | some o =>
    cases o with
    | issued | queued => exact (congrArg List.length hheard).trans h
    | sending t => exact (hawaits t).mpr h
    | awaiting t d =>
      obtain ⟨ha, hd, w, bytes, hw, hf, hon⟩ := h
      refine ⟨(hawaits t).mpr ha, fun hl => ?_, w, bytes, (hwrite t d rfl).trans hw,
        hframe.trans hf, hon.trans hbase⟩
      rw [hnow]
      rw [hheard] at hl
      exact hd hl
    | ended r =>
      obtain ⟨p, hp, hr⟩ := h
      exact ⟨p, hheard ▸ hp, hr⟩
    | shutting | joining | aborted => exact h

/-- The reply that a call waits for is read, and its ticket gets it. -/
theorem Stage.answered {o : CallPhase} {t : ℕ} {p : Packet} (h : x.Stage base n (some o))
    (ho : o.ticket? = some t) (hlast : x.heard.length = n) (hheard : y.heard = x.heard ++ [p])
    (hfull : y.session.rendezvous.channel t = .full p)
    (hframe : y.session.frame? n = x.session.frame? n) (hwrite : y.writtenAt n = x.writtenAt n) :
    y.Stage base n (some o) := by
  have hlength : y.heard.length = n + 1 := by
    rw [hheard, List.length_append, hlast, List.length_singleton]
  have hawaits : y.Awaits n t := by
    refine .inr ⟨hlength, p, ?_, hfull⟩
    rw [hheard, ← hlast, List.getElem?_concat_length]
  cases o with
  | sending t' =>
    obtain rfl : t' = t := Option.some.inj ho
    exact hawaits
  | awaiting t' d =>
    obtain rfl : t' = t := Option.some.inj ho
    obtain ⟨-, -, w, bytes, hw, hf, hon⟩ := h
    refine ⟨hawaits, fun hl => ?_, w, bytes, hwrite.trans hw, hframe.trans hf, hon⟩
    omega
  | _ => cases ho

theorem heard_congr (hset : y.session.settings = x.session.settings) (hread : y.read = x.read) :
    y.heard = x.heard ∧ y.noted = x.noted := by
  rw [heard, heard, noted, noted, said, said, hset, hread]
  exact ⟨rfl, rfl⟩

/-- If one call is not over, all others are. -/
theorem Sequenced.others (h : x.Sequenced) {o : CallPhase} (hn : x.session.phase? n = some o)
    (ho : ∀ r, o ≠ .ended r) {k : ℕ} (hk : k ≠ n) :
    x.session.phase? k = none ∨ ∃ r, x.session.phase? k = some (.ended r) := by
  have hlt := Turns.lt_length_of_phase hn
  rcases Nat.lt_or_gt_of_ne hk with hkn | hkn
  · exact .inr (h.past k (by omega))
  · by_cases hlength : k < x.session.calls.length
    · obtain ⟨r, hr⟩ := h.past n (by omega)
      exact absurd (Option.some.inj (hn.symm.trans hr)) (ho r)
    · left
      rw [Session.phase?, List.getElem?_eq_none (Nat.le_of_not_lt hlength), Option.map_none]

/-- Calls go on only. -/
theorem Sequenced.transfer (h : x.Sequenced)
    (hlength : y.session.calls.length = x.session.calls.length)
    (hended : ∀ n r, x.session.phase? n = some (.ended r) → y.session.phase? n = some (.ended r))
    (hlate : ∀ n, ¬Early (x.session.phase? n) → ¬Early (y.session.phase? n))
    (hsent : y.sent = x.sent)
    (hwrite : ∀ n, y.writtenAt n = x.writtenAt n ∨ ∃ t, x.session.phase? n = some (.sending t)) :
    y.Sequenced := by
  refine ⟨fun n hn => ?_, fun n hn => ?_, fun n hn => ?_⟩
  · obtain ⟨r, hr⟩ := h.past n (hlength ▸ hn)
    exact ⟨r, hended n r hr⟩
  · rw [answers, hsent] at hn
    exact hlate n (h.asked n hn)
  · rcases hwrite n with hw | ⟨t, ht⟩
    · exact hlate n (h.begun n (hw ▸ hn))
    · exact hlate n (by rw [ht]; exact id)

theorem Counted.of_eq (h : x.Counted) (hheard : y.heard = x.heard)
    (hreplies : y.session.counters.replies = x.session.counters.replies)
    (hdropped : y.session.counters.droppedReplies = x.session.counters.droppedReplies)
    (htimeouts : y.session.counters.timeouts = x.session.counters.timeouts)
    (hacks : y.session.counters.acksSent + y.session.acksDue
      = x.session.counters.acksSent + x.session.acksDue) : y.Counted where
  replies := by rw [hreplies, hheard, h.replies]
  dropped := hdropped.trans h.dropped
  timeouts := htimeouts.trans h.timeouts
  acks := by rw [hacks, hheard, h.acks]

/-- Replies are read, none of them is dropped, and an acknowledgement is due for each. -/
theorem Counted.reads (h : x.Counted) {ps : List Packet} (hheard : y.heard = x.heard ++ ps)
    (hreplies : y.session.counters.replies = x.session.counters.replies + ps.length)
    (hdropped : y.session.counters.droppedReplies = x.session.counters.droppedReplies)
    (htimeouts : y.session.counters.timeouts = x.session.counters.timeouts)
    (hacks : y.session.counters.acksSent = x.session.counters.acksSent)
    (hidle : x.session.acksDue = 0) (hdue : y.session.acksDue = ps.length) : y.Counted where
  replies := by rw [hreplies, hheard, h.replies, List.length_append]
  dropped := hdropped.trans h.dropped
  timeouts := htimeouts.trans h.timeouts
  acks := by
    have hacked := h.acks
    rw [hidle, Nat.add_zero] at hacked
    rw [hacks, hdue, hheard, hacked, List.length_append]

/-- No write is over. -/
theorem Logged.keep {ws : List Bytes} (h : x.Logged ws)
    (hframe : ∀ n, y.session.frame? n = x.session.frame? n)
    (hacks : y.session.counters.acksSent = x.session.counters.acksSent)
    (hwrite : y.writtenAt = x.writtenAt)
    (hline : ∀ n o r, y.session.outlet.line = ⟨.call n, o, true⟩ :: r →
      ∃ r', x.session.outlet.line = ⟨.call n, o, true⟩ :: r') : y.Logged ws := by
  refine ⟨fun w hw => ?_, h.acks.trans hacks.symm, fun n o r hr => ?_⟩
  · refine (h.pieces w hw).imp_right ?_
    rintro ⟨n, hn⟩
    exact ⟨n, (hframe n).trans hn⟩
  · obtain ⟨r', hr'⟩ := hline n o r hr
    rw [hwrite]
    exact h.turn n o r' hr'

/-- Nobody has begun to write. -/
theorem Logged.idle {ws : List Bytes} (h : x.Logged ws)
    (hframe : ∀ n, y.session.frame? n = x.session.frame? n)
    (hacks : y.session.counters.acksSent = x.session.counters.acksSent)
    (hidle : ∀ e ∈ y.session.outlet.line, e.begun = false) : y.Logged ws := by
  refine ⟨fun w hw => ?_, h.acks.trans hacks.symm, fun n o r hr => ?_⟩
  · refine (h.pieces w hw).imp_right ?_
    rintro ⟨n, hn⟩
    exact ⟨n, (hframe n).trans hn⟩
  · have hfirst := hidle ⟨.call n, o, true⟩ (hr ▸ List.mem_cons_self)
    cases hfirst

/-- One more write is over, and nobody else has begun. -/
theorem Logged.more {ws : List Bytes} (h : x.Logged ws)
    (hframe : ∀ n, y.session.frame? n = x.session.frame? n) {w : Bytes}
    (hw : w = [ackByte] ∨ ∃ n, y.session.frame? n = some w)
    (hacks : y.session.counters.acksSent
      = x.session.counters.acksSent + if w = [ackByte] then 1 else 0)
    (hidle : ∀ e ∈ y.session.outlet.line, e.begun = false) : y.Logged (ws ++ [w]) := by
  refine ⟨fun v hv => ?_, ?_, fun n o r hr => ?_⟩
  · rcases List.mem_append.mp hv with hv | hv
    · refine (h.pieces v hv).imp_right ?_
      rintro ⟨n, hn⟩
      exact ⟨n, (hframe n).trans hn⟩
    · rw [List.mem_singleton.mp hv]
      exact hw
  · rw [List.count_append, h.acks, hacks, List.count_singleton]
    simp only [beq_iff_eq]
  · have hfirst := hidle ⟨.call n, o, true⟩ (hr ▸ List.mem_cons_self)
    cases hfirst

/-- A command frame is no acknowledgement. -/
theorem frame_ne_ack {s : Session L} {bytes : Bytes} (h : s.frame? n = some bytes) :
    bytes ≠ [ackByte] := by
  rintro rfl
  obtain ⟨c, -, hc⟩ := Option.bind_eq_some_iff.mp h
  obtain ⟨b, -, hb⟩ := Option.map_eq_some_iff.mp hc
  have hlength := congrArg List.length hb
  simp [commandFrame, Hex.digitPair] at hlength

variable [Link L]

/-- The turn of a call to write is noted once. -/
theorem noteWrite_or (x : Dialogue L) (a : Agent) (n : ℕ) :
    x.noteWrite a n = x.writtenAt n ∨ ∃ t, x.session.phase? n = some (.sending t) := by
  by_cases hs : ∃ t, x.session.phase? n = some (.sending t)
  · exact .inr hs
  · left
    have hquiet : Exchange.turnsToWrite x.session n = false :=
      Exchange.turnsToWrite_eq_false fun t ht => hs ⟨t, ht⟩
    exact if_neg fun h => Bool.false_ne_true (hquiet.symm.trans h.2)

/-- Only a call that writes has something noted. -/
theorem noteWrite_quiet {a : Agent} (h : ∀ n t, a = .call n → x.session.phase? n ≠ some (.sending t)) :
    x.noteWrite a = x.writtenAt := by
  funext n
  refine if_neg fun hno => ?_
  have hquiet := Exchange.turnsToWrite_eq_false fun t => h n t hno.1
  rw [hquiet] at hno
  cases hno.2

variable [FarEnd L]

/-- What the target sent arrives in order and is read in order, and the notifications are
queued as they come. -/
structure Carried (x : Dialogue L) : Prop where
  framer : x.session.framer = (Framer.fresh x.session.settings.maxFrameLen).after x.read
  fits : ∀ g ∈ x.sent, g.Fits x.session.settings.maxFrameLen
  bytes : x.read ++ FarEnd.incoming x.session.link ++ x.unsent = x.sent.flatMap Segment.bytes
  queue : ∃ ps, x.session.notifications.queued = some ps ∧ x.received ++ ps = x.noted

/-- Nothing is read or sent. -/
theorem Carried.of_eq (h : x.Carried) (hset : y.session.settings = x.session.settings)
    (hframer : y.session.framer = x.session.framer)
    (hin : FarEnd.incoming y.session.link = FarEnd.incoming x.session.link)
    (hqueue : y.session.notifications = x.session.notifications) (hread : y.read = x.read)
    (hsent : y.sent = x.sent) (hunsent : y.unsent = x.unsent)
    (hreceived : y.received = x.received) : y.Carried := by
  refine ⟨?_, ?_, ?_, ?_⟩
  · rw [hframer, hset, hread]
    exact h.framer
  · rw [hsent, hset]
    exact h.fits
  · rw [hread, hin, hunsent, hsent]
    exact h.bytes
  · rw [hqueue, hreceived, (heard_congr hset hread).2]
    exact h.queue

/-- What is said when a byte is read comes behind what was said. -/
theorem Carried.said_read (h : x.Carried) {b : UInt8}
    (hset : y.session.settings = x.session.settings) (hread : y.read = x.read ++ [b]) :
    y.said = x.said ++ (x.session.framer.push b).2.toList := by
  rw [said, said, hset, hread, Framer.feed_append, ← h.framer, Framer.feed_singleton]

/-- A byte is read. -/
theorem Carried.reads (h : x.Carried) {b : UInt8}
    (hset : y.session.settings = x.session.settings)
    (hframer : y.session.framer = (x.session.framer.push b).1)
    (hin : FarEnd.incoming x.session.link = b :: FarEnd.incoming y.session.link)
    (hqueue : y.session.notifications = x.session.notifications.pushAll
      ((x.session.framer.push b).2.toList.filterMap Frame.notification?))
    (hread : y.read = x.read ++ [b]) (hsent : y.sent = x.sent) (hunsent : y.unsent = x.unsent)
    (hreceived : y.received = x.received) : y.Carried := by
  refine ⟨?_, ?_, ?_, ?_⟩
  · rw [hframer, hset, hread, Framer.after_append, ← h.framer]
    rfl
  · rw [hsent, hset]
    exact h.fits
  · rw [hread, hunsent, hsent, ← h.bytes, hin, List.append_assoc x.read, List.singleton_append]
  · obtain ⟨qs, hqs, hbefore⟩ := h.queue
    refine ⟨qs ++ (x.session.framer.push b).2.toList.filterMap Frame.notification?, ?_, ?_⟩
    · rw [hqueue, Notifications.pushAll, hqs]
      rfl
    · rw [noted, h.said_read hset hread, List.filterMap_append, hreceived, ← List.append_assoc,
        hbefore, noted]

/-- The replies that were read are the first ones that were sent, and so are the
notifications. -/
theorem Carried.prefixes (h : x.Carried) : x.heard <+: x.answers ∧ x.noted <+: x.notes := by
  have hall := Framer.feed_segments h.fits
  rw [← h.bytes, List.append_assoc, Framer.feed_append] at hall
  have hsaid : x.said <+: x.sent.filterMap (Segment.output x.session.settings.maxFrameLen) :=
    hall ▸ List.prefix_append _ _
  have hanswers : x.answers = (x.sent.filterMap
      (Segment.output x.session.settings.maxFrameLen)).filterMap Frame.reply? := by
    rw [List.filterMap_filterMap, answers]
    exact List.filterMap_congr fun g _ => (Segment.reply?_eq _ g).symm
  have hnotes : x.notes = (x.sent.filterMap
      (Segment.output x.session.settings.maxFrameLen)).filterMap Frame.notification? := by
    rw [List.filterMap_filterMap, notes]
    exact List.filterMap_congr fun g _ => (Segment.notification?_eq _ g).symm
  rw [hanswers, hnotes]
  exact ⟨hsaid.filterMap _, hsaid.filterMap _⟩

end Invariant

section Sound

variable {L : Type} [Link L] [Steady L] {x y : Dialogue L} {n : ℕ}

/-- The writes that are over are `ws`, and every call is where it should be. -/
structure Traced (x : Dialogue L) (ws : List Bytes) : Prop where
  afloat : x.session.Afloat ws.flatten
  logged : x.Logged ws
  stage : ∀ n, x.Stage ws.flatten n (x.session.phase? n)

/-- Everything goes as it should. -/
structure Sound (x : Dialogue L) : Prop where
  lined : x.toTurns.Lined
  aloud : x.toTurns.Aloud
  carried : x.Carried
  counted : x.Counted
  patience : 0 < x.session.settings.replyTimeoutMs
  sequenced : x.Sequenced
  traced : ∃ ws, x.Traced ws

/-- No call gets into another phase, and nothing is read. -/
theorem Sound.still (h : x.Sound) (hlined : y.toTurns.Lined) (haloud : y.toTurns.Aloud)
    (hcarried : y.Carried) (hcounted : y.Counted)
    (hset : y.session.settings = x.session.settings) (hcalls : y.session.calls = x.session.calls)
    (hm : y.session.rendezvous = x.session.rendezvous) (hnow : y.session.now = x.session.now)
    (hread : y.read = x.read) (hsent : y.sent = x.sent)
    (hwrite : ∀ n, y.writtenAt n = x.writtenAt n ∨ ∃ t, x.session.phase? n = some (.sending t))
    {ws ws' : List Bytes} (hafloat : y.session.Afloat ws'.flatten) (hlogged : y.Logged ws')
    (hstage : ∀ n, x.Stage ws.flatten n (x.session.phase? n))
    (hbase : ws.flatten <+: ws'.flatten) : y.Sound := by
  have hphase := Session.phase?_of_calls hcalls
  have hframe := Session.frame?_of_calls hcalls
  refine ⟨hlined, haloud, hcarried, hcounted, hset ▸ h.patience, ?_, ws', hafloat, hlogged,
    fun n => ?_⟩
  · refine h.sequenced.transfer (congrArg _ hcalls) (fun n r hr => ?_) (fun n hn => ?_) hsent hwrite
    · rw [hphase, hr]
    · rw [hphase]
      exact hn
  · rw [hphase]
    refine (hstage n).mono (heard_congr hset hread).1 hm hnow (hframe n) (fun t d ho => ?_) hbase
    refine (hwrite n).resolve_right ?_
    rintro ⟨t', ht'⟩
    rw [ho] at ht'
    cases ht'

/-- One call gets into another phase, and nothing is read. -/
theorem Sound.turns (h : x.Sound) (hlined : y.toTurns.Lined) (haloud : y.toTurns.Aloud)
    (hcarried : y.Carried) (hcounted : y.Counted)
    (hset : y.session.settings = x.session.settings) {u : Session L} {n : ℕ} {o φ : CallPhase}
    (hcalls : u.calls = x.session.calls) (hy : y.session = u.setPhase n φ)
    (ho : x.session.phase? n = some o) (hlive : ∀ r, o ≠ .ended r)
    (hlate : ¬Early (some o) → ¬Early (some φ)) (hread : y.read = x.read) (hsent : y.sent = x.sent)
    (hwrite : ∀ n, y.writtenAt n = x.writtenAt n ∨ ∃ t, x.session.phase? n = some (.sending t))
    {ws ws' : List Bytes} (hafloat : y.session.Afloat ws'.flatten) (hlogged : y.Logged ws')
    (hstage : ∀ n, x.Stage ws.flatten n (x.session.phase? n))
    (hn : y.Stage ws'.flatten n (some φ)) : y.Sound := by
  have hphase : u.phase? n = some o := (Session.phase?_of_calls hcalls n).trans ho
  have hself : y.session.phase? n = some φ := by rw [hy, Session.phase?_setPhase_self hphase]
  have hother : ∀ k ≠ n, y.session.phase? k = x.session.phase? k := by
    intro k hk
    rw [hy, Session.phase?_setPhase_ne u hk.symm, Session.phase?_of_calls hcalls]
  have hlength : y.session.calls.length = x.session.calls.length := by
    rw [hy, Session.setPhase, List.length_modify, hcalls]
  refine ⟨hlined, haloud, hcarried, hcounted, hset ▸ h.patience, ?_, ws', hafloat, hlogged,
    fun k => ?_⟩
  · refine h.sequenced.transfer hlength (fun k r hr => ?_) (fun k hk => ?_) hsent hwrite
    · by_cases hkn : k = n
      · rw [hkn, ho] at hr
        exact absurd (Option.some.inj hr) (hlive r)
      · rw [hother k hkn, hr]
    · by_cases hkn : k = n
      · rw [hkn, hself]
        rw [hkn, ho] at hk
        exact hlate hk
      · rw [hother k hkn]
        exact hk
  · by_cases hkn : k = n
    · rw [hkn, hself]
      exact hn
    · rw [hother k hkn]
      exact (hstage k).past (h.sequenced.others ho hlive hkn)
        ((heard_congr hset hread).1 ▸ List.prefix_rfl)

/-- What was on the wire when the turn of the first in line came is noted. -/
theorem Traced.turn {ws : List Bytes} (h : x.Traced ws) {o : Outgoing} {begun : Bool}
    {r : List Outlet.Entry} (hline : x.session.outlet.line = ⟨.call n, o, begun⟩ :: r) :
    x.noteWrite (.call n) n = some ws.flatten := by
  have hserves := h.afloat.serves
  rw [hline] at hserves
  have hwants := hserves.head
  have hturn : Exchange.turnsToWrite x.session n = !begun := by
    unfold Session.wants at hwants
    simp only at hwants
    split at hwants
    · rename_i t ht
      simp only [Exchange.turnsToWrite, ht, hline]
      cases begun <;> rfl
    · cases hwants
  cases begun with
  | true =>
    refine Eq.trans (if_neg fun hno => ?_) (h.logged.turn n o r hline)
    rw [hturn] at hno
    cases hno.2
  | false =>
    obtain ⟨put, hbelow⟩ := h.afloat.below
    obtain ⟨rfl, -⟩ := hbelow.idle fun e he => by
      rw [hline] at he
      rw [← Option.some.inj he]
    have hwire := hbelow.wire
    rw [List.append_nil] at hwire
    rw [Dialogue.noteWrite, if_pos ⟨rfl, hturn⟩, hwire]

/-- A wait that can end ends with reply number `n`: before it is read there is time left. -/
theorem Traced.collect {ws : List Bytes} (h : x.Traced ws) {t d : ℕ}
    (hp : x.session.phase? n = some (.awaiting t d))
    (hready : x.session.rendezvous.channel t ≠ .opened ∨ d ≤ x.session.now)
    {command payload : String} : ∃ p, x.heard[n]? = some p ∧
      x.session.collect n t (.packet command payload) = ({ x.session with
        rendezvous := x.session.rendezvous.abandon t
        commandLine := x.session.commandLine.erase n } : Session L).setPhase n
          (.ended (.ok (.packet p))) := by
  have hn := h.stage n
  rw [hp] at hn
  obtain ⟨⟨hl, -, hopen⟩ | ⟨-, p, hheard, hfull⟩, htime, -⟩ := hn
  · have hlt := htime hl
    rcases hready with hne | hd
    · exact absurd hopen hne
    · omega
  · refine ⟨p, hheard, ?_⟩
    simp only [Session.collect, hfull]
    exact Session.finish_of_held (by exact h.afloat.held) n _

/-- A move that reads nothing brings nothing. -/
theorem Traced.unread {ws : List Bytes} (h : x.Traced ws) {a : Agent} {s : Session L}
    {base : Bytes} (hs : x.session.Smooth ws.flatten a s base)
    (hnext : a = .reader → x.session.nextByte = none) : x.session.Unread s := by
  cases hs with
  | waits reader next incoming labour below =>
    exact ⟨rfl, rfl, rfl, incoming, rfl, rfl, rfl, rfl, by simp only [Session.acksDue, reader]⟩
  | reads reader next incoming labour below =>
    rw [hnext rfl] at next
    cases next
  | helps helper incoming labour below => exact ⟨rfl, rfl, rfl, incoming, rfl, rfl, rfl, rfl, rfl⟩
  | writes write line => exact ⟨rfl, rfl, rfl, write.incoming, rfl, rfl, rfl, rfl, rfl⟩
  | acked reader write line =>
    refine ⟨rfl, rfl, rfl, write.incoming, rfl, rfl, rfl, rfl, ?_⟩
    simp only [Session.acksDue, reader]
    rfl
  | resent reader write line =>
    refine ⟨rfl, rfl, rfl, write.incoming, rfl, rfl, rfl, rfl, ?_⟩
    simp only [Session.acksDue, reader]
    rfl
  | spared reader write line =>
    exact ⟨rfl, rfl, rfl, write.incoming, rfl, rfl, rfl, rfl, by simp only [Session.acksDue, reader]⟩
  | asks phase => exact ⟨rfl, rfl, rfl, rfl, rfl, rfl, rfl, rfl, rfl⟩
  | claims phase frame claim => exact ⟨rfl, rfl, rfl, rfl, rfl, rfl, rfl, rfl, rfl⟩
  | sent phase frame write line => exact ⟨rfl, rfl, rfl, write.incoming, rfl, rfl, rfl, rfl, rfl⟩
  | @collects n t d command payload call ready =>
    have hp : x.session.phase? n = some (.awaiting t d) := by rw [Session.phase?, call]; rfl
    obtain ⟨p, -, hcollect⟩ := h.collect hp ready
    rw [hcollect]
    exact ⟨rfl, rfl, rfl, rfl, rfl, rfl, rfl, rfl, rfl⟩

/-- **A move that reads nothing** keeps everything right. -/
theorem Sound.smooth (h : x.Sound) {ws : List Bytes} (ht : x.Traced ws) {a : Agent}
    {s : Session L} {base : Bytes} (hs : x.session.Smooth ws.flatten a s base)
    (hsafe : s.Afloat base) (hnext : a = .reader → x.session.nextByte = none)
    {order spoken : List ℕ} {prompt : Bool}
    (hlined : (⟨s, order, spoken, prompt⟩ : Turns L).Lined)
    (haloud : (⟨s, order, spoken, prompt⟩ : Turns L).Aloud)
    (hy : y = { x with session := s, order, spoken, prompt, writtenAt := x.noteWrite a }) :
    y.Sound := by
  have hlogged := ht.logged
  have hstage := ht.stage
  have hwrite := x.noteWrite_or a
  have hbrings := ht.unread hs hnext
  have hcarried : y.Carried := by
    subst hy
    exact h.carried.of_eq hbrings.settings hbrings.framer hbrings.incoming hbrings.notifications
      rfl rfl rfl rfl
  have hheard : y.heard = x.heard :=
    (heard_congr (by rw [hy]; exact hbrings.settings) (by rw [hy])).1
  have hcounted : y.Counted := by
    subst hy
    exact h.counted.of_eq hheard hbrings.replies hbrings.dropped hbrings.timeouts hbrings.acks
  have hidle {e : Outlet.Entry} {r : List Outlet.Entry} {w : Outlet} {l : L} {base : Bytes}
      (write : x.session.Writes e r w l base) (line : w.line = r) :
      ∀ e ∈ w.line, e.begun = false := line ▸ write.behind ht.afloat
  subst hy
  cases hs with
  | waits reader next incoming labour below =>
    refine h.still hlined haloud hcarried hcounted rfl rfl rfl rfl rfl rfl hwrite hsafe ?_ hstage
      List.prefix_rfl
    have hquiet : x.noteWrite .reader = x.writtenAt := noteWrite_quiet fun n t ha => by cases ha
    exact hlogged.keep (fun _ => rfl) rfl hquiet fun n o r hr => ⟨r, hr⟩
  | reads reader next incoming labour below =>
    rw [hnext rfl] at next
    cases next
  | helps helper incoming labour below =>
    refine h.still hlined haloud hcarried hcounted rfl rfl rfl rfl rfl rfl hwrite hsafe ?_ hstage
      List.prefix_rfl
    have hquiet : x.noteWrite a = x.writtenAt :=
      noteWrite_quiet fun n t ha => absurd ha (helper.2 n)
    exact hlogged.keep (fun _ => rfl) rfl hquiet fun n o r hr => ⟨r, hr⟩
  | @writes a o begun r w l write line =>
    refine h.still hlined haloud hcarried hcounted rfl rfl rfl rfl rfl rfl hwrite hsafe ?_ hstage
      List.prefix_rfl
    refine ⟨hlogged.pieces, hlogged.acks, fun n o' r' hr => ?_⟩
    obtain ⟨⟨⟩, -⟩ := List.cons.inj (line.symm.trans hr)
    exact ht.turn write.line
  | @acked begun r w l reader write line =>
    have hbase : ws.flatten ++ [ackByte] = (ws ++ [[ackByte]]).flatten := by simp
    rw [hbase] at hsafe
    refine h.still hlined haloud hcarried hcounted rfl rfl rfl rfl rfl rfl hwrite hsafe ?_ hstage
      (hbase ▸ List.prefix_append _ _)
    refine hlogged.more ?_ (.inl rfl) ?_ (hidle write line)
    · exact fun n => rfl
    · rw [if_pos rfl]
      rfl
  | @resent begun r w l reader write line =>
    cases hlast : x.session.outlet.last with
    | none =>
      rw [hlast, Option.getD_none, List.append_nil] at hsafe
      refine h.still hlined haloud hcarried hcounted rfl rfl rfl rfl rfl rfl hwrite hsafe ?_ hstage
        List.prefix_rfl
      exact hlogged.idle (fun _ => rfl) rfl (hidle write line)
    | some bytes =>
      -- the frame that was kept is that of a call
      obtain ⟨k, -, hk⟩ := Option.bind_eq_some_iff.mp (h.aloud.last.symm.trans hlast)
      have hbase : ws.flatten ++ bytes = (ws ++ [bytes]).flatten := by simp
      rw [hlast, Option.getD_some, hbase] at hsafe
      refine h.still hlined haloud hcarried hcounted rfl rfl rfl rfl rfl rfl hwrite hsafe ?_ hstage
        (hbase ▸ List.prefix_append _ _)
      refine hlogged.more ?_ (.inr ⟨k, hk⟩) ?_ (hidle write line)
      · exact fun n => rfl
      · rw [if_neg (frame_ne_ack hk)]
        rfl
  | @spared begun r w l reader write line =>
    refine h.still hlined haloud hcarried hcounted rfl rfl rfl rfl rfl rfl hwrite hsafe ?_ hstage
      List.prefix_rfl
    exact hlogged.idle (fun _ => rfl) rfl (hidle write line)
  | @asks n phase =>
    refine h.turns hlined haloud hcarried hcounted rfl
      (u := { x.session with commandLine := x.session.commandLine ++ [n] }) rfl rfl phase
      (by rintro _ ⟨⟩) (fun hn => absurd trivial hn) rfl rfl hwrite hsafe ?_ hstage ?_
    · refine hlogged.keep (Session.frame?_congr (Session.asks_setPhase _ n .queued)) rfl
        (noteWrite_quiet fun k t hk => ?_) fun n o r hr => ⟨r, hr⟩
      rw [← Agent.call.inj hk, phase]
      rintro ⟨⟩
    · have hn := hstage n
      rw [phase] at hn
      exact hn
  | @claims n t bytes m phase frame claim =>
    obtain ⟨-, -, hopen⟩ := Rendezvous.claim_eq_some claim
    have hslot : m.slot = some t := by
      rw [x.session.rendezvous.claim_of_open ht.afloat.opened] at claim
      cases claim
      rfl
    refine h.turns hlined haloud hcarried hcounted rfl (u := { x.session with
        rendezvous := m
        outlet := x.session.outlet.enter (.call n) (.frame bytes) }) rfl rfl phase (by rintro _ ⟨⟩)
      (fun hn => absurd trivial hn) rfl rfl hwrite hsafe ?_ hstage ?_
    · refine hlogged.keep (Session.frame?_congr (Session.asks_setPhase _ n (.sending t))) rfl
        (noteWrite_quiet fun k t hk => ?_) fun k o r hr => Outlet.head_of_enter hr rfl
      rw [← Agent.call.inj hk, phase]
      rintro ⟨⟩
    · have hn := hstage n
      rw [phase] at hn
      exact .inl ⟨hn, hslot, hopen⟩
  | @sent n t bytes begun r w l phase frame write line =>
    have hbase : ws.flatten ++ bytes = (ws ++ [bytes]).flatten := by simp
    rw [hbase] at hsafe
    have hframe := Session.frame?_congr (Session.asks_setPhase
      (({ x.session with outlet := w, link := l } : Session L).count .commandsSent) n
      (.awaiting t (x.session.now + x.session.settings.replyTimeoutMs)))
    refine h.turns hlined haloud hcarried hcounted rfl
      (u := ({ x.session with outlet := w, link := l } : Session L).count .commandsSent) rfl rfl
      phase (by rintro _ ⟨⟩) (fun _ => id) rfl rfl hwrite hsafe ?_ hstage ?_
    · refine hlogged.more ?_ (.inr ⟨n, ?_⟩) ?_ (hidle write line)
      · exact hframe
      · exact (hframe n).trans frame
      · rw [if_neg (frame_ne_ack frame)]
        rfl
    · have hn := hstage n
      rw [phase] at hn
      refine ⟨hn, fun _ => Nat.lt_add_of_pos_right h.patience, ws.flatten, bytes,
        ht.turn write.line, (hframe n).trans frame, ?_⟩
      exact hbase ▸ List.prefix_rfl
  | @collects n t d command payload call ready =>
    have hp : x.session.phase? n = some (.awaiting t d) := by rw [Session.phase?, call]; rfl
    obtain ⟨p, hheard, hcollect⟩ := ht.collect hp ready
    rw [hcollect] at hlined haloud hsafe hcarried hcounted ⊢
    refine h.turns hlined haloud hcarried hcounted rfl (u := { x.session with
        rendezvous := x.session.rendezvous.abandon t
        commandLine := x.session.commandLine.erase n }) rfl rfl hp (by rintro _ ⟨⟩) (fun _ => id)
      rfl rfl hwrite hsafe ?_ hstage ⟨p, hheard, rfl⟩
    refine hlogged.keep (Session.frame?_congr (Session.asks_setPhase _ n _)) rfl
      (noteWrite_quiet fun k t hk => ?_) fun k o r hr => ⟨r, hr⟩
    rw [← Agent.call.inj hk, hp]
    rintro ⟨⟩

/-- The call whose reply is read next waits for it. -/
theorem Sound.waiter (h : x.Sound) {ws : List Bytes} (ht : x.Traced ws)
    (hless : x.heard.length < x.answers.length) : ∃ o t, x.session.phase? x.heard.length = some o ∧
      o.ticket? = some t ∧ x.session.rendezvous.slot = some t ∧
      x.session.rendezvous.channel t = .opened := by
  have hlate := h.sequenced.asked _ hless
  have hstage := ht.stage x.heard.length
  have hnone : x.heard[x.heard.length]? = none := List.getElem?_eq_none (Nat.le_refl _)
  cases ho : x.session.phase? x.heard.length with
  | none =>
    rw [ho] at hlate
    exact absurd trivial hlate
  | some o =>
    rw [ho] at hlate hstage
    cases o with
    | issued | queued => exact absurd trivial hlate
    | sending t =>
      obtain ⟨-, hslot, hopen⟩ | ⟨hl, -⟩ := hstage
      · exact ⟨_, t, rfl, rfl, hslot, hopen⟩
      · omega
    | awaiting t d =>
      obtain ⟨⟨-, hslot, hopen⟩ | ⟨hl, -⟩, -⟩ := hstage
      · exact ⟨_, t, rfl, rfl, hslot, hopen⟩
      · omega
    | ended r =>
      obtain ⟨p, hp, -⟩ := hstage
      rw [hnone] at hp
      cases hp
    | shutting | joining | aborted => exact hstage.elim

/-- **A byte that is read** keeps everything right: a reply that it completes finds its call
waiting. -/
theorem Sound.reads (h : x.Sound) {ws : List Bytes} (ht : x.Traced ws) {l : L} {b : UInt8}
    (hwants : x.session.wants .reader = none)
    (hin : FarEnd.incoming x.session.link = b :: FarEnd.incoming l)
    (hsafe : (({ x.session with link := l } : Session L).takeByte b).Afloat ws.flatten)
    {order spoken : List ℕ} {prompt : Bool}
    (hlined : (⟨({ x.session with link := l } : Session L).takeByte b, order, spoken, prompt⟩ :
      Turns L).Lined)
    (haloud : (⟨({ x.session with link := l } : Session L).takeByte b, order, spoken, prompt⟩ :
      Turns L).Aloud) :
    ({ x with
      session := ({ x.session with link := l } : Session L).takeByte b
      order, spoken, prompt
      read := x.read ++ [b] } : Dialogue L).Sound := by
  obtain ⟨hframer, hset, hlink, -, hm, -⟩ :=
    Session.takeByte_facts ({ x.session with link := l } : Session L) b
  obtain ⟨hdue, hqueue, hacks, htimeouts, hreplies, hdropped⟩ :=
    Session.takeByte_brings ({ x.session with link := l } : Session L) b
  obtain ⟨-, hnow, -⟩ := Session.takeByte_keeps ({ x.session with link := l } : Session L) b
  have hcalls := Session.calls_takeByte ({ x.session with link := l } : Session L) b
  have hentry : ∀ n o r,
      (({ x.session with link := l } : Session L).takeByte b).outlet.line
        = ⟨.call n, o, true⟩ :: r →
      ∃ r', x.session.outlet.line = ⟨.call n, o, true⟩ :: r' := by
    intro n o r hr
    rcases Session.takeByte_writes ({ x.session with link := l } : Session L) b with
      ⟨hw, -⟩ | ⟨o', hw, -⟩ <;> rw [hw] at hr
    · exact ⟨r, hr⟩
    · exact Outlet.head_of_enter hr rfl
  generalize ({ x.session with link := l } : Session L).takeByte b = s at *
  simp only at hframer hset hlink hm hqueue hacks htimeouts hreplies hdropped hnow hcalls hdue
  set y : Dialogue L := { x with session := s, order, spoken, prompt, read := x.read ++ [b] } with hy
  have hphase : ∀ n, y.session.phase? n = x.session.phase? n := Session.phase?_of_calls hcalls
  have hframe : ∀ n, y.session.frame? n = x.session.frame? n := Session.frame?_of_calls hcalls
  -- what the byte completes
  set ps := (x.session.framer.push b).2.toList.filterMap Frame.reply? with hps
  have hcarried : y.Carried :=
    h.carried.reads hset hframer (hlink ▸ hin) hqueue rfl rfl rfl rfl
  have hheard : y.heard = x.heard ++ ps := by
    rw [heard, h.carried.said_read hset rfl, List.filterMap_append, heard]
  have hsequenced : y.Sequenced := by
    refine h.sequenced.transfer (congrArg _ hcalls) (fun n r hr => (hphase n).trans hr)
      (fun n hn => ?_) rfl fun n => .inl rfl
    rw [hphase]
    exact hn
  have hlog : y.Logged ws := ht.logged.keep hframe hacks rfl hentry
  have hcounted (hnone : (x.session.rendezvous.offerAll ps).2 = 0) : y.Counted := by
    rw [hnone, Nat.add_zero] at hdropped
    exact h.counted.reads hheard hreplies hdropped htimeouts hacks
      (Session.acksDue_of_wants hwants) hdue
  have hpatience : 0 < s.settings.replyTimeoutMs := hset ▸ h.patience
  cases hcase : ps with
  | nil =>
    rw [hcase] at hcounted hheard hm
    refine ⟨hlined, haloud, hcarried, hcounted rfl, hpatience, hsequenced, ws, hsafe, hlog,
      fun n => ?_⟩
    rw [hphase]
    exact (ht.stage n).mono (hheard.trans (List.append_nil _)) hm hnow (hframe n) (fun _ _ _ => rfl)
      List.prefix_rfl
  | cons p rest =>
    obtain rfl : rest = [] := by
      have hlength := s.acksDue_le_one
      rw [hdue, hcase, List.length_cons] at hlength
      exact List.length_eq_zero_iff.mp (by omega)
    rw [hcase] at hcounted hheard hm
    have hless : x.heard.length < x.answers.length := by
      have hle := hcarried.prefixes.1.length_le
      rw [hheard, List.length_append, List.length_singleton] at hle
      exact hle
    obtain ⟨o, t, ho, hticket, hslot, hopen⟩ := h.waiter ht hless
    have htaken : (x.session.rendezvous.offer p).2 = true :=
      (x.session.rendezvous.offer_taken p).mpr ⟨t, hslot, hopen⟩
    have hfull : s.rendezvous.channel t = .full p := by
      rw [hm]
      exact (x.session.rendezvous.channel_offer p t).trans (if_pos ⟨hslot, hopen⟩)
    refine ⟨hlined, haloud, hcarried, hcounted ?_, hpatience, hsequenced, ws, hsafe, hlog,
      fun n => ?_⟩
    · rw [Rendezvous.offerAll, htaken]
      rfl
    · rw [hphase]
      by_cases hn : n = x.heard.length
      · have hstage := ht.stage n
        rw [hn, ho] at hstage ⊢
        exact hstage.answered hticket rfl hheard hfull (hframe _) rfl
      · refine (ht.stage n).past (h.sequenced.others ho ?_ hn) (hheard ▸ List.prefix_append _ _)
        rintro r rfl
        cases hticket

/-- **A move** keeps everything right. -/
theorem Sound.move (h : x.Sound) {a : Agent} (hr : Interplay.ready x.session a = true) :
    (x.step (.move a)).Sound := by
  obtain ⟨ws, ht⟩ := h.traced
  obtain ⟨base, hs⟩ := ht.afloat.smooth hr
  have hsafe := hs.afloat ht.afloat
  have hlined := h.lined.step (.move a)
  have haloud := h.aloud.step h.lined (.move a)
  simp only [Turns.step, if_pos hr] at hlined haloud
  simp only [step, Turns.step, if_pos hr]
  rcases hs.reads_or ht.afloat with ⟨l, b, rfl, hwants, hnext, hin, hmove, rfl⟩ | hnone
  · have hquiet : x.noteWrite .reader = x.writtenAt := noteWrite_quiet fun n t ha => by cases ha
    rw [hmove] at hsafe hlined haloud ⊢
    rw [taken, hnext, hquiet]
    exact h.reads ht hwants hin hsafe hlined haloud
  · have htaken : x.taken a = [] := by
      cases a with
      | reader => rw [taken, hnone rfl]; rfl
      | _ => rfl
    rw [htaken, List.append_nil]
    exact h.smooth ht hs hsafe hnone hlined haloud rfl

end Sound

end Dialogue

end ProbeLink
