/-
# What the counters of a session add up to

Counters are bumped in several places, by the reading agent and by calls, and calls can be
given up at any point in between. Still each packet that was handed over is in one place
only: in the channel of a ticket, or with the one call that collected it; and a call that is
through with sending waits, has its reply, has run out of time or was let down. So what was
served, what waits in a channel and what was dropped are no more than the replies that were
read, and what was served, what waits and what timed out are no more than the commands that
were sent. The reading agent owes one acknowledgement while it writes it and no other.

All this holds on any link, after anything that happens (`Session.Tally.act`).

Key definitions: `CallPhase.served`, `Session.number`, `Session.Tally`.
Key theorem: `Session.Tally.act`.
-/
import ProbeLink.Proofs.Dialogue
import ProbeLink.Proofs.Holders
import ProbeLink.Proofs.Stopping

namespace ProbeLink

/-- What a change in one place does to how many there are of a kind. -/
theorem countP_set_add {α : Type} {p : α → Bool} {xs : List α} {i : ℕ} {x : α}
    (hx : xs[i]? = some x) (y : α) : (xs.set i y).countP p + (if p x then 1 else 0)
      = xs.countP p + if p y then 1 else 0 := by
  obtain ⟨hlt, rfl⟩ := List.getElem?_eq_some_iff.mp hx
  have hpos : p xs[i] = true → 0 < xs.countP p := fun hp =>
    List.countP_pos_iff.mpr ⟨xs[i], List.getElem_mem hlt, hp⟩
  rw [List.countP_set hlt]
  split
  · have := hpos ‹_›
    omega
  · omega

/-! ### Packets in channels -/

namespace Rendezvous

variable (m : Rendezvous)

/-- How many packets were handed over and not collected. -/
def handed : ℕ := m.channels.countP Channel.isFull

/-- A ticket that was given out has a channel, and only this one changes. -/
theorem handed_set {id : ℕ} (hgiven : m.channel id ≠ .abandoned) (c : Channel) :
    (m.channels.set id c).countP Channel.isFull + (if (m.channel id).isFull then 1 else 0)
      = m.handed + if c.isFull then 1 else 0 := by
  refine countP_set_add ?_ c
  cases hc : m.channels[id]? with
  | none => exact absurd (by rw [channel, List.getD_eq_getElem?_getD, hc]; rfl) hgiven
  | some d => rw [channel, List.getD_eq_getElem?_getD, hc]; rfl

/-- No packet is in a channel that is open. -/
theorem handed_set_opened {id : ℕ} (ho : m.channel id = .opened) (c : Channel) :
    (m.channels.set id c).countP Channel.isFull = m.handed + if c.isFull then 1 else 0 := by
  have hset := m.handed_set (show m.channel id ≠ .abandoned by rw [ho]; nofun) c
  rwa [ho] at hset

theorem handed_hangUp (id : ℕ) : (m.hangUp id).handed = m.handed := by
  unfold hangUp
  split
  · exact m.handed_set_opened ‹_› .hungUp
  · rfl

theorem handed_clear : m.clear.handed = m.handed := by
  unfold clear
  split
  · exact m.handed_hangUp _
  · rfl

theorem handed_close : m.close.handed = m.handed := m.handed_clear

theorem handed_withdraw (t : ℕ) : (m.withdraw t).handed = m.handed := by
  unfold withdraw
  split
  · exact m.handed_clear
  · rfl

theorem handed_claim : m.claim.1.handed = m.handed := by
  unfold claim
  split
  · rfl
  · simp only [handed, List.countP_append]
    exact m.handed_clear

/-- A packet that is taken is in its channel. -/
theorem handed_offer (p : Packet) :
    (m.offer p).1.handed = m.handed + if (m.offer p).2 then 1 else 0 := by
  unfold offer
  split
  · rfl
  · split
    · exact m.handed_set_opened ‹_› (.full p)
    · rfl

/-- Every packet is in its channel or dropped. -/
theorem handed_offerAll (ps : List Packet) :
    (m.offerAll ps).1.handed + (m.offerAll ps).2 = m.handed + ps.length := by
  induction ps generalizing m with
  | nil => rfl
  | cons p ps ih =>
    have hfirst := m.handed_offer p
    have hrest := ih (m.offer p).1
    simp only [offerAll, List.length_cons]
    cases htaken : (m.offer p).2 <;>
      simp only [htaken, if_true, Bool.false_eq_true, if_false] at * <;> omega

theorem handed_abandon_le (t : ℕ) : (m.abandon t).handed ≤ m.handed := by
  by_cases hgone : m.channel t = .abandoned
  · by_cases hlt : t < m.channels.length
    · have hold : m.channels[t] = .abandoned := by
        rwa [channel, List.getD_eq_getElem?_getD, List.getElem?_eq_getElem hlt] at hgone
      have hsame : m.channels.set t .abandoned = m.channels := hold ▸ List.set_getElem_self hlt
      rw [handed, abandon, hsame, handed]
    · rw [handed, abandon, List.set_eq_of_length_le (Nat.le_of_not_lt hlt), handed]
  · have hset := m.handed_set hgone .abandoned
    exact (Nat.le_add_right _ _).trans hset.le

/-- Whoever collects its packet takes it out of its channel. -/
theorem handed_collected {t : ℕ} {p : Packet} (h : m.channel t = .full p) :
    (m.abandon t).handed + 1 = m.handed := by
  have hset := m.handed_set (show m.channel t ≠ .abandoned by rw [h]; nofun) .abandoned
  rwa [h] at hset

end Rendezvous

/-! ### Calls by their phases -/

namespace CallPhase

/-- The call got its packet, whatever it made of it. -/
@[simp] def served : CallPhase → Bool
  | .ended (.ok .disconnected) => false
  | .ended (.ok _) => true
  | .ended (.error (.wire _)) => true
  | .ended (.error (.remote _)) => true
  | .ended (.error (.unexpected _)) => true
  | _ => false

/-- The call waits for a reply. -/
@[simp] def waits : CallPhase → Bool
  | .awaiting _ _ => true
  | _ => false

end CallPhase

namespace Session

section Numbers

variable {L : Type} {s : Session L}

/-- How many calls are in a phase of some kind. -/
def number (s : Session L) (p : CallPhase → Bool) : ℕ := s.calls.countP fun c => p c.phase

theorem number_setPhase (p : CallPhase → Bool) {n : ℕ} {o : CallPhase} (ho : s.phase? n = some o)
    (φ : CallPhase) : (s.setPhase n φ).number p + (if p o then 1 else 0)
      = s.number p + if p φ then 1 else 0 := by
  obtain ⟨c, hc, rfl⟩ := Option.map_eq_some_iff.mp ho
  have hset : s.calls.modify n (fun c => { c with phase := φ })
      = s.calls.set n { c with phase := φ } := by
    rw [List.modify_eq_set_getElem?, hc]
    rfl
  rw [number, setPhase, hset]
  exact countP_set_add hc { c with phase := φ }

theorem number_issue {p : CallPhase → Bool} (hp : p .issued = false) (ask : Ask) :
    (s.issue ask).number p = s.number p := by
  simp [number, issue, hp]

end Numbers

/-- What the reading agent owes: the acknowledgement that it writes. Once it has ended, the
last one may be owed for good. -/
def Owes (acks replies : ℕ) : ReaderPhase → Prop
  | .acking => replies = acks + 1
  | .closing _ | .ended _ => acks ≤ replies ∧ replies ≤ acks + 1
  | _ => replies = acks

/-- The counters agree with what was handed over and with where the calls are. -/
structure Tally {L : Type} (s : Session L) : Prop where
  handed : s.number CallPhase.served + s.rendezvous.handed + s.counters.droppedReplies
    ≤ s.counters.replies
  sent : s.number CallPhase.served + s.number CallPhase.waits + s.counters.timeouts
    ≤ s.counters.commandsSent
  owes : Owes s.counters.acksSent s.counters.replies s.reader

/-- One acknowledgement at most is owed. -/
theorem Tally.acks {L : Type} {s : Session L} (h : s.Tally) :
    s.counters.acksSent ≤ s.counters.replies ∧
      s.counters.replies ≤ s.counters.acksSent + 1 := by
  have howes := h.owes
  unfold Owes at howes
  split at howes <;> omega

theorem tally_start {L : Type} (link : L) (settings : SessionSettings) :
    (start link settings).Tally := ⟨le_rfl, le_rfl, rfl⟩

section Steps

variable {L : Type} {s u : Session L} {n : ℕ} {o φ : CallPhase}

/-- Packets may be lost from their channels, nothing else. -/
theorem Tally.fades (h : s.Tally) (hcalls : u.calls = s.calls) (hcounters : u.counters = s.counters)
    (hreader : u.reader = s.reader) (hm : u.rendezvous.handed ≤ s.rendezvous.handed) : u.Tally := by
  obtain ⟨hhanded, hsent, howes⟩ := h
  refine ⟨?_, ?_, ?_⟩
  · rw [number, hcalls, hcounters, ← number]
    omega
  · rwa [number, number, hcalls, hcounters, ← number, ← number]
  · rwa [hcounters, hreader]

/-- What a session has counted and handed over when call `n` gets into another phase. -/
structure Turned (s u : Session L) (o φ : CallPhase) : Prop where
  calls : u.calls = s.calls
  reader : u.reader = s.reader
  acks : u.counters.acksSent = s.counters.acksSent
  replies : u.counters.replies = s.counters.replies
  handed : (if φ.served then 1 else 0) + u.rendezvous.handed + u.counters.droppedReplies
    ≤ (if o.served then 1 else 0) + s.rendezvous.handed + s.counters.droppedReplies
  sent : (if φ.served then 1 else 0) + (if φ.waits then 1 else 0) + u.counters.timeouts
      + s.counters.commandsSent
    ≤ (if o.served then 1 else 0) + (if o.waits then 1 else 0) + s.counters.timeouts
      + u.counters.commandsSent

theorem Tally.setPhase (h : s.Tally) (ho : s.phase? n = some o) (hu : s.Turned u o φ) :
    (u.setPhase n φ).Tally := by
  obtain ⟨hhanded, hsent, howes⟩ := h
  obtain ⟨hcalls, hreader, hacks, hreplies, hhanded', hsent'⟩ := hu
  have hphase : u.phase? n = some o := (phase?_of_calls hcalls n).trans ho
  have hserved := number_setPhase CallPhase.served hphase φ
  have hwaits := number_setPhase CallPhase.waits hphase φ
  have hsame : ∀ p, u.number p = s.number p := fun p => by rw [number, hcalls, number]
  rw [hsame] at hserved hwaits
  refine ⟨?_, ?_, ?_⟩
  · show (u.setPhase n φ).number _ + u.rendezvous.handed + u.counters.droppedReplies
      ≤ u.counters.replies
    omega
  · show (u.setPhase n φ).number _ + (u.setPhase n φ).number _ + u.counters.timeouts
      ≤ u.counters.commandsSent
    omega
  · show Owes u.counters.acksSent u.counters.replies u.reader
    rwa [hacks, hreplies, hreader]

/-- A call that does not wait gets into a phase in which it neither waits nor was served. -/
theorem Turned.quietly (hcalls : u.calls = s.calls) (hcounters : u.counters = s.counters)
    (hreader : u.reader = s.reader) (hm : u.rendezvous.handed ≤ s.rendezvous.handed)
    (hserved : φ.served = false) (hwaits : φ.waits = false) : s.Turned u o φ := by
  refine ⟨hcalls, hreader, by rw [hcounters], by rw [hcounters], ?_, ?_⟩
  · rw [hserved, hcounters]
    simp only [Bool.false_eq_true, if_false]
    omega
  · rw [hserved, hwaits, hcounters]
    simp only [Bool.false_eq_true, if_false]
    omega

end Steps

section Moves

variable {L : Type} [Link L] {s u : Session L} {n : ℕ} {o : CallPhase}

theorem Tally.closeIfForgotten (h : s.Tally) : s.closeIfForgotten.Tally := by
  unfold Session.closeIfForgotten
  split
  · exact h
  · exact h.fades rfl rfl rfl s.rendezvous.handed_close.le

theorem Tally.finish (h : s.Tally) (ho : s.phase? n = some o) {result : Except SessionError Answer}
    (hu : s.Turned u o (.ended result)) : (u.finish n result).Tally :=
  (h.setPhase (u := { u with commandLine := u.commandLine.erase n }) ho
    ⟨hu.calls, hu.reader, hu.acks, hu.replies, hu.handed, hu.sent⟩).closeIfForgotten

/-! ### The reading agent -/

/-- The loop ends, and an acknowledgement may be owed for good. -/
theorem Tally.endReader (h : s.Tally) (result : Except SessionError Unit) :
    (s.endReader result).Tally := by
  have howes := h.acks
  have hm := s.rendezvous.handed_close.le
  simp only [Session.endReader]
  split
  · exact ⟨by have := h.handed; simp only [number] at this ⊢; omega, h.sent, howes⟩
  · exact ⟨by have := h.handed; simp only [number] at this ⊢; omega, h.sent, howes⟩

omit [Link L] in
/-- Reading a byte sends nothing. -/
theorem takeByte_sends (s : Session L) (b : UInt8) :
    (s.takeByte b).counters.commandsSent = s.counters.commandsSent ∧
      (s.takeByte b).counters.retransmits = s.counters.retransmits := by
  unfold takeByte
  split
  · exact ⟨rfl, rfl⟩
  · simp only [route, handOver_eq]
    repeat' split
    all_goals exact ⟨rfl, rfl⟩
  · exact ⟨rfl, rfl⟩
  · exact ⟨rfl, rfl⟩

omit [Link L] in
/-- A reply that a byte completes is counted, and is handed over or dropped. -/
theorem Tally.takeByte (h : s.Tally) (hidle : s.counters.replies = s.counters.acksSent)
    (b : UInt8) : (s.takeByte b).Tally := by
  obtain ⟨-, -, -, -, hm, -⟩ := takeByte_facts s b
  obtain ⟨hdue, -, hacks, htimeouts, hreplies, hdropped⟩ := takeByte_brings s b
  have hcalls := calls_takeByte s b
  have hoffer := s.rendezvous.handed_offerAll ((s.framer.push b).2.toList.filterMap Frame.reply?)
  have hsame : ∀ p, (s.takeByte b).number p = s.number p := fun p => by rw [number, hcalls, number]
  refine ⟨?_, ?_, ?_⟩
  · have := h.handed
    rw [hsame, hm, hdropped, hreplies]
    omega
  · rw [hsame, hsame, htimeouts, (takeByte_sends s b).1]
    exact h.sent
  · rw [hacks, hreplies, hidle, ← hdue]
    rcases takeByte_writes s b with ⟨-, hr⟩ | ⟨o, -, ⟨-, hr⟩ | ⟨-, hr⟩⟩ <;>
      rw [acksDue, hr] <;> rfl

theorem Tally.afterRead (h : s.Tally) (hidle : s.counters.replies = s.counters.acksSent)
    (r : L × Progress UInt8) : (s.afterRead r).Tally := by
  obtain ⟨l, _ | e | b⟩ := r
  · exact ⟨h.handed, h.sent, hidle⟩
  · exact Tally.endReader (s := { s with link := l }) ⟨h.handed, h.sent, h.owes⟩ _
  · exact Tally.takeByte (s := { s with link := l }) ⟨h.handed, h.sent, h.owes⟩ hidle b

theorem Tally.moveReader (h : s.Tally) : s.moveReader.Tally := by
  have howes := h.owes
  unfold Session.moveReader
  cases hreader : s.reader with
  | idle => exact h.afterRead (by rwa [hreader] at howes) _
  | reading => exact h.afterRead (by rwa [hreader] at howes) _
  | acking =>
    rw [hreader] at howes
    obtain ⟨w, l, _ | e | _⟩ := s.outlet.move s.link .reader
    · exact ⟨h.handed, h.sent, h.owes⟩
    · exact Tally.endReader (s := { s with outlet := w, link := l }) ⟨h.handed, h.sent, h.owes⟩ _
    · exact ⟨h.handed, h.sent, howes⟩
  | resending =>
    rw [hreader] at howes
    obtain ⟨w, l, _ | e | _ | _⟩ := s.outlet.move s.link .reader
    · exact ⟨h.handed, h.sent, h.owes⟩
    · exact Tally.endReader (s := { s with outlet := w, link := l }) ⟨h.handed, h.sent, h.owes⟩ _
    · exact ⟨h.handed, h.sent, howes⟩
    · exact ⟨h.handed, h.sent, howes⟩
  | closing result =>
    rw [hreader] at howes
    simp only
    split
    · exact ⟨h.handed, h.sent, howes⟩
    · exact ⟨h.handed, h.sent, howes⟩
  | ended result => exact h

/-! ### Calls -/

theorem Tally.join (h : s.Tally) (ho : s.phase? n = some o) : (s.join n).Tally := by
  unfold Session.join
  split
  · exact h.setPhase ho (.quietly rfl rfl rfl le_rfl rfl rfl)
  · exact h.finish ho (.quietly rfl rfl rfl le_rfl rfl rfl)

theorem Tally.windDown (h : s.Tally) (ho : s.phase? n = some o) : (s.windDown n).Tally := by
  have hclosed : ∀ l : L,
      ({ s with rendezvous := s.rendezvous.close, link := l } : Session L).Tally := fun l =>
    h.fades rfl rfl rfl s.rendezvous.handed_close.le
  simp only [Session.windDown]
  split
  · rename_i l _
    exact (hclosed l).setPhase (o := o) ho (.quietly rfl rfl rfl le_rfl rfl rfl)
  · rename_i l _ _
    exact (hclosed l).join (o := o) ho

theorem Tally.claim (h : s.Tally) (ho : s.phase? n = some o) (command payload : String) :
    (s.claim n command payload).Tally := by
  have hm := s.rendezvous.handed_claim.le
  unfold Session.claim
  split <;> rename_i m heq <;> rw [heq] at hm
  · exact h.finish ho (.quietly rfl rfl rfl hm rfl rfl)
  · exact h.setPhase ho (.quietly rfl rfl rfl hm rfl rfl)

theorem Tally.afterSend (h : s.Tally) {t : ℕ} (ho : s.phase? n = some (.sending t))
    (r : Outlet × L × Progress Written) : (s.afterSend n t r).Tally := by
  obtain ⟨w, l, _ | e | _⟩ := r
  · exact h.fades rfl rfl rfl le_rfl
  · refine h.finish ho (.quietly rfl rfl rfl ?_ ?_ rfl)
    · exact ((s.rendezvous.withdraw t).handed_abandon_le t).trans
        (s.rendezvous.handed_withdraw t).le
    · cases e <;> rfl
  · refine h.setPhase ho ⟨rfl, rfl, rfl, rfl, le_rfl, ?_⟩
    simp [count, Counters.bump]
    omega

/-- The reply that a call collects was handed over before. -/
theorem Tally.collect (h : s.Tally) {t d : ℕ} (ho : s.phase? n = some (.awaiting t d)) (ask : Ask) :
    (s.collect n t ask).Tally := by
  unfold Session.collect
  split
  · rename_i p hfull
    have hm := s.rendezvous.handed_collected hfull
    -- whether the call makes something of it or not
    have hone : (if (CallPhase.ended (ask.answer s.settings.verifyReplies p)).served then 1 else 0)
        ≤ 1 := by split <;> omega
    refine h.finish ho ⟨rfl, rfl, rfl, rfl, ?_, ?_⟩
    · show _ + (s.rendezvous.abandon t).handed + s.counters.droppedReplies
        ≤ 0 + s.rendezvous.handed + s.counters.droppedReplies
      omega
    · show _ + 0 + s.counters.timeouts + s.counters.commandsSent
        ≤ 0 + 1 + s.counters.timeouts + s.counters.commandsSent
      omega
  · exact h.finish ho (.quietly rfl rfl rfl (s.rendezvous.handed_abandon_le t) rfl rfl)
  · have hm := ((s.rendezvous.withdraw t).handed_abandon_le t).trans
      (s.rendezvous.handed_withdraw t).le
    refine h.finish ho ⟨rfl, rfl, rfl, rfl, ?_, ?_⟩
    · simpa [count, Counters.bump] using hm
    · show 0 + 0 + (s.counters.timeouts + 1) + s.counters.commandsSent
        ≤ 0 + 1 + s.counters.timeouts + s.counters.commandsSent
      omega

theorem Tally.moveShutdown (h : s.Tally) (ho : s.phase? n = some o) : (s.moveShutdown n).Tally := by
  have hlink : ∀ l : L, ({ s with link := l } : Session L).Tally := fun l =>
    h.fades rfl rfl rfl le_rfl
  unfold Session.moveShutdown
  split
  · split
    · exact hlink _
    · exact (hlink _).join (o := o) ho
  · exact (hlink _).join (o := o) ho

theorem Tally.moveCall (h : s.Tally) (n : ℕ) : (s.moveCall n).Tally := by
  unfold Session.moveCall
  split
  · exact h
  · rename_i c hc
    have ho := phase?_of_call hc
    obtain ⟨ask, phase⟩ := c
    cases phase with
    | issued =>
      simp only
      split
      · exact h.setPhase (o := .issued) ho (.quietly rfl rfl rfl le_rfl rfl rfl)
      · exact h.windDown ho
    | queued =>
      simp only
      split
      · exact h.claim ho _ _
      · exact h
    | sending t => exact h.afterSend ho _
    | awaiting t d => exact h.collect ho ask
    | shutting d => exact h.moveShutdown ho
    | joining d => exact h.finish ho (.quietly rfl rfl rfl le_rfl rfl rfl)
    | ended r => exact h
    | aborted => exact h

/-! ### Everything -/

theorem Tally.abort (h : s.Tally) (n : ℕ) : (s.abort n).Tally := by
  unfold Session.abort
  split
  · exact h
  · rename_i c hc
    have ho := phase?_of_call hc
    split
    · have hgone : s.Turned { s.withdraw n c.phase with
          commandLine := (s.withdraw n c.phase).commandLine.erase n } c.phase .aborted := by
        cases hphase : c.phase with
        | sending t | awaiting t d =>
          exact .quietly rfl rfl rfl (s.rendezvous.handed_abandon_le t) rfl rfl
        | _ => exact .quietly rfl rfl rfl le_rfl rfl rfl
      exact (h.setPhase ho hgone).closeIfForgotten
    · exact h

/-- **Whatever happens, the counters agree.** -/
theorem Tally.act (h : s.Tally) (e : Event) : (s.act e).Tally := by
  cases e with
  | move a =>
    simp only [Session.act]
    split
    · cases a with
      | reader => exact h.moveReader
      | call n => exact h.moveCall n
      | release | porter | chance | farWriter | farReader => exact h.fades rfl rfl rfl le_rfl
    · exact h
  | issue ask =>
    have hsame : ∀ p : CallPhase → Bool, p .issued = false → (s.issue ask).number p = s.number p :=
      fun p hp => number_issue hp ask
    have hserved := hsame CallPhase.served rfl
    have hwaits := hsame CallPhase.waits rfl
    exact ⟨by rw [Session.act, hserved]; exact h.handed,
      by rw [Session.act, hserved, hwaits]; exact h.sent, h.owes⟩
  | abort n => exact h.abort n
  | letGo => exact Tally.closeIfForgotten (s := { s with held := false }) ⟨h.handed, h.sent, h.owes⟩
  | advance ms | takeQueue | queue q => exact ⟨h.handed, h.sent, h.owes⟩

end Moves

end Session

end ProbeLink
