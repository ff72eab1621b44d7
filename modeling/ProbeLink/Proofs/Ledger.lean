/-
# The wire and the counters

On a link that writes all or nothing the wire can be ahead of the counters in two ways: by the
one write that is all on the wire and not answered yet, and by frames of calls that were given
up in the middle of a write, which somebody below goes on with (`Session.cuts`).

Apart from these the counters of commands, acknowledgements and repetitions are bumped in the
same move in which a piece gets on the wire, or in which whoever wrote it is told. So the wire
is made of as many acknowledgements, and of as many frames of calls, as the session has counted,
of the frames of some calls that were given up in the middle, and of at most one piece that is
not answered yet. At rest there is no such piece (`Session.accounts_balance`).

Key definitions: `Session.Entered`, `Session.Ledger`, `Session.Happening`, `Session.cuts`.
Key theorems: `Session.Ledger.move`, `Session.Ledger.abort`, `Session.Ledger.happens`,
`Session.accounts_balance`.
-/
import ProbeLink.Proofs.Tally
import ProbeLink.Proofs.Whole

namespace ProbeLink

namespace Session

/-! ### The wire and what was counted -/

section Counted

variable {L : Type} {s s' : Session L} {said said' : Bytes → Prop} {base wire bytes : Bytes}
  {acks total strays : ℕ} {due : List Bytes}

/-- The whole frame of a call. -/
def Says (s : Session L) (bytes : Bytes) : Prop := ∃ n, s.frame? n = some bytes

theorem says_of_asks (h : s'.calls.map Call.ask = s.calls.map Call.ask) (bytes : Bytes)
    (hs : s.Says bytes) : s'.Says bytes := by
  obtain ⟨n, hn⟩ := hs
  exact ⟨n, (frame?_congr h n).trans hn⟩

/-- Every frame that somebody wants to write is that of a call. -/
theorem says_frame (s : Session L) (a : Agent) (bytes : Bytes)
    (h : s.wants a = some (.frame bytes)) : s.Says bytes := by
  obtain ⟨n, -, hn⟩ := wants_frame h
  exact ⟨n, hn⟩

/-- Everything on the wire since some point: acknowledgements and frames, so many of the former
and so many in all, each in one piece. -/
def Entered (said : Bytes → Prop) (base wire : Bytes) (acks total : ℕ) : Prop :=
  ∃ pieces : List Bytes, wire = base ++ pieces.flatten ∧
    (∀ p ∈ pieces, p = [ackByte] ∨ said p) ∧ pieces.count [ackByte] = acks ∧
      pieces.length = total

theorem Entered.mono (h : Entered said base wire acks total) (hsaid : ∀ p, said p → said' p) :
    Entered said' base wire acks total := by
  obtain ⟨pieces, hwire, hpieces, hcount⟩ := h
  exact ⟨pieces, hwire, fun p hp => (hpieces p hp).imp_right (hsaid p), hcount⟩

theorem Entered.congr (h : Entered said base wire acks total) {acks' total' : ℕ}
    (hacks : acks = acks') (htotal : total = total') : Entered said base wire acks' total' :=
  hacks ▸ htotal ▸ h

/-- One more piece is on the wire. -/
theorem Entered.piece (h : Entered said base wire acks total)
    (hpiece : bytes = [ackByte] ∨ said bytes) :
    Entered said base (wire ++ bytes) (acks + [bytes].count [ackByte]) (total + 1) := by
  obtain ⟨pieces, rfl, hpieces, rfl, rfl⟩ := h
  refine ⟨pieces ++ [bytes], by simp, fun p hp => ?_, List.count_append, List.length_append⟩
  rcases List.mem_append.mp hp with hp | hp
  · exact hpieces p hp
  · exact List.mem_singleton.mp hp ▸ hpiece

/-- What the session has counted is on the wire, and so are `strays` frames and what is due. -/
def EnteredBy (s : Session L) (base wire : Bytes) (strays : ℕ) (due : List Bytes) : Prop :=
  Entered s.Says base wire (s.counters.acksSent + due.count [ackByte])
    (s.counters.acksSent + (s.counters.commandsSent + s.counters.retransmits) + strays +
      due.length)

/-- A piece that is due is counted, or one more gets on the wire that is counted. -/
theorem EnteredBy.paid [Link L] {u : Option Pending} {l l' : L}
    (h : s.EnteredBy base (Link.wire l) strays (Pending.due u)) (hpaid : Outlet.Paid u l l' bytes)
    (hpiece : bytes = [ackByte] ∨ s.Says bytes) :
    Entered s.Says base (Link.wire l') (s.counters.acksSent + [bytes].count [ackByte])
      (s.counters.acksSent + (s.counters.commandsSent + s.counters.retransmits) + strays + 1) := by
  cases hpaid with
  | before due wire =>
    rw [EnteredBy, due] at h
    rw [wire]
    exact h
  | now due wire =>
    rw [EnteredBy, due] at h
    rw [wire]
    exact h.piece hpiece

theorem EnteredBy.paid_frame [Link L] {u : Option Pending} {l l' : L}
    (h : s.EnteredBy base (Link.wire l) strays (Pending.due u)) (hpaid : Outlet.Paid u l l' bytes)
    (hsaid : s.Says bytes) :
    Entered s.Says base (Link.wire l') s.counters.acksSent
      (s.counters.acksSent + (s.counters.commandsSent + s.counters.retransmits) + strays + 1) := by
  obtain ⟨n, hn⟩ := hsaid
  have hne : bytes ≠ [ackByte] := Dialogue.frame_ne_ack hn
  have hmore := h.paid hpaid (.inr ⟨n, hn⟩)
  rwa [List.count_singleton, if_neg (by simpa using hne)] at hmore

/-- One more piece is on the wire, and due. -/
theorem EnteredBy.lands (h : s.EnteredBy base wire strays [])
    (hpiece : bytes = [ackByte] ∨ s.Says bytes) :
    s.EnteredBy base (wire ++ bytes) strays [bytes] :=
  Entered.piece h hpiece

/-- One more frame is on the wire that is not counted. -/
theorem EnteredBy.gets_on (h : s.EnteredBy base wire strays due) (hsaid : s.Says bytes) :
    s.EnteredBy base (wire ++ bytes) (strays + 1) due := by
  obtain ⟨n, hn⟩ := hsaid
  have hne : bytes ≠ [ackByte] := Dialogue.frame_ne_ack hn
  have hmore := Entered.piece h (.inr ⟨n, hn⟩)
  rw [List.count_singleton, if_neg (by simpa using hne), Nat.add_zero] at hmore
  rw [EnteredBy, ← Nat.add_assoc, Nat.add_right_comm]
  exact hmore

/-- A frame that is due is never counted. -/
theorem EnteredBy.gives_up (h : s.EnteredBy base wire strays [bytes]) (hsaid : s.Says bytes) :
    s.EnteredBy base wire (strays + 1) [] := by
  obtain ⟨n, hn⟩ := hsaid
  have hne : bytes ≠ [ackByte] := Dialogue.frame_ne_ack hn
  rw [EnteredBy, List.count_singleton, if_neg (by simpa using hne)] at h
  exact h

end Counted

variable {L : Type} [Link L] [Whole L]

/-- The line before the link is in order, what was given up are frames of calls, and the wire has
on it what was counted, what strayed, and what is due. -/
structure Ledger (s : Session L) (base : Bytes) (strays : ℕ) (u : Option Pending)
    (loose : List (Agent × Bytes)) : Prop where
  holds : s.outlet.Holds u s.wants s.Says
  carries : Whole.carries s.link u loose
  owned : ∀ w ∈ loose, s.Says w.2
  wire : s.EnteredBy base (Link.wire s.link) strays (Pending.due u)

section Steps

variable {s : Session L} {base : Bytes} {n strays : ℕ} {o φ : CallPhase} {l : L}
  {u : Option Pending} {loose : List (Agent × Bytes)}

/-- What somebody does below who does not write. -/
theorem Ledger.link (h : s.Ledger base strays u loose) {mine : Agent → Prop}
    (hl : Spares Whole.carries mine s.link l) (hmine : ∀ a, mine a → s.wants a = none) :
    ({ s with link := l } : Session L).Ledger base strays u loose := by
  refine ⟨h.holds, hl.carries u loose (fun p hu hp => ?_) h.carries, h.owned, ?_⟩
  · exact h.holds.wants_of_under hu (hmine _ hp)
  · show s.EnteredBy base (Link.wire l) strays (Pending.due u)
    rw [hl.wire]
    exact h.wire

/-- What a call does below that does not write. -/
theorem Ledger.link_call (h : s.Ledger base strays u loose)
    (hl : Spares Whole.carries (· = .call n) s.link l) (hnone : s.wants (.call n) = none) :
    ({ s with link := l } : Session L).Ledger base strays u loose :=
  h.link hl fun _ ha => ha ▸ hnone

theorem Ledger.closeIfForgotten (h : s.Ledger base strays u loose) :
    s.closeIfForgotten.Ledger base strays u loose := by
  unfold Session.closeIfForgotten
  split
  · exact h
  · have hclosed := h.link (Whole.close s.link) nofun
    exact ⟨hclosed.holds, hclosed.carries, hclosed.owned, hclosed.wire⟩

/-- A call gets into a phase in which it does not write. -/
theorem ledger_setPhase (hholds : s.outlet.Holds u (s.setPhase n φ).wants s.Says)
    (hcarries : Whole.carries s.link u loose) (howned : ∀ w ∈ loose, s.Says w.2)
    (hwire : s.EnteredBy base (Link.wire s.link) strays (Pending.due u)) :
    (s.setPhase n φ).Ledger base strays u loose :=
  have hsaid := says_of_asks (asks_setPhase s n φ)
  ⟨hholds.agrees (fun _ => rfl) hsaid, hcarries, fun w hw => hsaid _ (howned w hw),
    hwire.mono hsaid⟩

theorem Ledger.setPhase (h : s.Ledger base strays u loose) (ho : s.phase? n = some o)
    (hnone : s.wants (.call n) = none) (hφ : ∀ t, φ ≠ .sending t) :
    (s.setPhase n φ).Ledger base strays u loose :=
  ledger_setPhase (h.holds.agrees (wants_setPhase_none ho hnone hφ) fun _ => id) h.carries h.owned
    h.wire

theorem Ledger.finish (h : s.Ledger base strays u loose) (ho : s.phase? n = some o)
    (hnone : s.wants (.call n) = none) (result : Except SessionError Answer) :
    (s.finish n result).Ledger base strays u loose := by
  have hended : (s.setPhase n (.ended result)).Ledger base strays u loose :=
    h.setPhase ho hnone nofun
  exact Ledger.closeIfForgotten (s := ({ s with
    commandLine := s.commandLine.erase n } : Session L).setPhase n (.ended result))
    ⟨hended.holds, hended.carries, hended.owned, hended.wire⟩

theorem Ledger.join (h : s.Ledger base strays u loose) (ho : s.phase? n = some o)
    (hnone : s.wants (.call n) = none) : (s.join n).Ledger base strays u loose := by
  unfold Session.join
  split
  · have hjoins : (s.setPhase n (.joining (s.now + windDownMs))).Ledger base strays u loose :=
      h.setPhase ho hnone nofun
    exact ⟨hjoins.holds, hjoins.carries, hjoins.owned, hjoins.wire⟩
  · exact h.finish ho hnone _

/-! ### The reading agent -/

/-- The reading agent, which writes no more, begins to shut the link down. -/
theorem ledger_endReader {result : Except SessionError Unit}
    (hholds : s.outlet.Holds u (s.endReader result).wants s.Says)
    (hcarries : Whole.carries s.link u loose) (howned : ∀ w ∈ loose, s.Says w.2)
    (hwire : s.EnteredBy base (Link.wire s.link) strays (Pending.due u)) :
    (s.endReader result).Ledger base strays u loose := by
  have hspares := Whole.beginShutdown s.link .reader
  unfold Session.endReader at hholds ⊢
  simp only at hholds ⊢
  generalize Link.beginShutdown s.link .reader = q at hspares hholds
  obtain ⟨l, _ | _⟩ := q
  all_goals
    refine ⟨hholds, hspares.carries u loose (fun p hu hp => ?_) hcarries, howned, ?_⟩
    · exact hholds.wants_of_under hu (by rw [hp]; rfl)
    · show s.EnteredBy base (Link.wire l) strays (Pending.due u)
      rw [hspares.wire]
      exact hwire

omit [Whole L] in
theorem reader_endReader (s : Session L) (result : Except SessionError Unit) :
    (s.endReader result).wants .reader = none := by
  simp only [Session.endReader]
  split <;> rfl

/-- A byte is read, and what it calls for is written next. -/
theorem Ledger.takeByte (h : s.Ledger base strays u loose) (hnone : s.wants .reader = none)
    (b : UInt8) : (s.takeByte b).Ledger base strays u loose := by
  obtain ⟨-, -, hlink, -⟩ := takeByte_facts s b
  have hcalls := calls_takeByte s b
  have hcases := takeByte_writes s b
  have hsaid : ∀ p, s.Says p → (s.takeByte b).Says p := says_of_asks (congrArg _ hcalls)
  obtain ⟨-, -, hacks, -⟩ := takeByte_brings s b
  obtain ⟨hcommands, hretransmits⟩ := takeByte_sends s b
  refine ⟨?_, hlink ▸ h.carries, fun w hw => hsaid _ (h.owned w hw), ?_⟩
  · rcases hcases with ⟨hw, hnext⟩ | ⟨o, hw, hnext⟩
    · rw [hw]
      refine h.holds.agrees (fun a => ?_) hsaid
      by_cases ha : a = .reader
      · rw [ha, hnone]
        simp only [wants, hnext]
      · exact wants_of_calls hcalls ha
    · have hwants : (s.takeByte b).wants .reader = some o := by
        rcases hnext with ⟨rfl, hnext⟩ | ⟨rfl, hnext⟩ <;> simp only [wants, hnext]
      rw [hw]
      exact (h.holds.enter hnone hwants fun a ha => wants_of_calls hcalls ha).agrees
        (fun _ => rfl) hsaid
  · rw [EnteredBy, hlink, hacks, hcommands, hretransmits]
    exact h.wire.mono hsaid

/-- What a move of a read leaves. -/
theorem Ledger.afterRead (h : s.Ledger base strays u loose) (hnone : s.wants .reader = none)
    {r : L × Progress UInt8} (hr : Spares Whole.carries (· = .reader) s.link r.1) :
    (s.afterRead r).Ledger base strays u loose := by
  have hread := h.link hr fun _ ha => ha ▸ hnone
  obtain ⟨l, _ | (e | b)⟩ := r
  · exact ⟨hread.holds.agrees (wants_unread (s := s) rfl hnone rfl) fun _ => id, hread.carries,
      hread.owned, hread.wire⟩
  · refine ledger_endReader (s := { s with link := l }) ?_ hread.carries hread.owned hread.wire
    refine hread.holds.agrees (wants_unread (s := s) ?_ hnone (reader_endReader _ _)) fun _ => id
    exact calls_endReader _ _
  · exact hread.takeByte hnone b

/-- A write of the reading agent has failed. -/
theorem Ledger.failReader (h : s.Ledger base strays u loose) {w : Outlet}
    (hdue : Pending.due u = []) (wire : Link.wire l = Link.wire s.link)
    (left : Whole.carries l none loose)
    (holds : ∀ wants', wants' .reader = none → (∀ b ≠ .reader, wants' b = s.wants b) →
      w.Holds none wants' s.Says) (e : LinkError) :
    (({ s with outlet := w, link := l } : Session L).failReader e).Ledger base strays none
      loose := by
  have hwire := h.wire
  rw [hdue, ← wire] at hwire
  refine ledger_endReader (holds _ ?_ fun b hb => ?_) left h.owned hwire
  · exact reader_endReader _ _
  · exact wants_of_calls (calls_endReader _ _) hb

/-- What a move of an acknowledgement leaves. -/
theorem Ledger.afterAck (h : s.Ledger base strays u loose) {q : Outlet × L × Progress Written}
    (hq : Outlet.Pays s.wants s.Says s.link u loose .reader .ack q) :
    ∃ u', (s.afterAck q).Ledger base strays u' loose := by
  cases hq with
  | @on w l u' holds left due wire =>
    refine ⟨u', holds, left, h.owned, ?_⟩
    show s.EnteredBy base (Link.wire l) strays (Pending.due u')
    rw [due, wire]
    exact h.wire
  | @sent w l bytes paid fits left holds =>
    obtain rfl : bytes = [ackByte] := fits
    refine ⟨none, holds _ rfl fun b hb => wants_of_calls (s := s) rfl hb, left, h.owned, ?_⟩
    have hmore := h.wire.paid paid (.inl rfl)
    rw [List.count_singleton_self, Nat.add_right_comm, Nat.add_right_comm _ _ 1] at hmore
    exact hmore
  | nothing again => cases again
  | @fails w l e due wire left holds => exact ⟨none, h.failReader due wire left holds e⟩

/-- What a move of a repetition leaves. -/
theorem Ledger.afterResend (h : s.Ledger base strays u loose) {q : Outlet × L × Progress Written}
    (hq : Outlet.Pays s.wants s.Says s.link u loose .reader .again q) :
    ∃ u', (s.afterResend q).Ledger base strays u' loose := by
  have hidle : ∀ (u : Session L), u.calls = s.calls → ∀ b ≠ .reader, u.wants b = s.wants b :=
    fun u hcalls b hb => wants_of_calls hcalls hb
  cases hq with
  | @on w l u' holds left due wire =>
    refine ⟨u', holds, left, h.owned, ?_⟩
    show s.EnteredBy base (Link.wire l) strays (Pending.due u')
    rw [due, wire]
    exact h.wire
  | @sent w l bytes paid fits left holds =>
    obtain ⟨n, hn⟩ : s.Says bytes := fits
    refine ⟨none, holds _ rfl (hidle _ rfl), left, h.owned, ?_⟩
    exact (h.wire.paid_frame paid ⟨n, hn⟩).congr rfl (by
      show _ = s.counters.acksSent + (s.counters.commandsSent + (s.counters.retransmits + 1)) +
        strays
      omega)
  | @nothing w again idle holds =>
    subst idle
    exact ⟨none, holds _ rfl (hidle _ rfl), h.carries, h.owned, h.wire⟩
  | @fails w l e due wire left holds => exact ⟨none, h.failReader due wire left holds e⟩

/-- **A move of the reading agent** counts what it gets on the wire. -/
theorem Ledger.moveReader (h : s.Ledger base strays u loose) (hr : s.readerReady = true) :
    ∃ u', s.moveReader.Ledger base strays u' loose := by
  unfold Session.moveReader
  unfold readerReady at hr
  cases hreader : s.reader with
  | idle =>
    exact ⟨u, h.afterRead (by simp only [wants, hreader]) (Whole.beginRead s.link .reader)⟩
  | reading =>
    exact ⟨u, h.afterRead (by simp only [wants, hreader]) (Whole.resumeRead s.link .reader)⟩
  | acking =>
    simp only [hreader] at hr
    exact h.afterAck (h.holds.move h.carries s.says_frame hr (by simp only [wants, hreader]))
  | resending =>
    simp only [hreader] at hr
    exact h.afterResend (h.holds.move h.carries s.says_frame hr (by simp only [wants, hreader]))
  | closing result =>
    have hnone : s.wants .reader = none := by simp only [wants, hreader]
    have hspares := Whole.resumeShutdown s.link .reader
    simp only
    generalize Link.resumeShutdown s.link .reader = q at hspares
    have hshut := h.link hspares fun _ ha => ha ▸ hnone
    obtain ⟨l, _ | _⟩ := q <;>
      exact ⟨u, hshut.holds.agrees (wants_unread (s := s) rfl hnone rfl) fun _ => id,
        hshut.carries, hshut.owned, hshut.wire⟩
  | ended result => exact ⟨u, h⟩

/-! ### Calls -/

theorem Ledger.windDown (h : s.Ledger base strays u loose) (ho : s.phase? n = some o)
    (hnone : s.wants (.call n) = none) : (s.windDown n).Ledger base strays u loose := by
  have hspares := Whole.beginShutdown s.link (.call n)
  unfold Session.windDown
  simp only
  generalize Link.beginShutdown s.link (.call n) = q at hspares
  have hshut := h.link_call hspares hnone
  obtain ⟨l, _ | _⟩ := q
  · exact (Ledger.setPhase (s := { s with rendezvous := s.rendezvous.close, link := l })
      ⟨hshut.holds, hshut.carries, hshut.owned, hshut.wire⟩ ho hnone nofun)
  · exact (Ledger.join (s := { s with rendezvous := s.rendezvous.close, link := l })
      ⟨hshut.holds, hshut.carries, hshut.owned, hshut.wire⟩ ho hnone)

/-- A call claims the next reply and gets in line to write its frame. -/
theorem Ledger.claim (h : s.Ledger base strays u loose) {command payload : String}
    (ho : s.phase? n = some o) (hnone : s.wants (.call n) = none)
    (hframe : s.frame? n = some (commandFrame command payload)) :
    (s.claim n command payload).Ledger base strays u loose := by
  unfold Session.claim
  split
  · rename_i m _
    exact Ledger.finish (s := { s with rendezvous := m }) ⟨h.holds, h.carries, h.owned, h.wire⟩ ho
      hnone _
  · rename_i m t _
    have hwants : (s.setPhase n (.sending t)).wants (.call n)
        = some (.frame (commandFrame command payload)) := by
      rw [wants_setPhase_self ho, hframe]
      rfl
    refine ledger_setPhase (s := { s with
      rendezvous := m
      outlet := s.outlet.enter (.call n) (.frame (commandFrame command payload)) }) ?_ h.carries
      h.owned h.wire
    exact h.holds.enter hnone hwants fun b hb => wants_setPhase_ne s n (.sending t) hb

/-- A call whose turn to write has come has a frame to write. -/
theorem Ledger.frame_of_ready (h : s.Ledger base strays u loose) {t : ℕ}
    (ho : s.phase? n = some (.sending t)) (hr : s.outlet.ready s.link (.call n) = true) :
    ∃ frame, s.frame? n = some frame ∧ s.wants (.call n) = some (.frame frame) := by
  obtain ⟨e, r, hline, ha⟩ := Outlet.ready_agent hr
  have hwants : s.wants (.call n) = some e.outgoing :=
    (h.holds.serves.wants _ _).mpr ⟨e, hline ▸ List.mem_cons_self, ha, rfl⟩
  have hframe : s.wants (.call n) = (s.frame? n).map .frame := by simp only [wants, ho]
  obtain ⟨frame, hsome, -⟩ := Option.map_eq_some_iff.mp (hframe.symm.trans hwants)
  exact ⟨frame, hsome, by rw [hframe, hsome]; rfl⟩

/-- **A move of the write of a call** counts the frame that it gets on the wire. -/
theorem Ledger.afterSend (h : s.Ledger base strays u loose) {t : ℕ} {frame : Bytes}
    (ho : s.phase? n = some (.sending t)) (hframe : s.frame? n = some frame)
    {q : Outlet × L × Progress Written}
    (hq : Outlet.Pays s.wants s.Says s.link u loose (.call n) (.frame frame) q) :
    ∃ u', (s.afterSend n t q).Ledger base strays u' loose := by
  have hover : ∀ φ : CallPhase, (∀ t, φ ≠ .sending t) →
      (s.setPhase n φ).wants (.call n) = none := by
    intro φ hφ
    rw [wants_setPhase_self ho]
    cases φ with
    | sending t => exact absurd rfl (hφ t)
    | _ => rfl
  have hother : ∀ φ, ∀ b ≠ .call n, (s.setPhase n φ).wants b = s.wants b := fun φ b hb =>
    wants_setPhase_ne s n φ hb
  cases hq with
  | @on w l u' holds left due wire =>
    refine ⟨u', holds, left, h.owned, ?_⟩
    show s.EnteredBy base (Link.wire l) strays (Pending.due u')
    rw [due, wire]
    exact h.wire
  | @sent w l bytes paid fits left holds =>
    obtain rfl : bytes = frame := fits
    refine ⟨none, ledger_setPhase
      (s := ({ s with outlet := w, link := l } : Session L).count .commandsSent)
      (holds _ (hover _ nofun) (hother _)) left h.owned ?_⟩
    exact (h.wire.paid_frame paid ⟨n, hframe⟩).congr rfl (by
      show _ = s.counters.acksSent + (s.counters.commandsSent + 1 + s.counters.retransmits) +
        strays
      omega)
  | nothing again => cases again
  | @fails w l e due wire left holds =>
    refine ⟨none, Ledger.closeIfForgotten (s := ({ s with
      outlet := w
      link := l
      rendezvous := (s.rendezvous.withdraw t).abandon t
      commandLine := s.commandLine.erase n } : Session L).setPhase n
        (.ended (.error (if e.isClosed then .closed else .link e)))) ?_⟩
    have hwire := h.wire
    rw [due, ← wire] at hwire
    exact ledger_setPhase (holds _ (hover _ nofun) (hother _)) left h.owned hwire

theorem Ledger.collect (h : s.Ledger base strays u loose) {t d : ℕ}
    (ho : s.phase? n = some (.awaiting t d)) (ask : Ask) :
    (s.collect n t ask).Ledger base strays u loose := by
  have hnone : s.wants (.call n) = none := by simp only [wants, ho]
  have hends : ∀ (m : Rendezvous) (result : Except SessionError Answer),
      (({ s with rendezvous := m } : Session L).finish n result).Ledger base strays u loose :=
    fun m result => Ledger.finish (s := { s with rendezvous := m })
      ⟨h.holds, h.carries, h.owned, h.wire⟩ ho hnone result
  unfold Session.collect
  split
  · exact hends _ _
  · exact hends _ _
  · exact Ledger.finish (s := { s.count .timeouts with
      rendezvous := (s.rendezvous.withdraw t).abandon t })
      ⟨h.holds, h.carries, h.owned, h.wire⟩ ho hnone _

/-- A call that waits for the link to be shut down is through, or has waited long enough. -/
theorem Ledger.moveShutdown (h : s.Ledger base strays u loose) {d : ℕ}
    (ho : s.phase? n = some (.shutting d)) :
    (s.moveShutdown n).Ledger base strays u loose := by
  have hnone : s.wants (.call n) = none := by simp only [wants, ho]
  unfold Session.moveShutdown
  split
  · have hspares := Whole.resumeShutdown s.link (.call n)
    generalize Link.resumeShutdown s.link (.call n) = q at hspares
    have hshut := h.link_call hspares hnone
    obtain ⟨l, _ | _⟩ := q
    · exact hshut
    · exact hshut.join ho hnone
  · have hcancelled := h.link_call (Whole.cancel s.link (.call n)) hnone
    have hclosed := hcancelled.link (Whole.close (Link.cancel s.link (.call n))) (by rintro _ ⟨⟩)
    exact hclosed.join ho hnone

/-- **A move of a call** counts what it gets on the wire. -/
theorem Ledger.moveCall (h : s.Ledger base strays u loose) (hr : s.callReady n = true) :
    ∃ u', (s.moveCall n).Ledger base strays u' loose := by
  unfold callReady at hr
  cases hc : s.calls[n]? with
  | none => simp only [hc, Bool.false_eq_true] at hr
  | some c =>
    have hp : s.phase? n = some c.phase := phase?_of_call hc
    obtain ⟨ask, phase⟩ := c
    simp only [hc] at hr
    simp only [Session.moveCall, hc]
    cases phase with
    | issued =>
      have hnone : s.wants (.call n) = none := by simp only [wants, hp]
      cases hb : ask.body? with
      | none => exact ⟨u, h.windDown hp hnone⟩
      | some body =>
        exact ⟨u, Ledger.setPhase (s := { s with commandLine := s.commandLine ++ [n] })
          ⟨h.holds, h.carries, h.owned, h.wire⟩ hp hnone (by rintro _ ⟨⟩)⟩
    | queued =>
      have hnone : s.wants (.call n) = none := by simp only [wants, hp]
      cases hb : ask.body? with
      | none => exact ⟨u, h⟩
      | some body =>
        have hframe : s.frame? n = some (commandFrame body.1 body.2) := by
          simp only [frame?, hc, hb, Option.bind_some, Option.map_some]
        exact ⟨u, h.claim hp hnone hframe⟩
    | sending t =>
      obtain ⟨frame, hframe, hwants⟩ := h.frame_of_ready hp hr
      exact h.afterSend hp hframe (h.holds.move h.carries s.says_frame hr hwants)
    | awaiting t d => exact ⟨u, h.collect hp ask⟩
    | shutting d => exact ⟨u, h.moveShutdown hp⟩
    | joining d => exact ⟨u, h.finish hp (by simp only [wants, hp]) _⟩
    | ended r => exact ⟨u, h⟩
    | aborted => exact ⟨u, h⟩

/-- What is under way is an acknowledgement or the frame of a call. -/
theorem Ledger.piece (h : s.Ledger base strays u loose) {p : Pending} (hu : u = some p) :
    p.bytes = [ackByte] ∨ s.Says p.bytes := by
  obtain ⟨e, r, hline, hb, -, hbytes, hwants⟩ := h.holds.first hu
  rw [hbytes]
  obtain ⟨a, o, begun⟩ := e
  cases o with
  | ack => exact .inl rfl
  | frame bytes => exact .inr (s.says_frame a bytes hwants)
  | again =>
    have hlast := (h.holds.busy ⟨a, .again, begun⟩ (by rw [hline]; rfl) hb).2 rfl
    obtain ⟨bytes, hbytes⟩ := Option.ne_none_iff_exists'.mp hlast
    right
    simp only [Outlet.bytes, hbytes, Option.getD_some]
    exact h.holds.last bytes hbytes

/-- What a call has under way is the frame of a call. -/
theorem Ledger.says (h : s.Ledger base strays u loose) {bytes : Bytes} {landed : Bool}
    (hu : u = some ⟨.call n, bytes, landed⟩) : s.Says bytes := by
  obtain ⟨e, r, -, -, hagent, hbytes, hwants⟩ := h.holds.first hu
  rw [← hagent] at hwants
  obtain ⟨frame, ho, hframe⟩ := wants_call hwants
  have hsame : s.outlet.bytes e = frame := by rw [Outlet.bytes, ho]
  exact ⟨n, (hframe.trans (congrArg some hsame.symm)).trans (congrArg some hbytes.symm)⟩

/-- **Somebody below moves:** what is under way gets on the wire, or a frame that was given up,
or nothing. -/
theorem Ledger.helperMove (h : s.Ledger base strays u loose) (a : Agent) :
    ∃ strays' u' loose', ({ s with link := Link.helperMove s.link a } : Session L).Ledger base
      strays' u' loose' ∧
    (strays' = strays ∧ loose'.Subperm loose ∨
      strays' = strays + 1 ∧ ∃ w, loose.Perm (w :: loose')) := by
  cases Whole.helperMove a h.carries with
  | @spares loose' wire fewer left =>
    refine ⟨strays, u, loose', ⟨h.holds, left, fun w hw => h.owned w (fewer.subset hw), ?_⟩,
      .inl ⟨rfl, fewer⟩⟩
    show s.EnteredBy base (Link.wire (Link.helperMove s.link a)) strays (Pending.due u)
    rw [wire]
    exact h.wire
  | @lands b bytes mine wire left =>
    have hpiece := h.piece mine
    subst mine
    refine ⟨strays, _, loose, ⟨h.holds.lands, left, h.owned, ?_⟩, .inl ⟨rfl, List.Subperm.refl _⟩⟩
    show s.EnteredBy base (Link.wire (Link.helperMove s.link a)) strays [bytes]
    rw [wire]
    exact h.wire.lands hpiece
  | @strays w loose' split wire left =>
    refine ⟨strays + 1, u, loose', ⟨h.holds, left, fun v hv => h.owned v ?_, ?_⟩,
      .inr ⟨rfl, w, split⟩⟩
    · exact split.mem_iff.mpr (List.mem_cons_of_mem _ hv)
    · show s.EnteredBy base (Link.wire (Link.helperMove s.link a)) (strays + 1) (Pending.due u)
      rw [wire]
      exact h.wire.gets_on (h.owned w (split.mem_iff.mpr List.mem_cons_self))

/-! ### Everything -/

/-- The turn of call `n` to write has come, and its write is not over. -/
def midway (s : Session L) (n : ℕ) : Bool :=
  s.outlet.line.any fun e => e.agent == .call n && e.begun

/-- A call that writes is given up: what it has under way is on the wire already, or may get
there later, or does not get there. -/
theorem Ledger.leave (h : s.Ledger base strays u loose) {t : ℕ}
    (hp : s.phase? n = some (.sending t)) :
    let s' := ({ s with
      outlet := (s.outlet.leave s.link (.call n)).1
      link := (s.outlet.leave s.link (.call n)).2 } : Session L).setPhase n .aborted
    (∃ u', s'.Ledger base strays u' loose) ∨
    s.midway n = true ∧ (s'.Ledger base (strays + 1) none loose ∨
      ∃ bytes, s'.Ledger base strays none ((.call n, bytes) :: loose)) := by
  have hnone : (s.setPhase n .aborted).wants (.call n) = none := wants_setPhase_self hp _
  have hother : ∀ b ≠ .call n, (s.setPhase n .aborted).wants b = s.wants b := fun b hb =>
    wants_setPhase_ne s n _ hb
  rcases h.holds.leave s.link hnone hother with ⟨hholds, hlink⟩ |
    ⟨⟨bytes, landed, rfl⟩, hmidway, hholds, hlink⟩
  · exact .inl ⟨u, ledger_setPhase hholds (hlink.symm ▸ h.carries) h.owned
      (hlink.symm ▸ h.wire)⟩
  have hsaid : s.Says bytes := h.says rfl
  have hwire : s.EnteredBy base (Link.wire (s.outlet.leave s.link (.call n)).2) strays
      (Pending.due (some ⟨.call n, bytes, landed⟩)) := by
    rw [hlink, (Whole.cancel s.link (.call n)).wire]
    exact h.wire
  rcases Whole.giveUp h.carries with hgone | ⟨rfl, hloose⟩
  · rw [← hlink] at hgone
    cases landed with
    | true => exact .inr ⟨hmidway, .inl (ledger_setPhase hholds hgone h.owned
        (hwire.gives_up hsaid))⟩
    | false => exact .inl ⟨none, ledger_setPhase hholds hgone h.owned hwire⟩
  · rw [← hlink] at hloose
    refine .inr ⟨hmidway, .inr ⟨bytes, ledger_setPhase hholds hloose (fun w hw => ?_) hwire⟩⟩
    rcases List.mem_cons.mp hw with rfl | hw
    · exact hsaid
    · exact h.owned w hw

/-- **A call is given up.** If its frame is under way, it may be on the wire already, or get
there later. -/
theorem Ledger.abort (h : s.Ledger base strays u loose) (n : ℕ) :
    (∃ u', (s.abort n).Ledger base strays u' loose) ∨
    s.midway n = true ∧ ((s.abort n).Ledger base (strays + 1) none loose ∨
      ∃ bytes, (s.abort n).Ledger base strays none ((.call n, bytes) :: loose)) := by
  unfold Session.abort
  cases hc : s.calls[n]? with
  | none => exact .inl ⟨u, h⟩
  | some c =>
    have hp : s.phase? n = some c.phase := phase?_of_call hc
    simp only
    split
    · have hquiet : ∀ {l : L}, s.wants (.call n) = none →
          Spares Whole.carries (· = .call n) s.link l →
          (({ s with link := l } : Session L).setPhase n .aborted).Ledger base strays u loose :=
        fun hno hl => (h.link_call hl hno).setPhase hp hno nofun
      obtain ⟨ask, phase⟩ := c
      cases phase with
      | sending t =>
        -- the ticket and the place in the line of commands do not matter here
        have hends : ∀ {k : ℕ} {u' : Option Pending} {loose' : List (Agent × Bytes)},
            (({ s with
              outlet := (s.outlet.leave s.link (.call n)).1
              link := (s.outlet.leave s.link (.call n)).2 } : Session L).setPhase n
              .aborted).Ledger base k u' loose' →
            (({ s.withdraw n (.sending t) with
              commandLine := s.commandLine.erase n } : Session L).setPhase n
              .aborted).closeIfForgotten.Ledger base k u' loose' := fun hleft =>
          Ledger.closeIfForgotten ⟨hleft.holds, hleft.carries, hleft.owned, hleft.wire⟩
        exact (h.leave hp).imp (fun ⟨u', hleft⟩ => ⟨u', hends hleft⟩)
          (And.imp_right (Or.imp hends fun ⟨bytes, hleft⟩ => ⟨bytes, hends hleft⟩))
      | shutting d =>
        have hgone := hquiet (by simp only [wants, hp]) (Whole.cancel s.link (.call n))
        exact .inl ⟨u, Ledger.closeIfForgotten ⟨hgone.holds, hgone.carries, hgone.owned,
          hgone.wire⟩⟩
      | issued | queued | awaiting | joining =>
        have hgone := hquiet (by simp only [wants, hp]) ⟨rfl, fun _ _ _ => id⟩
        exact .inl ⟨u, Ledger.closeIfForgotten ⟨hgone.holds, hgone.carries, hgone.owned,
          hgone.wire⟩⟩
      | ended | aborted => contradiction
    · exact .inl ⟨u, h⟩

/-- A call that is issued writes nothing yet. -/
theorem Ledger.issue (h : s.Ledger base strays u loose) (ask : Ask) :
    (s.issue ask).Ledger base strays u loose := by
  have hsaid : ∀ p, s.Says p → (s.issue ask).Says p := by
    rintro p ⟨n, hn⟩
    refine ⟨n, (s.frame?_issue_ne ask ?_).trans hn⟩
    rintro rfl
    rw [frame?, List.getElem?_eq_none le_rfl] at hn
    cases hn
  exact ⟨h.holds.agrees (congrFun (s.wants_issue ask)) hsaid, h.carries,
    fun w hw => hsaid _ (h.owned w hw), h.wire.mono hsaid⟩

end Steps

/-! ### Runs -/

/-- What can become of a link from below: bytes arrive, the far end goes, writes will fail from
now on. It puts nothing on the wire and leaves alone what is being written. -/
structure Below (L : Type) [Link L] [Whole L] where
  change : L → L
  spares : ∀ l, Spares Whole.carries (fun _ => False) l (change l)

/-- What can happen to a session, on this side or below. -/
inductive Happening (L : Type) [Link L] [Whole L] where
  | own (e : Event)
  | below (c : Below L)

/-- One thing happens. -/
def happens (s : Session L) : Happening L → Session L
  | .own e => s.act e
  | .below c => { s with link := c.change s.link }

/-- The call that is given up while its frame is under way. -/
def cut (s : Session L) : Happening L → List Agent
  | .own (.abort n) => if s.midway n then [.call n] else []
  | _ => []

/-- All calls that are given up while their frames are under way. -/
def cuts (s : Session L) : List (Happening L) → List Agent
  | [] => []
  | e :: es => s.cut e ++ (s.happens e).cuts es

section Runs

variable {s : Session L} {base : Bytes} {given : List Agent} {u : Option Pending}
  {loose : List (Agent × Bytes)}

theorem ledger_start {link : L} (settings : SessionSettings)
    (hlink : Whole.carries link none []) :
    (start link settings).Ledger (Link.wire link) 0 none [] where
  holds := ⟨⟨List.nodup_nil, fun a o => iff_of_false (by cases a <;> nofun) nofun⟩, nofun, nofun,
    fun _ => rfl, nofun⟩
  carries := hlink
  owned := nofun
  wire := ⟨[], (List.append_nil _).symm, nofun, rfl, rfl⟩

/-- The books are in order, and the frames that strayed or may yet are of calls that were given
up, each once. -/
def Booked (s : Session L) (base : Bytes) (given : List Agent) : Prop :=
  ∃ u strays loose, s.Ledger base strays.length u loose ∧
    (strays ++ loose.map Prod.fst).Subperm given

theorem Booked.mono (h : s.Booked base given) (more : List Agent) :
    s.Booked base (given ++ more) := by
  obtain ⟨u, strays, loose, hledger, hgiven⟩ := h
  exact ⟨u, strays, loose, hledger, hgiven.trans (List.sublist_append_left _ _).subperm⟩

theorem Booked.helperMove (h : s.Booked base given) (a : Agent) :
    ({ s with link := Link.helperMove s.link a } : Session L).Booked base given := by
  obtain ⟨u, strays, loose, hledger, hgiven⟩ := h
  obtain ⟨_, u', loose', hledger', ⟨rfl, hfewer⟩ | ⟨rfl, w, hsplit⟩⟩ := hledger.helperMove a
  · obtain ⟨part, hperm, hsub⟩ := hfewer
    have hless : (loose'.map Prod.fst).Subperm (loose.map Prod.fst) :=
      ⟨part.map Prod.fst, hperm.map _, hsub.map _⟩
    exact ⟨u', strays, loose', hledger', ((List.subperm_append_left strays).mpr hless).trans hgiven⟩
  · refine ⟨u', strays ++ [w.1], loose', ?_, ?_⟩
    · rwa [List.length_append, List.length_singleton]
    · have hmoved : (strays ++ loose.map Prod.fst).Perm
          (strays ++ [w.1] ++ loose'.map Prod.fst) := by
        rw [List.append_assoc]
        exact (hsplit.map Prod.fst).append_left strays
      exact hmoved.symm.subperm.trans hgiven

theorem Booked.abort (h : s.Booked base given) (n : ℕ) :
    (s.abort n).Booked base (given ++ s.cut (.own (.abort n))) := by
  obtain ⟨u, strays, loose, hledger, hgiven⟩ := h
  have hmore : s.midway n = true → (strays ++ loose.map Prod.fst ++ [Agent.call n]).Subperm
      (given ++ s.cut (.own (.abort n))) := fun hmidway => by
    rw [cut, if_pos hmidway]
    exact (List.subperm_append_right _).mpr hgiven
  rcases hledger.abort n with ⟨u', hleft⟩ | ⟨hmidway, hleft | ⟨bytes, hleft⟩⟩
  · exact ⟨u', strays, loose, hleft, hgiven.trans (List.sublist_append_left _ _).subperm⟩
  · refine ⟨none, strays ++ [.call n], loose, ?_, (List.Perm.subperm ?_).trans (hmore hmidway)⟩
    · rwa [List.length_append, List.length_singleton]
    · rw [List.append_assoc, List.append_assoc]
      exact List.perm_append_comm.append_left strays
  · refine ⟨none, strays, _, hleft, (List.Perm.subperm ?_).trans (hmore hmidway)⟩
    rw [List.append_assoc]
    exact (List.perm_append_singleton _ _).symm.append_left strays

/-- **Whatever happens**, the books stay in order. -/
theorem Booked.happens (h : s.Booked base given) (e : Happening L) :
    (s.happens e).Booked base (given ++ s.cut e) := by
  have hsame : ∀ {s' : Session L} {e : Happening L}, (∀ {strays u loose},
      s.Ledger base strays u loose → ∃ u', s'.Ledger base strays u' loose) →
      s'.Booked base (given ++ s.cut e) := fun hs' => by
    obtain ⟨u, strays, loose, hledger, hgiven⟩ := h
    obtain ⟨u', hleft⟩ := hs' hledger
    exact Booked.mono ⟨u', strays, loose, hleft, hgiven⟩ _
  cases e with
  | below c => exact hsame fun hledger => ⟨_, hledger.link (c.spares s.link) nofun⟩
  | own e =>
    simp only [Session.happens]
    cases e with
    | move a =>
      simp only [Session.act]
      split
      · rename_i hr
        cases a with
        | reader => exact hsame fun hledger => hledger.moveReader hr
        | call n => exact hsame fun hledger => hledger.moveCall hr
        | release | porter | chance | farWriter | farReader => exact (h.helperMove _).mono _
      · exact h.mono _
    | issue ask => exact hsame fun hledger => ⟨_, hledger.issue ask⟩
    | abort n => exact h.abort n
    | letGo =>
      exact hsame fun hledger => ⟨_, Ledger.closeIfForgotten (s := { s with held := false })
        ⟨hledger.holds, hledger.carries, hledger.owned, hledger.wire⟩⟩
    | advance ms | takeQueue | queue q =>
      exact hsame fun hledger => ⟨_, hledger.holds, hledger.carries, hledger.owned, hledger.wire⟩

theorem Tally.happens (h : s.Tally) (e : Happening L) : (s.happens e).Tally := by
  cases e with
  | own e => exact h.act e
  | below c => exact h.fades rfl rfl rfl le_rfl

/-- All that happens keeps the books in order. -/
theorem balanced_run (hs : List (Happening L)) (hl : s.Booked base given) (ht : s.Tally) :
    (hs.foldl Session.happens s).Booked base (given ++ s.cuts hs) ∧
      (hs.foldl Session.happens s).Tally := by
  induction hs generalizing s given with
  | nil => exact ⟨hl.mono _, ht⟩
  | cons e hs ih =>
    have hrest := ih (hl.happens e) (ht.happens e)
    rwa [List.append_assoc] at hrest

/-- At rest nothing is on the wire that is not answered yet. -/
theorem Ledger.due_nil {strays : ℕ} (h : s.Ledger base strays u loose)
    (hrest : Interplay.AtRest s) : Pending.due u = [] := by
  match u, h with
  | none, _ => rfl
  | some ⟨a, bytes, false⟩, _ => rfl
  | some ⟨a, bytes, true⟩, h =>
    obtain ⟨e, r, hline, hb, hagent, -, hwants⟩ := h.holds.first rfl
    rw [← hagent] at hwants
    have hready : s.outlet.ready s.link a = true := by
      have hlink : Link.ready s.link a = true := Whole.ready h.carries
      simp [Outlet.ready, hline, ← hagent, hlink]
    have hnot := outlet_not_ready hrest hwants
    rw [hready] at hnot
    cases hnot

omit [Link L] [Whole L] in
theorem length_due (u : Option Pending) : (Pending.due u).length ≤ 1 := by
  match u with
  | none => exact Nat.zero_le 1
  | some ⟨_, _, false⟩ => exact Nat.zero_le 1
  | some ⟨_, _, true⟩ => exact le_rfl

end Runs

/-- **What a session counts**, whatever happens to it on a link that writes all or nothing. The
wire has on it whole pieces: as many acknowledgements as were counted, as many frames of calls as
commands and repetitions were, frames of calls that were given up while they were under way, at
most one each, and a piece that is not answered yet, which there is not at rest. A reply has its
acknowledgement, but for the last one at most. No more calls got a packet than commands were sent,
and together with the replies that were dropped they are no more than the replies that were
read. -/
theorem accounts_balance (link : L) (settings : SessionSettings) (hs : List (Happening L))
    (hlink : Whole.carries link none []) :
    let s := hs.foldl happens (start link settings)
    (∃ (pieces due : List Bytes) (strays : List Agent),
      Link.wire s.link = Link.wire link ++ pieces.flatten ∧
      (∀ p ∈ pieces, p = [ackByte] ∨ ∃ n, s.frame? n = some p) ∧
      pieces.count [ackByte] = s.counters.acksSent + due.count [ackByte] ∧
      pieces.length = s.counters.acksSent + (s.counters.commandsSent + s.counters.retransmits) +
        strays.length + due.length ∧
      strays.Subperm ((start link settings).cuts hs) ∧ due.length ≤ 1 ∧
      (Interplay.AtRest s → due = [])) ∧
    s.counters.acksSent ≤ s.counters.replies ∧ s.counters.replies ≤ s.counters.acksSent + 1 ∧
    s.counters.droppedReplies ≤ s.counters.replies ∧
    s.counters.timeouts ≤ s.counters.commandsSent ∧
    s.number CallPhase.served ≤ s.counters.commandsSent ∧
    s.number CallPhase.served ≤ s.counters.replies - s.counters.droppedReplies := by
  intro s
  have hstart : (start link settings).Booked (Link.wire link) [] :=
    ⟨none, [], [], ledger_start settings hlink, List.Subperm.refl _⟩
  obtain ⟨⟨u, strays, loose, hledger, hgiven⟩, htally⟩ :
      s.Booked (Link.wire link) ([] ++ (start link settings).cuts hs) ∧ s.Tally :=
    balanced_run hs hstart (tally_start link settings)
  obtain ⟨pieces, hwire, hpieces, hcount, hlength⟩ := hledger.wire
  obtain ⟨hacks, hreplies⟩ := htally.acks
  have hhanded := htally.handed
  have hsent := htally.sent
  refine ⟨⟨pieces, Pending.due u, strays, hwire, hpieces, hcount, hlength,
    (List.sublist_append_left _ _).subperm.trans hgiven, length_due u, hledger.due_nil⟩, hacks,
    hreplies, by omega, by omega, by omega, by omega⟩

/-- A call on a serial line is given up when its frame was handed over, and the porter goes on. -/
def overtaken : List (Happening SerialLine) :=
  [.move .reader, .issue (.packet "vTR" "foo"), .move (.call 0), .move (.call 0), .move (.call 0),
    .abort 0, .move .porter].map .own

/-- The frame is on the wire, and nothing counts it. -/
theorem carried_after_abort :
    let s := overtaken.foldl happens (start {} {})
    Interplay.AtRest s ∧ Link.wire s.link = commandFrame "vTR" "foo" ∧
      s.counters.commandsSent + s.counters.retransmits = 0 :=
  ⟨by decide, by decide, rfl⟩

theorem accounts_balance_overtaken : Whole.carries ({} : SerialLine) none [] ∧
    ∃ pieces : List Bytes, commandFrame "vTR" "foo" = pieces.flatten ∧ pieces.length = 1 := by
  have hlink : Whole.carries ({} : SerialLine) none [] := by
    refine ⟨List.Perm.refl _, fun _ => ⟨rfl, rfl⟩, ?_, ?_⟩ <;>
      rintro _ _ ⟨⟩
  obtain ⟨⟨pieces, due, strays, hwire, -, -, hlength, hgiven, -, hdue⟩, -⟩ :=
    accounts_balance {} {} overtaken hlink
  obtain rfl : due = [] := hdue (by decide)
  have hpieces : commandFrame "vTR" "foo" = pieces.flatten := hwire
  have hone : strays.length ≤ 1 := hgiven.length_le
  have hcount : pieces.length = 0 + (0 + 0) + strays.length + 0 := hlength
  refine ⟨hlink, pieces, hpieces, ?_⟩
  cases pieces with
  | nil => cases hpieces
  | cons p r =>
    rw [List.length_cons] at hcount ⊢
    omega

end Session

end ProbeLink
