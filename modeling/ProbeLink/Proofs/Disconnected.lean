/-
# Calls after the end of the connection

A session is disconnected once the rendezvous or the link is closed, whichever comes first,
and neither is ever opened again. A call that had not claimed a reply by then meets one of
the two: a closed rendezvous refuses its claim, and where the link was closed first its claim
goes through and its frame is refused. Both ways it ends with the session, counts nothing,
puts nothing on the wire, and leaves nothing in the slot (`Session.Late`,
`Session.Fruitless`).

The link may be any link that stays closed and on which a write fails that begins after the
close, however long it takes to fail (`ClosesForGood`). All links here are such links.

Key definitions: `ClosesForGood`, `Session.Cut`, `Session.LeadsTo`, `Session.Proper`,
`Session.Late`, `Session.Fruitless`.
Key theorems: `Session.Proper.act`, `Session.Late.moves`, `Session.Late.act`,
`Session.LeadsTo.turned_away`.
-/
import ProbeLink.Proofs.Ledger
import ProbeLink.Proofs.Parting

namespace ProbeLink

/-! ### Links that stay closed -/

/-- What a move of a write can come to that began on a closed link: it still waits, or it has
failed because the link is closed. Nothing gets on the wire. -/
inductive TurnsAway {L : Type} [Link L] (refused : L → Agent → Prop) (l : L) (a : Agent) :
    L × Progress Unit → Prop where
  | waits {l' : L} (wire : Link.wire l' = Link.wire l) (mine : refused l' a) :
      TurnsAway refused l a (l', none)
  | closed {l' : L} (wire : Link.wire l' = Link.wire l) :
      TurnsAway refused l a (l', some (.error .closed))

/-- A link that stays closed, and on which a write fails that begins after the close. -/
class ClosesForGood (L : Type) [Link L] where
  /-- The agent's write under way began on the closed link. -/
  refused : L → Agent → Prop
  stays : Link.Keeps fun l : L => Link.isClosed l = true
  spares (a : Agent) : Link.KeptBy (· ≠ a) fun l : L => Link.isClosed l = true ∧ refused l a
  beginWrite {l : L} (a : Agent) (bytes : Bytes) : Link.isClosed l = true →
    TurnsAway refused l a (Link.beginWrite l a bytes)
  resumeWrite {l : L} {a : Agent} : Link.isClosed l = true → refused l a →
    TurnsAway refused l a (Link.resumeWrite l a)
  wire_close (l : L) : Link.wire (Link.close l) = Link.wire l

/-- What never holds is kept. -/
theorem Link.keptBy_of_never {L : Type} [Link L] {who : Agent → Prop} {Q : L → Prop}
    (h : ∀ l, ¬Q l) : Link.KeptBy who Q :=
  ⟨fun l _ _ hl => (h l hl).elim, fun l _ _ hl => (h l hl).elim, fun l _ _ _ hl => (h l hl).elim,
    fun l _ _ hl => (h l hl).elim, fun l _ _ hl => (h l hl).elim, fun l _ _ hl => (h l hl).elim,
    fun l _ _ hl => (h l hl).elim, fun l hl => (h l hl).elim, fun l _ hl => (h l hl).elim⟩

theorem ScriptLink.isClosed_read (l : ScriptLink) : l.read.1.isClosed = l.isClosed := by
  unfold read
  repeat' split
  all_goals rfl

theorem ScriptLink.keeps_closed : Link.Keeps fun l : ScriptLink => l.isClosed = true where
  beginRead l a h := by
    have hread := l.isClosed_read.trans h
    simp only [Link.beginRead, beginRead]
    split <;> rename_i heq <;> rw [heq] at hread <;> exact hread
  resumeRead l a h := by
    have hread := l.isClosed_read.trans h
    simp only [Link.resumeRead, resumeRead]
    split <;> rename_i heq <;> rw [heq] at hread <;> exact hread
  beginWrite l a bytes h := by
    simp only [Link.beginWrite, write, h, if_true]
    exact h
  resumeWrite l a h := h
  beginShutdown l a h := by
    simp only [Link.beginShutdown, shutdown, close, h, if_true]
    split <;> exact h
  resumeShutdown l a h := h
  cancel l a h := h
  close l h := by
    simp only [Link.close, close, h, if_true]
  helperMove l a h := h

/-- A scripted link refuses at once. -/
instance : ClosesForGood ScriptLink where
  refused _ _ := False
  stays := ScriptLink.keeps_closed
  spares a := Link.keptBy_of_never fun l h => h.2
  beginWrite {l} a bytes h := by
    have hclosed : l.isClosed = true := h
    simp only [Link.beginWrite, ScriptLink.write, hclosed, if_true]
    exact .closed rfl
  resumeWrite _ h := h.elim
  wire_close l := l.wire_close

theorem SerialLine.isClosed_draw (l : SerialLine) : l.draw.1.isClosed = l.isClosed := by
  unfold draw
  repeat' split
  all_goals rfl

theorem SerialLine.isClosed_write (l : SerialLine) (bytes : Bytes) :
    (l.write bytes).1.isClosed = l.isClosed := by
  unfold write
  repeat' split
  all_goals rfl

theorem SerialLine.isClosed_carry (l : SerialLine) : l.carry.isClosed = l.isClosed := by
  unfold carry
  split
  · rfl
  · rename_i job _
    dsimp only
    split <;> exact isClosed_write _ job.bytes

theorem SerialLine.keeps_closed : Link.Keeps fun l : SerialLine => l.isClosed = true where
  beginRead l a h := by
    simp only [Link.beginRead, beginRead, read, h, if_true]
  resumeRead l a h := by
    have hdraw := (isClosed_draw { l with readers := l.readers.erase a, luck := 0 }).trans h
    simp only [Link.resumeRead, resumeRead]
    split
    · exact h
    · split
      · rename_i heq
        rwa [heq] at hdraw
      · exact h
  beginWrite l a bytes h := by
    simp only [Link.beginWrite, beginWrite, h, if_true]
  resumeWrite l a h := by
    simp only [Link.resumeWrite, resumeWrite]
    split <;> exact h
  beginShutdown l a h := rfl
  resumeShutdown l a h := h
  cancel l a h := h
  close l h := rfl
  helperMove l a h := by
    simp only [Link.helperMove, helperMove]
    split
    · exact l.isClosed_carry.trans h
    · exact h
    · exact h

/-- So does a serial line. -/
instance : ClosesForGood SerialLine where
  refused _ _ := False
  stays := SerialLine.keeps_closed
  spares a := Link.keptBy_of_never fun l h => h.2
  beginWrite {l} a bytes h := by
    have hclosed : l.isClosed = true := h
    simp only [Link.beginWrite, SerialLine.beginWrite, hclosed, if_true]
    exact .closed rfl
  resumeWrite _ h := h.elim
  wire_close _ := rfl

namespace StreamLink

variable {P : Type} [Port P]

omit [Port P] in
theorem isClosed_release (l : StreamLink P) : l.release.isClosed = l.isClosed := by
  unfold release
  split <;> rfl

theorem isClosed_draw (l : StreamLink P) : l.draw.1.isClosed = l.isClosed := by
  unfold draw
  repeat' split
  all_goals rfl

theorem keeps_closed : Link.Keeps fun l : StreamLink P => l.isClosed = true where
  beginRead l a h := by
    simp only [Link.beginRead, beginRead, h, if_true]
  resumeRead l a h := by
    simp only [Link.resumeRead, resumeRead]
    split
    · exact h
    · exact (isClosed_draw _).trans h
  beginWrite l a bytes h := by
    simp only [Link.beginWrite, beginWrite, h, if_true]
  resumeWrite l a h := by
    simp only [Link.resumeWrite, resumeWrite]
    repeat' split
    all_goals first | exact h | exact l.isClosed_release.trans h
  beginShutdown l a h := rfl
  resumeShutdown l a h := by
    simp only [Link.resumeShutdown, resumeShutdown]
    repeat' split
    all_goals exact h
  cancel l a h := h
  close l h := by
    simp only [Link.close, close, h, if_true]
  helperMove l a h := by
    simp only [Link.helperMove, helperMove]
    split <;> exact h

/-- So does a link over a port: a write that waits for its turn when the link is closed is not
one that begins after it. -/
instance : ClosesForGood (StreamLink P) where
  refused _ _ := False
  stays := keeps_closed
  spares a := Link.keptBy_of_never fun l h => h.2
  beginWrite {l} a bytes h := by
    have hclosed : l.isClosed = true := h
    simp only [Link.beginWrite, StreamLink.beginWrite, hclosed, if_true]
    exact .closed rfl
  resumeWrite _ h := h.elim
  wire_close l := by
    simp only [Link.close, close, release]
    repeat' split
    all_goals rfl

end StreamLink

/-! ### The line before the link -/

namespace Outlet

variable {L : Type} [Link L] {w : Outlet} {l : L} {a b : Agent} {e : Entry}

omit [Link L] in
theorem mem_of_enter {o : Outgoing} (he : e ∈ (w.enter a o).line) :
    e ∈ w.line ∨ e = ⟨a, o, false⟩ :=
  (List.mem_append.mp he).imp_right List.mem_singleton.mp

/-- A move of the first in line touches no entry but its own. -/
theorem mem_of_move (hr : w.ready l a = true) (he : e ∈ (w.move l a).1.line)
    (ha : e.agent ≠ a) : e ∈ w.line := by
  obtain ⟨e₀, r, hline, ha₀⟩ := ready_agent hr
  rw [hline]
  obtain ⟨⟨-, hl⟩ | ⟨-, hl⟩, -⟩ := move_first l hline ha₀ <;> rw [hl] at he
  · rcases List.mem_cons.mp he with rfl | he
    · exact absurd ha₀ ha
    · exact List.mem_cons_of_mem _ he
  · exact List.mem_cons_of_mem _ (List.mem_filter.mp he).1

/-- **A frame that is written on a closed link**, and whose turn has not come before the close,
stays off the wire and fails because the link is closed. -/
theorem move_closed [ClosesForGood L] {bytes : Bytes} {begun : Bool} {r : List Entry}
    (hline : w.line = ⟨a, .frame bytes, begun⟩ :: r) (hl : Link.isClosed l = true)
    (hbegun : begun = true → ClosesForGood.refused l a) :
    Link.wire (w.move l a).2.1 = Link.wire l ∧
      ((w.move l a).2.2 = none ∧ ClosesForGood.refused (w.move l a).2.1 a ∨
        (w.move l a).2.2 = some (.error .closed)) := by
  have hafter : ∀ (v : Outlet) (q : L × Progress Unit),
      TurnsAway ClosesForGood.refused l a q →
      Link.wire (v.after a q).2.1 = Link.wire l ∧
        ((v.after a q).2.2 = none ∧ ClosesForGood.refused (v.after a q).2.1 a ∨
          (v.after a q).2.2 = some (.error .closed)) := by
    rintro v q (⟨wire, mine⟩ | ⟨wire⟩)
    · exact ⟨wire, .inl ⟨rfl, mine⟩⟩
    · exact ⟨wire, .inr rfl⟩
  cases begun with
  | true =>
    simp only [move, hline]
    exact hafter w _ (ClosesForGood.resumeWrite hl (hbegun rfl))
  | false =>
    simp only [move, hline]
    exact hafter _ _ (ClosesForGood.beginWrite a bytes hl)

end Outlet

namespace CallPhase

/-- The call has begun and was not given up. -/
def Past : Option CallPhase → Prop
  | none | some .issued | some .aborted => False
  | _ => True

end CallPhase

namespace Session

open CallPhase

section States

variable {L : Type}

/-- A frame of a call stands before the link only while the call writes it. -/
def Posts (s : Session L) : Prop :=
  ∀ e ∈ s.outlet.line, ∀ n, e.agent = .call n →
    (∃ t, s.phase? n = some (.sending t)) ∧ ∃ bytes, e.outgoing = .frame bytes

/-- The loop that reads has ended, or a call has begun that sends nothing and ends the session. -/
def Over (s : Session L) : Prop :=
  s.readsOn = false ∨ ∃ n ask, s.ask? n = some ask ∧ ask.body? = none ∧ Past (s.phase? n)

/-- The line of calls, the rendezvous and the line before the link are in order. The slot is
for whoever has a ticket, and the rendezvous is closed when the session is over. -/
structure Proper (s : Session L) : Prop extends InTurn s where
  posts : s.Posts
  slot : ∀ n t k, s.ticket? n = some t → s.rendezvous.slot = some k → k = t
  shut : s.Over → s.rendezvous.closed = true

theorem proper_start (link : L) (settings : SessionSettings) : (start link settings).Proper where
  toInTurn := inTurn_start link settings
  posts _ he := nomatch he
  slot _ _ _ ht := nomatch ht
  shut h := by
    rcases h with hr | ⟨n, ask, ha, -⟩
    · cases hr
    · cases ha

end States

section Moves

variable {L : Type} [Link L] {s : Session L} {n : ℕ} {e : Outlet.Entry}

/-! ### Entries come and go with the moves of their agents -/

theorem mem_line_moveReader (hr : s.readerReady = true) (he : e ∈ s.moveReader.outlet.line)
    (ha : e.agent ≠ .reader) : e ∈ s.outlet.line := by
  rcases outlet_moveReader hr with hw | ⟨o, -, hw⟩ | ⟨hready, hw⟩ <;> rw [hw] at he
  · exact he
  · rcases Outlet.mem_of_enter he with he | rfl
    · exact he
    · exact absurd rfl ha
  · exact Outlet.mem_of_move hready he ha

theorem mem_line_moveCall (hr : s.callReady n = true) (he : e ∈ (s.moveCall n).outlet.line)
    (ha : e.agent ≠ .call n) : e ∈ s.outlet.line := by
  by_cases hs : ∃ t, s.phase? n = some (.sending t)
  · obtain ⟨t, hp⟩ := hs
    rw [moveCall_of_sending hp, (Turns.afterSend_outlet hp _).1] at he
    exact Outlet.mem_of_move (ready_of_sending hp hr) he ha
  · rcases outlet_moveCall (n := n) fun t ht => hs ⟨t, ht⟩ with hw | ⟨t, bytes, -, -, hw⟩ <;>
      rw [hw] at he
    · exact he
    · rcases Outlet.mem_of_enter he with he | rfl
      · exact he
      · exact absurd rfl ha

/-- A call that is given up while it writes leaves the line before the link. -/
theorem mem_line_abort (he : e ∈ (s.abort n).outlet.line) :
    e ∈ s.outlet.line ∧ ∀ t, s.phase? n = some (.sending t) → e.agent ≠ .call n := by
  unfold abort at he
  cases hc : s.calls[n]? with
  | none =>
    simp only [hc] at he
    refine ⟨he, fun t ht => ?_⟩
    rw [phase?, hc] at ht
    cases ht
  | some c =>
    have hp : s.phase? n = some c.phase := phase?_of_call hc
    obtain ⟨ask, phase⟩ := c
    simp only [hc] at he
    split at he
    · rw [outlet_closeIfForgotten] at he
      cases phase with
      | sending t =>
        obtain ⟨he, hne⟩ := List.mem_filter.mp he
        exact ⟨he, fun _ _ => by simpa using hne⟩
      | issued | queued | awaiting | shutting | joining | ended | aborted =>
        refine ⟨he, fun t ht => ?_⟩
        rw [hp] at ht
        cases ht
    · rename_i hover
      refine ⟨he, fun t ht => ?_⟩
      rw [hp] at ht
      cases ht
      exact absurd rfl hover

/-- **An entry of a call** comes into the line, and its turn comes, by a move of that call. -/
theorem mem_line_act {ev : Event} (he : e ∈ (s.act ev).outlet.line) (ha : e.agent = .call n)
    (hno : ¬(ev = .move (.call n) ∧ s.callReady n = true)) : e ∈ s.outlet.line := by
  cases ev with
  | move a =>
    by_cases hr : Interplay.ready s a = true
    · rw [act_of_ready hr] at he
      cases a with
      | reader => exact mem_line_moveReader hr he (by rw [ha]; nofun)
      | call k =>
        refine mem_line_moveCall hr he fun hk => ?_
        cases ha.symm.trans hk
        exact hno ⟨rfl, hr⟩
      | release | porter | chance | farWriter | farReader => exact he
    · rwa [act_of_not_ready hr] at he
  | abort k => exact (mem_line_abort he).1
  | letGo => rwa [act, letGo, outlet_closeIfForgotten] at he
  | issue | advance | takeQueue | queue => exact he

/-- A call that moves stands before the link with its frame if it writes then. -/
theorem Posts.moveCall (h : s.Posts) (hr : s.callReady n = true)
    (he : e ∈ (s.moveCall n).outlet.line) (ha : e.agent = .call n) :
    (∃ t, (s.moveCall n).phase? n = some (.sending t)) ∧ ∃ bytes, e.outgoing = .frame bytes := by
  by_cases hs : ∃ t, s.phase? n = some (.sending t)
  · obtain ⟨t, hp⟩ := hs
    obtain ⟨e₀, r, hline, ha₀⟩ := Outlet.ready_agent (ready_of_sending hp hr)
    have hfirst := h e₀ (hline ▸ List.mem_cons_self) n ha₀
    obtain ⟨hmoved, -⟩ := Outlet.move_first s.link hline ha₀
    obtain ⟨houtlet, hphase⟩ := Turns.afterSend_outlet hp (s.outlet.move s.link (.call n))
    rw [← moveCall_of_sending hp] at houtlet hphase
    rw [houtlet] at he
    rcases hmoved with ⟨hnone, hl⟩ | ⟨-, hl⟩ <;> rw [hl] at he
    · have hsending := (hphase.resolve_right fun hover => hover.1 hnone).2
      refine ⟨⟨t, hsending⟩, ?_⟩
      rcases List.mem_cons.mp he with rfl | he
      · exact hfirst.2
      · exact (h e (hline ▸ List.mem_cons_of_mem _ he) n ha).2
    · exact absurd ha (by simpa using (List.mem_filter.mp he).2)
  · have hold : e ∉ s.outlet.line := fun hmem => hs (h e hmem n ha).1
    rcases outlet_moveCall (n := n) fun t ht => hs ⟨t, ht⟩ with hw | ⟨t, bytes, hp, -, hw⟩ <;>
      rw [hw] at he
    · exact absurd he hold
    · rcases Outlet.mem_of_enter he with he | rfl
      · exact absurd he hold
      · exact ⟨⟨t, hp⟩, bytes, rfl⟩

theorem Posts.act (h : s.Posts) (ev : Event) : (s.act ev).Posts := by
  intro e he n ha
  by_cases hmove : ev = .move (.call n) ∧ s.callReady n = true
  · obtain ⟨rfl, hr⟩ := hmove
    rw [act_call hr] at he ⊢
    exact h.moveCall hr he ha
  · obtain ⟨⟨t, hp⟩, hout⟩ := h e (mem_line_act he ha hmove) n ha
    refine ⟨⟨t, ?_⟩, hout⟩
    rcases phase?_act s ev n with hsame | ⟨hnone, -⟩ | ⟨-, rfl, -⟩ | ⟨hev, hr, -⟩
    · exact hsame.trans hp
    · rw [hp] at hnone
      cases hnone
    · exact absurd ha ((mem_line_abort he).2 t hp)
    · exact absurd ⟨hev, hr⟩ hmove

/-! ### The slot is for whoever has a ticket -/

variable {s' : Session L}

omit [Link L] in
/-- No call gets a ticket, and the slot stays as it is or is emptied. -/
theorem Proper.slot_of_ebbs (h : s.Proper) (hebbs : s.rendezvous.Ebbs s'.rendezvous)
    (hticket : ∀ n t, s'.ticket? n = some t → s.ticket? n = some t) (n t k : ℕ)
    (ht : s'.ticket? n = some t) (hk : s'.rendezvous.slot = some k) : k = t :=
  h.slot n t k (hticket n t ht) (hebbs k hk).1

omit [Link L] in
/-- Whoever gets a ticket has the slot. -/
theorem Proper.slot_of_shift (h : s.Proper) (hnext : s'.InTurn) {js : List ℕ}
    (hs : s.Shift s' js) (k t j : ℕ) (ht : s'.ticket? k = some t)
    (hj : s'.rendezvous.slot = some j) : j = t := by
  cases hs with
  | still line slot calls =>
    refine h.slot_of_ebbs slot (fun m t' hm => ?_) k t j ht hj
    rcases calls m with hsame | ⟨-, hout, -⟩
    · rwa [ticket?, hsame] at hm
    · exact absurd (inLine_of_ticket hm) hout
  | asks m phase phase' line slot calls =>
    refine h.slot_of_ebbs (slot ▸ .refl _) (fun m' t' hm => ?_) k t j ht hj
    by_cases hmm : m' = m
    · rw [hmm, ticket?, phase'] at hm
      cases hm
    · rwa [ticket?, calls m' hmm] at hm
  | commands m t' first ticket line slot calls =>
    obtain rfl : k = m := hnext.alone ht ticket
    obtain rfl : t' = t := Option.some.inj (ticket.symm.trans ht)
    rcases slot with ⟨-, hclaimed, -⟩ | ⟨hp, hsame⟩
    · exact (Option.some.inj (hclaimed.symm.trans hj)).symm
    · rw [hsame] at hj
      exact h.slot k t' j (by rw [ticket?, hp]; rfl) hj
  | returns m r first phase' line slot gone calls =>
    refine h.slot_of_ebbs slot (fun m' t' hm => ?_) k t j ht hj
    by_cases hmm : m' = m
    · rw [hmm, ticket?, phase'] at hm
      cases hm
    · rwa [ticket?, calls m' hmm] at hm

omit [Link L] in
/-- **A call that returns leaves nothing in the slot.** -/
theorem Proper.slot_of_returns (h : s.Proper) {js : List ℕ} (hs : s.Shift s' js) {t : ℕ}
    {r : Except SessionError Answer} (ht : s.ticket? n = some t)
    (hover : s'.phase? n = some (.ended r)) : s'.rendezvous.slot = none := by
  refine Option.eq_none_iff_forall_ne_some.mpr fun j hj => ?_
  have hin : InLine (s.phase? n) := inLine_of_ticket ht
  have hout : ¬InLine (s'.phase? n) := by rw [hover]; exact id
  cases hs with
  | still line slot calls =>
    rcases calls n with hsame | ⟨hno, -⟩
    · exact hout (hsame ▸ hin)
    · exact hno hin
  | asks m phase phase' line slot calls =>
    by_cases hm : n = m
    · rw [hm, phase] at hin
      exact hin
    · exact hout (calls n hm ▸ hin)
  | commands m t' first ticket line slot calls =>
    obtain rfl : n = m := Option.some.inj ((h.first n t ht).symm.trans first)
    exact hout (inLine_of_ticket ticket)
  | returns m r first phase' line slot gone calls =>
    obtain rfl : n = m := Option.some.inj ((h.first n t ht).symm.trans first)
    obtain rfl : j = t := h.slot n t j ht (slot j hj).1
    exact gone j ht hj

theorem ebbs_abort (s : Session L) (n : ℕ) : s.rendezvous.Ebbs (s.abort n).rendezvous := by
  unfold abort
  split
  · exact .refl _
  · rename_i c hc
    split
    · have hgone : s.rendezvous.Ebbs (s.withdraw n c.phase).rendezvous := by
        cases c.phase with
        | sending t | awaiting t d => exact s.rendezvous.ebbs_abandon t
        | issued | queued | shutting | joining | ended | aborted => exact .refl _
      exact hgone.trans (quiet_closeIfForgotten (({ s.withdraw n c.phase with
        commandLine := (s.withdraw n c.phase).commandLine.erase n } : Session L).setPhase n
          .aborted)).slot
    · exact .refl _

/-- Only a call that moves claims the slot. -/
theorem ebbs_act {e : Event} (he : ∀ n, e ≠ .move (.call n)) :
    s.rendezvous.Ebbs (s.act e).rendezvous := by
  cases e with
  | move a =>
    by_cases hr : Interplay.ready s a = true
    · rw [act_of_ready hr]
      cases a with
      | reader => exact (quiet_moveReader s).slot
      | call n => exact absurd rfl (he n)
      | release | porter | chance | farWriter | farReader => exact .refl _
    · rw [act_of_not_ready hr]
      exact .refl _
  | abort n => exact ebbs_abort s n
  | letGo => exact (quiet_closeIfForgotten ({ s with held := false } : Session L)).slot
  | issue | advance | takeQueue | queue => exact .refl _

/-- Only a call that moves gets a ticket. -/
theorem ticket_of_act {e : Event} (he : e ≠ .move (.call n)) {t : ℕ}
    (ht : (s.act e).ticket? n = some t) : s.ticket? n = some t := by
  rw [ticket?] at ht
  rcases phase?_act s e n with hsame | ⟨-, hissued⟩ | ⟨-, -, haborted⟩ | ⟨hev, -⟩
  · rwa [hsame] at ht
  · rw [hissued] at ht
    cases ht
  · rw [haborted] at ht
    cases ht
  · exact absurd hev he

theorem Proper.slot_act (h : s.Proper) (e : Event) (n t k : ℕ)
    (ht : (s.act e).ticket? n = some t) (hk : (s.act e).rendezvous.slot = some k) : k = t := by
  by_cases he : ∃ m, e = .move (.call m)
  · obtain ⟨m, rfl⟩ := he
    by_cases hr : s.callReady m = true
    · rw [act_call hr] at ht hk
      have hshift := shift_moveCall h.tidy.fresh h.line h.first hr
      exact h.slot_of_shift (h.toInTurn.moveCall hr) hshift n t k ht hk
    · rw [act_of_not_ready hr] at ht hk
      exact h.slot n t k ht hk
  · have hno : ∀ m, e ≠ .move (.call m) := fun m hm => he ⟨m, hm⟩
    exact h.slot_of_ebbs (ebbs_act hno) (fun m t' hm => ticket_of_act (hno m) hm) n t k ht hk

/-! ### A session that is over is closed -/

theorem closed_endReader (s : Session L) (result : Except SessionError Unit) :
    (s.endReader result).rendezvous.closed = true := by
  simp only [endReader]
  split <;> rfl

/-- The loop that reads goes on reading, or closes the rendezvous. -/
theorem closed_moveReader (hon : s.readsOn = true) :
    s.moveReader.readsOn = true ∨ s.moveReader.rendezvous.closed = true := by
  have hread : ∀ r, (s.afterRead r).readsOn = true ∨ (s.afterRead r).rendezvous.closed = true := by
    rintro ⟨l, _ | (e | b)⟩
    · exact .inl rfl
    · exact .inr (closed_endReader _ _)
    · obtain ⟨-, -, -, hon, -⟩ := takeByte_facts ({ s with link := l } : Session L) b
      exact .inl hon
  unfold moveReader
  cases hreader : s.reader with
  | idle | reading => exact hread _
  | acking =>
    obtain ⟨w, l, _ | (e | _)⟩ := s.outlet.move s.link .reader
    · exact .inl hon
    · exact .inr (closed_endReader _ _)
    · exact .inl rfl
  | resending =>
    obtain ⟨w, l, _ | (e | (_ | _))⟩ := s.outlet.move s.link .reader
    · exact .inl hon
    · exact .inr (closed_endReader _ _)
    · exact .inl rfl
    · exact .inl rfl
  | closing | ended =>
    rw [readsOn, hreader] at hon
    cases hon

theorem reader_closeIfForgotten (s : Session L) : s.closeIfForgotten.reader = s.reader := by
  unfold closeIfForgotten
  split <;> rfl

@[simp] theorem reader_finish (s : Session L) (n : ℕ) (result : Except SessionError Answer) :
    (s.finish n result).reader = s.reader := reader_closeIfForgotten _

@[simp] theorem reader_join (s : Session L) (n : ℕ) : (s.join n).reader = s.reader := by
  unfold join
  split
  · rfl
  · exact reader_finish s n _

theorem reader_moveCall (s : Session L) (n : ℕ) : (s.moveCall n).reader = s.reader := by
  unfold moveCall
  split
  · rfl
  · rename_i c _
    cases c.phase with
    | issued =>
      simp only [windDown]
      repeat' split
      all_goals simp [setPhase]
    | queued =>
      simp only [claim]
      repeat' split
      all_goals simp [setPhase]
    | sending t =>
      obtain ⟨w, l, _ | (e | _)⟩ := s.outlet.move s.link (.call n) <;>
        simp [afterSend, setPhase, count]
    | awaiting t d =>
      simp only [collect]
      split <;> simp [count]
    | shutting d =>
      simp only [moveShutdown]
      repeat' split
      all_goals simp
    | joining d => exact reader_finish s n _
    | ended r => rfl
    | aborted => rfl

theorem reader_abort (s : Session L) (n : ℕ) : (s.abort n).reader = s.reader := by
  unfold abort
  split
  · rfl
  · rename_i c _
    split
    · have hgone : (s.withdraw n c.phase).reader = s.reader := by cases c.phase <;> rfl
      exact (reader_closeIfForgotten _).trans hgone
    · rfl

/-- Only the loop that reads ends itself. -/
theorem readsOn_act {e : Event} (he : e ≠ .move .reader) :
    (s.act e).readsOn = s.readsOn := by
  have hreader : (s.act e).reader = s.reader := by
    cases e with
    | move a =>
      by_cases hr : Interplay.ready s a = true
      · rw [act_of_ready hr]
        cases a with
        | reader => exact absurd rfl he
        | call n => exact reader_moveCall s n
        | release | porter | chance | farWriter | farReader => rfl
      · rw [act_of_not_ready hr]
    | abort n => exact reader_abort s n
    | letGo => exact reader_closeIfForgotten _
    | issue | advance | takeQueue | queue => rfl
  simp only [readsOn, hreader]

/-- Whatever happens, the loop goes on reading, or the rendezvous is closed. -/
theorem reads_or_closed_act (hon : s.readsOn = true) (e : Event) :
    (s.act e).readsOn = true ∨ (s.act e).rendezvous.closed = true := by
  by_cases he : e = .move .reader
  · subst he
    by_cases hr : s.readerReady = true
    · rw [act_reader hr]
      exact closed_moveReader hon
    · rw [act_of_not_ready hr]
      exact .inl hon
  · exact .inl ((readsOn_act he).trans hon)

theorem closed_join (hc : s.rendezvous.closed = true) (n : ℕ) :
    (s.join n).rendezvous.closed = true := by
  unfold join finish closeIfForgotten
  repeat' split
  all_goals first | exact hc | rfl

/-- Whoever begins the end of the session closes the rendezvous. -/
theorem closed_windDown (s : Session L) (n : ℕ) : (s.windDown n).rendezvous.closed = true := by
  simp only [windDown]
  split
  · rfl
  · exact closed_join rfl n

theorem Proper.closed_act (h : s.Proper) (hc : s.rendezvous.closed = true) (e : Event) :
    (s.act e).rendezvous.closed = true :=
  ((handled_act s e).over hc (h.tidy.closed hc)).1

/-- A call that sends nothing closes the rendezvous when it begins. -/
theorem Proper.closed_moveCall (h : s.Proper) (hr : s.callReady n = true) {ask : Ask}
    (hask : s.ask? n = some ask) (hbody : ask.body? = none) :
    (s.moveCall n).rendezvous.closed = true := by
  obtain ⟨o, ho⟩ := phase?_of_callReady hr
  have hc := call_of_ask ho hask
  by_cases hissued : o = .issued
  · subst hissued
    have hmove : s.moveCall n = s.windDown n := by simp only [moveCall, hc, hbody]
    rw [hmove]
    exact closed_windDown s n
  · -- it had begun before
    have hpast : Past (s.phase? n) := by
      rw [ho]
      cases o with
      | issued => exact absurd rfl hissued
      | aborted => simp only [callReady, hc, Bool.false_eq_true] at hr
      | queued | sending | awaiting | shutting | joining | ended => trivial
    rw [← act_call hr]
    exact h.closed_act (h.shut (.inr ⟨n, _, hask, hbody, hpast⟩)) _

theorem Proper.shut_act (h : s.Proper) (e : Event) (hover : (s.act e).Over) :
    (s.act e).rendezvous.closed = true := by
  rcases hover with hoff | ⟨n, ask, ha, hbody, hpast⟩
  · cases hon : s.readsOn with
    | false => exact h.closed_act (h.shut (.inl hon)) e
    | true =>
      exact (reads_or_closed_act hon e).resolve_left fun hon' => nomatch hoff.symm.trans hon'
  · rcases phase?_act s e n with hsame | ⟨-, hissued⟩ | ⟨-, -, haborted⟩ | ⟨rfl, hr, hact⟩
    · rw [hsame] at hpast
      obtain ⟨o, ho⟩ : ∃ o, s.phase? n = some o := by
        cases ho : s.phase? n with
        | none => rw [ho] at hpast; exact hpast.elim
        | some o => exact ⟨o, rfl⟩
      obtain ⟨ask', -, hask'⟩ := phase?_eq_some ho
      obtain rfl : ask = ask' := Option.some.inj (ha.symm.trans (ask?_act e hask'))
      exact h.closed_act (h.shut (.inr ⟨n, ask, hask', hbody, hpast⟩)) e
    · rw [hissued] at hpast
      exact hpast.elim
    · rw [haborted] at hpast
      exact hpast.elim
    · rw [hact] at ha ⊢
      rw [ask?_of_asks (asks_moveCall s n)] at ha
      exact h.closed_moveCall hr ha hbody

/-- **Whatever happens on this side** keeps a session proper. -/
theorem Proper.act (h : s.Proper) (e : Event) : (s.act e).Proper where
  toInTurn := h.toInTurn.act e
  posts := h.posts.act e
  slot := h.slot_act e
  shut := h.shut_act e

end Moves

/-! ### Calls that come too late -/

section Late

variable {L : Type} [Link L] [ClosesForGood L] {s s' : Session L} {n : ℕ}

/-- What ends a session: the loop that reads has ended, for whatever reason, the link is closed,
or a disconnect has begun. -/
inductive Cut (s : Session L) : Prop where
  | reader (ended : s.readsOn = false)
  | link (closed : Link.isClosed s.link = true)
  | disconnect {d : ℕ} (asks : s.ask? d = some .disconnect) (begun : Past (s.phase? d))

/-- What becomes of a call that had not claimed a reply when the session was disconnected: it
still has not, its frame is going to be refused, it has ended with the session, or it was
given up. Of a call that sends nothing nothing more is said. -/
inductive Late (s : Session L) (n : ℕ) : Prop where
  | early (phase : Early (s.phase? n))
  | refused {t : ℕ} (phase : s.phase? n = some (.sending t))
      (closed : Link.isClosed s.link = true)
      (begun : s.Begun n → ClosesForGood.refused s.link (.call n))
  | closed (phase : s.phase? n = some (.ended (.error .closed)))
  | aborted (phase : s.phase? n = some .aborted)
  | parts {ask : Ask} (asks : s.ask? n = some ask) (body : ask.body? = none)

/-- The next move of call `n` puts nothing on the wire and counts nothing, and if the call
returns it leaves nothing in the slot. -/
structure Fruitless (s : Session L) (n : ℕ) : Prop where
  wire : Link.wire (s.moveCall n).link = Link.wire s.link
  counters : (s.moveCall n).counters = s.counters
  slot : ∀ r, (s.moveCall n).phase? n = some (.ended r) → (s.moveCall n).rendezvous.slot = none

omit [ClosesForGood L] in
theorem isConnected_eq_false :
    s.isConnected = false ↔ s.rendezvous.closed = true ∨ Link.isClosed s.link = true := by
  simp only [isConnected, Bool.and_eq_false_iff, Bool.not_eq_false']

theorem wire_finish (s : Session L) (n : ℕ) (result : Except SessionError Answer) :
    Link.wire (s.finish n result).link = Link.wire s.link := by
  unfold finish closeIfForgotten
  split
  · rfl
  · exact ClosesForGood.wire_close _

omit [ClosesForGood L] in
theorem counters_finish (s : Session L) (n : ℕ) (result : Except SessionError Answer) :
    (s.finish n result).counters = s.counters := by
  unfold finish closeIfForgotten
  split <;> rfl

omit [ClosesForGood L] in
theorem slot_finish (hs : s.rendezvous.slot = none) (n : ℕ)
    (result : Except SessionError Answer) : (s.finish n result).rendezvous.slot = none := by
  unfold finish closeIfForgotten
  split
  · exact hs
  · exact s.rendezvous.slot_clear

/-- **A claim that comes too late** is refused, or the frame is going to be. -/
theorem Proper.late_claim (h : s.Proper) (hoff : s.isConnected = false)
    (hp : s.phase? n = some .queued) (command payload : String)
    (hmove : s.moveCall n = s.claim n command payload) : (s.moveCall n).Late n ∧ s.Fruitless n := by
  cases hc : s.rendezvous.closed with
  | true =>
    have hends : s.moveCall n = s.finish n (.error .closed) := by
      rw [hmove]
      simp only [claim, s.rendezvous.claim_of_closed hc]
    refine ⟨.closed ?_, ?_, ?_, fun _ _ => ?_⟩ <;> rw [hends]
    · exact phase?_finish hp _
    · exact wire_finish s n _
    · exact counters_finish s n _
    · exact slot_finish (h.tidy.closed hc) n _
  | false =>
    have hlink : Link.isClosed s.link = true := by
      refine (isConnected_eq_false.mp hoff).resolve_left fun hc' => ?_
      rw [hc] at hc'
      cases hc'
    -- the turn of the frame has not come, and none of the call was there before
    have hidle : ¬(s.claim n command payload).Begun n := fun hb => by
      obtain ⟨e, he, ha, -⟩ := begun_claim hb
      obtain ⟨⟨t, hsending⟩, -⟩ := h.posts e he n ha
      rw [hp] at hsending
      cases hsending
    have hclaims : ∃ m t, s.claim n command payload = ({ s with
        rendezvous := m
        outlet := s.outlet.enter (.call n) (.frame (commandFrame command payload)) }
          : Session L).setPhase n (.sending t) :=
      ⟨_, _, by simp only [claim, s.rendezvous.claim_of_open hc]; rfl⟩
    obtain ⟨m, t, hclaim⟩ := hclaims
    have hsending : (s.moveCall n).phase? n = some (.sending t) :=
      (hmove.trans hclaim) ▸ phase?_setPhase_self (by exact hp) _
    refine ⟨.refused hsending ?_ fun hb => absurd (hmove ▸ hb) hidle, ?_, ?_, fun r hover => ?_⟩
    · rw [hmove, hclaim]
      exact hlink
    · rw [hmove, hclaim]
      rfl
    · rw [hmove, hclaim]
      rfl
    · rw [hsending] at hover
      cases hover

/-- **A frame that comes too late** is refused. -/
theorem Proper.late_afterSend (h : s.Proper) {t : ℕ} (hp : s.phase? n = some (.sending t))
    (hr : s.callReady n = true) (hclosed : Link.isClosed s.link = true)
    (hbegun : s.Begun n → ClosesForGood.refused s.link (.call n)) :
    (s.moveCall n).Late n ∧ s.Fruitless n := by
  obtain ⟨⟨a, out, begun⟩, r, hline, rfl⟩ := Outlet.ready_agent (ready_of_sending hp hr)
  have hmem : (⟨.call n, out, begun⟩ : Outlet.Entry) ∈ s.outlet.line :=
    hline ▸ List.mem_cons_self
  obtain ⟨-, bytes, rfl⟩ := h.posts _ hmem n rfl
  obtain ⟨hwire, hcases⟩ := Outlet.move_closed hline hclosed fun hb => hbegun ⟨_, hmem, rfl, hb⟩
  have hkept : Link.KeptBy (fun _ => True) fun l : L => Link.isClosed l = true :=
    ClosesForGood.stays.keptBy _
  have hclosed' := s.outlet.link_move (a := .call n) hkept hclosed trivial
  have hshift := shift_moveCall h.tidy.fresh h.line h.first hr
  have hslot : ∀ r, (s.moveCall n).phase? n = some (.ended r) →
      (s.moveCall n).rendezvous.slot = none := fun r hover =>
    h.slot_of_returns hshift (by rw [ticket?, hp]; rfl) hover
  have hmove := moveCall_of_sending hp
  generalize s.outlet.move s.link (.call n) = q at hwire hcases hclosed' hmove
  obtain ⟨w, l, p⟩ := q
  rcases hcases with ⟨rfl, hrefused⟩ | rfl
  · refine ⟨.refused (t := t) ?_ ?_ fun _ => ?_, ?_, ?_, hslot⟩ <;> rw [hmove]
    · exact hp
    · exact hclosed'
    · exact hrefused
    · exact hwire
    · rfl
  · refine ⟨.closed ?_, ?_, ?_, hslot⟩ <;> rw [hmove]
    · exact phase?_finish (by exact hp) _
    · exact (wire_finish _ n _).trans hwire
    · exact counters_finish _ n _

/-- **A call that comes too late** gets nowhere by its next move. -/
theorem Late.moves (hlate : s.Late n) (h : s.Proper) (hoff : s.isConnected = false)
    (hr : s.callReady n = true) {ask : Ask} (hask : s.ask? n = some ask)
    (hbody : ask.body?.isSome = true) : (s.moveCall n).Late n ∧ s.Fruitless n := by
  obtain ⟨o, ho⟩ := phase?_of_callReady hr
  have hc := call_of_ask ho hask
  obtain ⟨body, hb⟩ := Option.isSome_iff_exists.mp hbody
  cases hlate with
  | early phase =>
    rw [ho] at phase
    cases o with
    | issued =>
      have hmove : s.moveCall n
          = ({ s with commandLine := s.commandLine ++ [n] } : Session L).setPhase n .queued := by
        simp only [moveCall, hc, hb]
      have hqueued : (s.moveCall n).phase? n = some .queued :=
        hmove ▸ phase?_setPhase_self (by exact ho) _
      refine ⟨.early (by rw [hqueued]; trivial), hmove ▸ rfl, hmove ▸ rfl, fun r hover => ?_⟩
      rw [hqueued] at hover
      cases hover
    | queued =>
      exact h.late_claim hoff ho body.1 body.2 (by simp only [moveCall, hc, hb])
    | sending | awaiting | shutting | joining | ended | aborted => exact phase.elim
  | refused phase closed begun =>
    exact h.late_afterSend phase hr closed begun
  | closed phase | aborted phase =>
    rw [ho] at phase
    cases phase
    simp only [callReady, hc, Bool.false_eq_true] at hr
  | parts asks body =>
    obtain rfl := Option.some.inj (asks.symm.trans hask)
    rw [body] at hbody
    cases hbody

/-- What the others do lets no write through that is refused. -/
theorem refused_act (hclosed : Link.isClosed s.link = true)
    (hbegun : s.Begun n → ClosesForGood.refused s.link (.call n)) {e : Event}
    (he : e.agent? ≠ some (.call n)) (hb : (s.act e).Begun n) :
    ClosesForGood.refused (s.act e).link (.call n) := by
  obtain ⟨x, hx, ha, hxb⟩ := hb
  have hno : ¬(e = .move (.call n) ∧ s.callReady n = true) := by
    rintro ⟨rfl, -⟩
    exact he rfl
  have hold : s.Begun n := ⟨x, mem_line_act hx ha hno, ha, hxb⟩
  refine (link_act_by (ClosesForGood.spares (.call n)) ⟨hclosed, hbegun hold⟩ e fun a hea => ?_).2
  rintro rfl
  exact he hea

/-- What the others do is nothing to a call that comes too late. -/
theorem Late.others (hlate : s.Late n) {e : Event} (he : e.agent? ≠ some (.call n)) :
    (s.act e).Late n := by
  rcases phase?_act s e n with hsame | ⟨-, hissued⟩ | ⟨-, rfl, -⟩ | ⟨rfl, -⟩
  · cases hlate with
    | early phase => exact .early (by rwa [hsame])
    | refused phase closed begun =>
      exact .refused (hsame.trans phase) (link_act ClosesForGood.stays closed e)
        (refused_act closed begun he)
    | closed phase => exact .closed (hsame.trans phase)
    | aborted phase => exact .aborted (hsame.trans phase)
    | parts asks body => exact .parts (ask?_act e asks) body
  · exact .early (by rw [hissued]; trivial)
  · exact absurd rfl he
  · exact absurd rfl he

/-- **A call that comes too late** stays one, whatever happens on this side. -/
theorem Late.act (hlate : s.Late n) (h : s.Proper) (hoff : s.isConnected = false) (e : Event) :
    (s.act e).Late n := by
  by_cases he : e.agent? = some (.call n)
  · cases e with
    | move a =>
      obtain rfl : a = .call n := Option.some.inj he
      by_cases hr : s.callReady n = true
      · obtain ⟨o, ho⟩ := phase?_of_callReady hr
        obtain ⟨ask, -, hask⟩ := phase?_eq_some ho
        cases hb : ask.body? with
        | none => exact .parts (ask?_act _ hask) hb
        | some body =>
          rw [act_call hr]
          exact (hlate.moves h hoff hr hask (by rw [hb]; rfl)).1
      · rwa [act_of_not_ready hr]
    | abort k =>
      cases he
      by_cases hlive : ∃ o, s.phase? n = some o ∧ o.isLive = true
      · obtain ⟨o, ho, hlive⟩ := hlive
        exact .aborted (abort_facts ho hlive).1
      · rwa [Session.act, abort_of_over hlive]
    | issue | advance | takeQueue | queue | letGo => cases he
  · exact hlate.others he

/-! ### Runs -/

/-- One state of a session leads to another by what happens on this side of the link and below
it. What happens below opens no link that is closed and lets no write through that is
refused. -/
inductive LeadsTo (s : Session L) : Session L → Prop where
  | refl : LeadsTo s s
  | own {s' : Session L} (h : LeadsTo s s') (e : Event) : LeadsTo s (s'.act e)
  | beneath {s' : Session L} {l : L} (h : LeadsTo s s')
      (stays : Link.isClosed s'.link = true → Link.isClosed l = true)
      (spares : ∀ a, Link.isClosed s'.link = true → ClosesForGood.refused s'.link a →
        ClosesForGood.refused l a) : LeadsTo s { s' with link := l }

theorem LeadsTo.proper (h : s.LeadsTo s') (hs : s.Proper) : s'.Proper := by
  induction h with
  | refl => exact hs
  | own _ e ih => exact ih.act e
  | beneath _ _ _ ih => exact ⟨ih.toInTurn.link _, ih.posts, ih.slot, ih.shut⟩

/-- **Once a session is disconnected** it stays so. -/
theorem LeadsTo.stays (h : s.LeadsTo s') (hs : s.Proper) (hoff : s.isConnected = false) :
    s'.isConnected = false := by
  induction h with
  | refl => exact hoff
  | @own s' h e ih =>
    rw [isConnected_eq_false] at ih ⊢
    exact ih.imp (fun hc => (h.proper hs).closed_act hc e)
      fun hl => link_act ClosesForGood.stays hl e
  | beneath _ stays _ ih =>
    rw [isConnected_eq_false] at ih ⊢
    exact ih.imp_right stays

/-- **A call that had not claimed a reply** when the session was disconnected comes too late. -/
theorem LeadsTo.late (h : s.LeadsTo s') (hs : s.Proper) (hoff : s.isConnected = false)
    (hn : Early (s.phase? n)) : s'.Late n := by
  induction h with
  | refl => exact .early hn
  | own h e ih => exact ih.act (h.proper hs) (h.stays hs hoff) e
  | beneath h stays spares ih =>
    cases ih with
    | early phase => exact .early phase
    | refused phase closed begun =>
      exact .refused phase (stays closed) fun hb => spares _ closed (begun hb)
    | closed phase => exact .closed phase
    | aborted phase => exact .aborted phase
    | parts asks body => exact .parts asks body

omit [ClosesForGood L] in
/-- What ends a session disconnects it. -/
theorem Proper.cut (h : s.Proper) (hcut : s.Cut) : s.isConnected = false := by
  rw [isConnected_eq_false]
  cases hcut with
  | reader ended => exact .inl (h.shut (.inl ended))
  | link closed => exact .inr closed
  | @disconnect d asks begun => exact .inl (h.shut (.inr ⟨d, _, asks, rfl, begun⟩))

/-- A call that comes too late and has something to send can only have ended with the session. -/
theorem Late.result (hlate : s.Late n) {ask : Ask} (hask : s.ask? n = some ask)
    (hbody : ask.body?.isSome = true) {r : Except SessionError Answer}
    (hr : s.phase? n = some (.ended r)) : r = .error .closed := by
  cases hlate with
  | early phase =>
    rw [hr] at phase
    exact phase.elim
  | refused phase | aborted phase => cases hr.symm.trans phase
  | closed phase =>
    cases hr.symm.trans phase
    rfl
  | parts asks body =>
    obtain rfl := Option.some.inj (asks.symm.trans hask)
    rw [body] at hbody
    cases hbody

/-- **Calls after the end of the connection.** Whatever ends a session disconnects it, and once
it is disconnected it stays so, whatever happens on this side and below. A call for a packet,
a reply or memory that had not claimed the next reply by then can only end with the session,
and all its moves put nothing on the wire, count nothing, and leave nothing in the slot when
it returns. -/
theorem turned_away {link : L} {settings : SessionSettings}
    (hs : (start link settings).LeadsTo s) :
    (s.Cut → s.isConnected = false) ∧
    (s.isConnected = false → ∀ s', s.LeadsTo s' → s'.isConnected = false ∧
      ∀ n ask, Early (s.phase? n) → s'.ask? n = some ask → ask.body?.isSome = true →
        (∀ r, s'.phase? n = some (.ended r) → r = .error .closed) ∧
        (s'.callReady n = true → s'.Fruitless n)) := by
  have hproper := hs.proper (proper_start link settings)
  refine ⟨hproper.cut, fun hoff s' h => ⟨h.stays hproper hoff, fun n ask hn hask hbody => ?_⟩⟩
  have hlate := h.late hproper hoff hn
  exact ⟨fun r hr => hlate.result hask hbody hr, fun hr =>
    (hlate.moves (h.proper hproper) (h.stays hproper hoff) hr hask hbody).2⟩

end Late

/-! ### A link that closes before anybody notices -/

/-- A call is issued, and the link closes below the session before anybody has moved. -/
def severed : Session ScriptLink :=
  { (start ({} : ScriptLink) {}).issue (.packet "a" "") with link := ({} : ScriptLink).close }

/-- The rendezvous is still open, and the call claims the next reply. -/
def misled : Session ScriptLink := [.move (.call 0), .move (.call 0)].foldl act severed

/-- Its frame is refused: the call ends with the session, and its claim is taken back. -/
theorem turned_away_misled : severed.isConnected = false ∧ misled.rendezvous.slot = some 0 ∧
    misled.Fruitless 0 ∧ (misled.moveCall 0).isConnected = false ∧
    (misled.moveCall 0).phase? 0 = some (.ended (.error .closed)) ∧
    (misled.moveCall 0).rendezvous.slot = none := by
  have hissued : (start ({} : ScriptLink) {}).LeadsTo
      ((start ({} : ScriptLink) {}).act (.issue (.packet "a" ""))) := LeadsTo.refl.own _
  have hs : (start ({} : ScriptLink) {}).LeadsTo severed :=
    hissued.beneath (fun _ => rfl) fun _ _ => id
  obtain ⟨hcut, haway⟩ := turned_away hs
  have hoff : severed.isConnected = false := hcut (.link rfl)
  have hmisled : severed.LeadsTo misled :=
    (LeadsTo.refl.own (.move (.call 0))).own (.move (.call 0))
  have hready : misled.callReady 0 = true := by rfl
  have hover : (misled.moveCall 0).phase? 0 = some (.ended (.error .closed)) := by rfl
  obtain ⟨-, hcalls⟩ := haway hoff misled hmisled
  have hfruitless : misled.Fruitless 0 := (hcalls 0 _ trivial rfl rfl).2 hready
  have hends : (misled.act (.move (.call 0))).isConnected = false :=
    (haway hoff _ (hmisled.own (.move (.call 0)))).1
  rw [act_call hready] at hends
  exact ⟨hoff, by rfl, hfruitless, hends, hover, hfruitless.slot _ hover⟩

end Session

end ProbeLink
