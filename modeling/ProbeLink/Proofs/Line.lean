/-
# The line of calls

Calls that want to command stand in line, and the first in line has the right to
command until it returns. What a step can do to the line and to the slot is said once
(`Session.Shift`): nothing, one more call gets in line, the first in line has a ticket
now, or it returns. Whoever returns takes its own ticket out of the slot, whichever way
it ends (`Session.shift_moveCall`).

The line before the link is another one: calls stand there with their frames, and the
reading agent with what it writes (`Session.outlet_moveReader`,
`Session.outlet_moveCall`).

Key definitions: `Rendezvous.Ebbs`, `Session.Shift`, `Session.Quiet`, `Session.Owned`.
Key theorems: `Session.quiet_moveReader`, `Session.shift_moveCall`,
`Outlet.move_first`.
-/
import ProbeLink.Proofs.Tickets

namespace ProbeLink

/-! ### The slot -/

namespace Rendezvous

/-- Nothing was brought to the ticket in the slot. -/
def Fresh (m : Rendezvous) : Prop := ∀ t, m.slot = some t → (m.channel t).outcome = none

/-- The slot stays as it is or is emptied, and nothing is brought to its ticket. -/
def Ebbs (m m' : Rendezvous) : Prop :=
  ∀ t, m'.slot = some t → m.slot = some t ∧
    ((m.channel t).outcome = none → (m'.channel t).outcome = none)

variable {m m' m'' : Rendezvous}

theorem Ebbs.refl (m : Rendezvous) : m.Ebbs m := fun _ h => ⟨h, id⟩

theorem Ebbs.trans (h : m.Ebbs m') (k : m'.Ebbs m'') : m.Ebbs m'' := by
  intro t hs
  obtain ⟨hs, hk⟩ := k t hs
  obtain ⟨hs, hh⟩ := h t hs
  exact ⟨hs, fun ho => hk (hh ho)⟩

theorem Ebbs.fresh (h : m.Ebbs m') (hm : m.Fresh) : m'.Fresh :=
  fun t hs => (h t hs).2 (hm t (h t hs).1)

theorem ebbs_of_empty (h : m'.slot = none) : m.Ebbs m' := by
  intro t hs
  rw [h] at hs
  cases hs

theorem ebbs_offer (m : Rendezvous) (p : Packet) : m.Ebbs (m.offer p).1 :=
  ebbs_of_empty (m.offer_slot p)

theorem ebbs_close (m : Rendezvous) : m.Ebbs m.close := ebbs_of_empty m.slot_clear

theorem ebbs_withdraw (m : Rendezvous) (t : ℕ) : m.Ebbs (m.withdraw t) := by
  unfold withdraw
  split
  · exact ebbs_of_empty m.slot_clear
  · exact .refl m

theorem ebbs_abandon (m : Rendezvous) (t : ℕ) : m.Ebbs (m.abandon t) := by
  intro k hs
  refine ⟨hs, fun ho => ?_⟩
  rw [channel_abandon]
  split
  · rfl
  · exact ho

end Rendezvous

/-! ### Places in the line -/

namespace CallPhase

/-- The ticket of a call that has claimed a reply and has not returned. -/
def ticket? : CallPhase → Option ℕ
  | .sending t | .awaiting t _ => some t
  | _ => none

/-- The call stands in line for the right to command, or has it. -/
def InLine : Option CallPhase → Prop
  | some .queued | some (.sending _) | some (.awaiting _ _) => True
  | _ => False

/-- The call stays as it is, or has nothing to do with the line. -/
def Aside (o o' : Option CallPhase) : Prop :=
  o' = o ∨ ¬InLine o ∧ ¬InLine o' ∧ (∀ r, o ≠ some (.ended r)) ∧ ¬Early o'

/-- A call in line that is past its claim has a ticket. -/
theorem ticket_of_inLine {o : Option CallPhase} (hin : InLine o) (hlate : ¬Early o) :
    ∃ t, o.bind ticket? = some t := by
  cases o with
  | none => exact hin.elim
  | some φ =>
    cases φ with
    | sending t | awaiting t d => exact ⟨t, rfl⟩
    | queued => exact absurd trivial hlate
    | _ => exact hin.elim

theorem inLine_of_ticket {o : Option CallPhase} {t : ℕ} (h : o.bind ticket? = some t) :
    InLine o := by
  cases o with
  | none => cases h
  | some φ => cases φ <;> first | exact trivial | cases h

end CallPhase

/-! ### The line before the link -/

/-- **A move of the first in line** lets its turn come or takes it out of the line. Only
the turn of a frame changes which frame is kept. -/
theorem Outlet.move_first {L : Type} [Link L] {w : Outlet} (l : L) {a : Agent} {e : Entry}
    {r : List Entry} (hw : w.line = e :: r) (ha : e.agent = a) :
    ((w.move l a).2.2 = none ∧ (w.move l a).1.line = { e with begun := true } :: r ∨
      (w.move l a).2.2 ≠ none ∧ (w.move l a).1.line = r.filter fun e => e.agent ≠ a) ∧
    (w.move l a).1.last = match e.outgoing, e.begun with
      | .frame bytes, false => some bytes
      | _, _ => w.last := by
  obtain ⟨agent, outgoing, begun⟩ := e
  subst ha
  have hafter : ∀ (v : Outlet) (q : L × Progress Unit), v.line = ⟨agent, outgoing, true⟩ :: r →
      ((v.after agent q).2.2 = none ∧ (v.after agent q).1.line = ⟨agent, outgoing, true⟩ :: r ∨
        (v.after agent q).2.2 ≠ none ∧
          (v.after agent q).1.line = r.filter fun e => e.agent ≠ agent) ∧
      (v.after agent q).1.last = v.last := by
    rintro v ⟨l, _ | (e | _)⟩ hv
    · exact ⟨.inl ⟨rfl, hv⟩, rfl⟩
    · refine ⟨.inr ⟨by rintro ⟨⟩, ?_⟩, rfl⟩
      simp [after, without, hv]
    · refine ⟨.inr ⟨by rintro ⟨⟩, ?_⟩, rfl⟩
      simp [after, without, hv]
  have hbegin : w.begin.line = ⟨agent, outgoing, true⟩ :: r := by simp only [begin, hw]
  have hlast : w.begin.last = w.last := by
    simp only [begin, hw]
  cases begun with
  | true =>
    simp only [move, hw]
    cases outgoing <;> exact hafter w _ hw
  | false =>
    cases outgoing with
    | frame bytes =>
      simp only [move, hw]
      exact hafter { w.begin with last := some bytes } _ hbegin
    | ack =>
      simp only [move, hw]
      rw [← hlast]
      exact hafter w.begin _ hbegin
    | again =>
      simp only [move, hw]
      cases hl : w.last with
      | some bytes =>
        simp only
        rw [← hl, ← hlast]
        exact hafter w.begin _ hbegin
      | none =>
        refine ⟨.inr ⟨by rintro ⟨⟩, ?_⟩, hl⟩
        simp [without, hw]

namespace Session

open CallPhase

section Line

variable {L : Type}

/-- The ticket of call `n`, if it has claimed a reply and has not returned. -/
def ticket? (s : Session L) (n : ℕ) : Option ℕ := (s.phase? n).bind CallPhase.ticket?

/-- The call that gets in line by the next move of an agent. -/
def asking (s : Session L) : Agent → List ℕ
  | .call n => match s.calls[n]? with
    | some ⟨ask, .issued⟩ => if ask.body?.isSome then [n] else []
    | _ => []
  | _ => []

/-- What a step can do to the line and to the slot, and who gets in line. -/
inductive Shift (s s' : Session L) : List ℕ → Prop where
  | still (line : s'.commandLine = s.commandLine) (slot : s.rendezvous.Ebbs s'.rendezvous)
      (calls : ∀ n, Aside (s.phase? n) (s'.phase? n)) : Shift s s' []
  | asks (n : ℕ) (phase : s.phase? n = some .issued) (phase' : s'.phase? n = some .queued)
      (line : s'.commandLine = s.commandLine ++ [n]) (slot : s'.rendezvous = s.rendezvous)
      (calls : ∀ k ≠ n, s'.phase? k = s.phase? k) : Shift s s' [n]
  | commands (n t : ℕ) (first : s.commandLine.head? = some n) (ticket : s'.ticket? n = some t)
      (line : s'.commandLine = s.commandLine)
      (slot : s.phase? n = some .queued ∧ s'.rendezvous.slot = some t ∧
          s'.rendezvous.channel t = .opened ∨
        s.phase? n = some (.sending t) ∧ s'.rendezvous = s.rendezvous)
      (calls : ∀ k ≠ n, s'.phase? k = s.phase? k) : Shift s s' []
  | returns (n : ℕ) (r : Except SessionError Answer) (first : s.commandLine.head? = some n)
      (phase' : s'.phase? n = some (.ended r)) (line : s'.commandLine = s.commandLine.erase n)
      (slot : s.rendezvous.Ebbs s'.rendezvous)
      (gone : ∀ t, s.ticket? n = some t → s'.rendezvous.slot ≠ some t)
      (calls : ∀ k ≠ n, s'.phase? k = s.phase? k) : Shift s s' []

/-- Nothing is done to the calls or their line, and nothing to the slot but that it may
be emptied. -/
structure Quiet (s s' : Session L) : Prop where
  calls : s'.calls = s.calls
  line : s'.commandLine = s.commandLine
  slot : s.rendezvous.Ebbs s'.rendezvous

variable {s s' s'' : Session L}

theorem Quiet.refl (s : Session L) : Quiet s s := ⟨rfl, rfl, .refl _⟩

theorem Quiet.trans (h : Quiet s s') (k : Quiet s' s'') : Quiet s s'' :=
  ⟨k.calls.trans h.calls, k.line.trans h.line, h.slot.trans k.slot⟩

theorem phase?_of_calls (h : s'.calls = s.calls) (n : ℕ) : s'.phase? n = s.phase? n := by
  rw [phase?, h, phase?]

theorem Quiet.phase (h : Quiet s s') (n : ℕ) : s'.phase? n = s.phase? n :=
  phase?_of_calls h.calls n

theorem Quiet.shift (h : Quiet s s') : Shift s s' [] :=
  .still h.line h.slot fun n => .inl (h.phase n)

/-- A call that is in line without writing, or was, does not come to write by itself. -/
theorem Shift.not_sending {js : List ℕ} (h : Shift s s' js) {n : ℕ}
    (hn : ¬Early (s.phase? n)) (hs : ∀ t, s.phase? n ≠ some (.sending t)) :
    ¬Early (s'.phase? n) ∧ ∀ t, s'.phase? n ≠ some (.sending t) := by
  cases h with
  | still line slot calls =>
    rcases calls n with hk | ⟨-, hout, -, hearly⟩
    · rw [hk]
      exact ⟨hn, hs⟩
    · refine ⟨hearly, fun t ht => ?_⟩
      rw [ht] at hout
      exact hout trivial
  | asks k phase phase' line slot calls =>
    have hne : n ≠ k := by
      rintro rfl
      rw [phase] at hn
      exact hn trivial
    rw [calls n hne]
    exact ⟨hn, hs⟩
  | commands k t first ticket line slot calls =>
    have hne : n ≠ k := by
      rintro rfl
      rcases slot with ⟨hp, -⟩ | ⟨hp, -⟩
      · rw [hp] at hn
        exact hn trivial
      · exact hs t hp
    rw [calls n hne]
    exact ⟨hn, hs⟩
  | returns k r first phase' line slot gone calls =>
    by_cases hne : n = k
    · rw [hne, phase']
      exact ⟨id, nofun⟩
    · rw [calls n hne]
      exact ⟨hn, hs⟩

/-- What a call does on its way to the end of the session. -/
theorem shift_aside {n : ℕ} {o : CallPhase} (ho : s.phase? n = some o) (hout : ¬InLine (some o))
    (hlive : ∀ r, o ≠ .ended r) (line : s'.commandLine = s.commandLine)
    (slot : s.rendezvous.Ebbs s'.rendezvous) (hcalls : ∀ k ≠ n, s'.phase? k = s.phase? k)
    (hn : s'.phase? n = some o ∨ ¬InLine (s'.phase? n) ∧ ¬Early (s'.phase? n)) :
    Shift s s' [] := by
  refine .still line slot fun k => ?_
  by_cases hk : k = n
  · subst hk
    rw [ho]
    refine hn.imp_right fun h => ⟨hout, h.1, ?_, h.2⟩
    rintro r ⟨⟩
    exact hlive r rfl
  · exact .inl (hcalls k hk)

@[simp] theorem asks_setPhase (s : Session L) (n : ℕ) (φ : CallPhase) :
    (s.setPhase n φ).calls.map Call.ask = s.calls.map Call.ask := by
  refine List.ext_getElem? fun k => ?_
  simp only [setPhase, List.getElem?_map, List.getElem?_modify]
  cases s.calls[k]? with
  | none => rfl
  | some c => by_cases hk : n = k <;> simp [hk]

/-- The command frame of call `n`. -/
def frame? (s : Session L) (n : ℕ) : Option Bytes :=
  s.calls[n]?.bind fun c => c.ask.body?.map fun b => commandFrame b.1 b.2

/-- Frames are written by calls with a ticket, everything else by the reading agent. -/
def Owned (s : Session L) (e : Outlet.Entry) : Prop :=
  match e.outgoing with
  | .frame bytes => ∃ n t, e.agent = .call n ∧ s.phase? n = some (.sending t) ∧
      s.frame? n = some bytes
  | _ => e.agent = .reader

theorem frame?_of_calls (h : s'.calls = s.calls) (n : ℕ) : s'.frame? n = s.frame? n := by
  rw [frame?, h, frame?]

/-- Issuing a call changes no other call. -/
theorem getElem?_issue_ne (s : Session L) (ask : Ask) {n : ℕ} (hn : n ≠ s.calls.length) :
    (s.issue ask).calls[n]? = s.calls[n]? := by
  rw [issue]
  rcases Nat.lt_or_gt_of_ne hn with hlt | hlt
  · rw [List.getElem?_append_left hlt]
  · have hlength : (s.calls ++ [({ ask } : Call)]).length ≤ n := by
      rw [List.length_append, List.length_singleton]
      exact hlt
    rw [List.getElem?_eq_none hlength, List.getElem?_eq_none hlt.le]

theorem frame?_issue_ne (s : Session L) (ask : Ask) {n : ℕ} (hn : n ≠ s.calls.length) :
    (s.issue ask).frame? n = s.frame? n := by
  rw [frame?, getElem?_issue_ne s ask hn, frame?]

/-- An entry stays owned as long as its call is to write it. -/
theorem Owned.mono {e : Outlet.Entry} (h : s.Owned e)
    (hkeep : ∀ n t, e.agent = .call n → s.phase? n = some (.sending t) →
      (∃ t', s'.phase? n = some (.sending t')) ∧ s'.frame? n = s.frame? n) : s'.Owned e := by
  unfold Owned at h ⊢
  split at h
  · obtain ⟨n, t, ha, hp, hf⟩ := h
    obtain ⟨⟨t', hp'⟩, hframe⟩ := hkeep n t ha hp
    exact ⟨n, t', ha, hp', hframe.trans hf⟩
  · exact h

/-- Whose an entry is does not depend on whether its writing has begun. -/
theorem Owned.begun {e : Outlet.Entry} (h : s.Owned e) : s.Owned { e with begun := true } := by
  unfold Owned at h ⊢
  exact h

/-- The entry of a call is its frame. -/
theorem Owned.frame {e : Outlet.Entry} {n : ℕ} (h : s.Owned e) (ha : e.agent = .call n) :
    ∃ bytes, e.outgoing = .frame bytes ∧ s.frame? n = some bytes := by
  unfold Owned at h
  split at h
  · rename_i bytes hout
    obtain ⟨k, t, hk, -, hf⟩ := h
    obtain rfl : n = k := Agent.call.inj (ha.symm.trans hk)
    exact ⟨bytes, hout, hf⟩
  · cases ha.symm.trans h

/-- The reading agent writes no frame of its own. -/
theorem Owned.ne_frame {e : Outlet.Entry} (h : s.Owned e) (ha : e.agent = .reader)
    (bytes : Bytes) : e.outgoing ≠ .frame bytes := by
  intro hf
  simp only [Owned, hf, ha] at h
  obtain ⟨n, t, hn, -⟩ := h
  cases hn

theorem quiet_link (s : Session L) (w : Outlet) (l : L) :
    Quiet s { s with outlet := w, link := l } := ⟨rfl, rfl, .refl _⟩

/-! ### The reading agent -/

theorem quiet_takeByte (s : Session L) (b : UInt8) : Quiet s (s.takeByte b) := by
  refine ⟨calls_takeByte s b, ?_, ?_⟩
  · unfold takeByte
    split
    · rfl
    · simp only [route, handOver]
      repeat' split
      all_goals rfl
    · rfl
    · rfl
  · obtain ⟨-, -, -, -, hm, -⟩ := takeByte_facts s b
    rw [hm]
    cases (s.framer.push b).2.toList.filterMap Frame.reply? with
    | nil => exact .refl _
    | cons p ps =>
      refine (s.rendezvous.ebbs_offer p).trans ?_
      have hnone : ∀ (ps : List Packet) (m : Rendezvous), m.slot = none →
          (m.offerAll ps).1.slot = none := by
        intro ps
        induction ps with
        | nil => exact fun _ h => h
        | cons q qs ih => exact fun m _ => ih _ (m.offer_slot q)
      exact Rendezvous.ebbs_of_empty (hnone ps _ (s.rendezvous.offer_slot p))

end Line

section Moves

variable {L : Type} [Link L] {s : Session L}

theorem quiet_endReader (s : Session L) (result : Except SessionError Unit) :
    Quiet s (s.endReader result) := by
  refine ⟨calls_endReader s result, ?_, ?_⟩ <;> simp only [endReader] <;> split
  · rfl
  · rfl
  · exact s.rendezvous.ebbs_close
  · exact s.rendezvous.ebbs_close

theorem quiet_moveReader (s : Session L) : Quiet s s.moveReader := by
  have hread : ∀ r, Quiet s (s.afterRead r) := by
    rintro ⟨l, _ | (e | b)⟩
    · exact ⟨rfl, rfl, .refl _⟩
    · exact (s.quiet_link s.outlet l).trans (quiet_endReader _ _)
    · exact (s.quiet_link s.outlet l).trans (quiet_takeByte _ b)
  unfold moveReader
  split
  · exact hread _
  · exact hread _
  · obtain ⟨w, l, _ | (e | _)⟩ := s.outlet.move s.link .reader
    · exact ⟨rfl, rfl, .refl _⟩
    · exact (s.quiet_link w l).trans (quiet_endReader _ _)
    · exact ⟨rfl, rfl, .refl _⟩
  · obtain ⟨w, l, _ | (e | (_ | _))⟩ := s.outlet.move s.link .reader
    · exact ⟨rfl, rfl, .refl _⟩
    · exact (s.quiet_link w l).trans (quiet_endReader _ _)
    · exact ⟨rfl, rfl, .refl _⟩
    · exact ⟨rfl, rfl, .refl _⟩
  · split <;> exact ⟨rfl, rfl, .refl _⟩
  · exact .refl s

theorem quiet_closeIfForgotten (s : Session L) : Quiet s s.closeIfForgotten := by
  unfold closeIfForgotten
  split
  · exact .refl s
  · exact ⟨rfl, rfl, s.rendezvous.ebbs_close⟩

/-! ### Calls -/

theorem phase?_finish_ne (s : Session L) {n k : ℕ} (h : k ≠ n)
    (result : Except SessionError Answer) : (s.finish n result).phase? k = s.phase? k := by
  rw [finish, phase?_closeIfForgotten, phase?_setPhase_ne _ h.symm]
  rfl

/-- Whoever returns leaves the line. -/
theorem shift_finish {n : ℕ} {m : Rendezvous} {o : CallPhase} (ho : s.phase? n = some o)
    (hfirst : s.commandLine.head? = some n) (result : Except SessionError Answer)
    {c : Counters} {w : Outlet} {l : L}
    (slot : s.rendezvous.Ebbs m) (gone : ∀ t, s.ticket? n = some t → m.slot ≠ some t) :
    Shift s (({ s with rendezvous := m, counters := c, outlet := w, link := l } :
      Session L).finish n result) [] := by
  set u : Session L := { s with rendezvous := m, counters := c, outlet := w, link := l } with hu
  have hquiet := quiet_closeIfForgotten
    (({ u with commandLine := u.commandLine.erase n } : Session L).setPhase n (.ended result))
  have hebbs : m.Ebbs (u.finish n result).rendezvous := hquiet.slot
  refine .returns n result hfirst (phase?_finish (s := u) ho result) hquiet.line
    (slot.trans hebbs) ?_
    fun k hk => (u.phase?_finish_ne hk result).trans rfl
  exact fun t ht hs => gone t ht (hebbs t hs).1

theorem shift_claim {n : ℕ} (hfirst : s.commandLine.head? = some n)
    (hp : s.phase? n = some .queued) (command payload : String) :
    Shift s (s.claim n command payload) [] := by
  unfold claim
  split
  · rename_i m heq
    rw [Rendezvous.claim_eq_none heq]
    refine shift_finish hp hfirst _ (.refl _) fun t ht => ?_
    rw [ticket?, hp] at ht
    cases ht
  · rename_i m t heq
    obtain ⟨-, -, hopen⟩ := Rendezvous.claim_eq_some heq
    have hslot : m.slot = some t := by
      unfold Rendezvous.claim at heq
      split at heq <;> cases heq
      rfl
    refine .commands n t hfirst ?_ rfl (.inl ⟨hp, hslot, hopen⟩)
      fun k hk => phase?_setPhase_ne _ hk.symm _
    exact congrArg (Option.bind · CallPhase.ticket?) (phase?_setPhase_self (by exact hp) _)

theorem shift_afterSend {n t : ℕ} (hfirst : s.commandLine.head? = some n)
    (hp : s.phase? n = some (.sending t)) (r : Outlet × L × Progress Written) :
    Shift s (s.afterSend n t r) [] := by
  have hticket : ∀ k, s.ticket? n = some k → k = t := by
    intro k hk
    rw [ticket?, hp] at hk
    exact (Option.some.inj hk).symm
  obtain ⟨w, l, _ | (e | _)⟩ := r
  · exact .still rfl (.refl _) fun k => .inl rfl
  · refine shift_finish hp hfirst _
      ((s.rendezvous.ebbs_withdraw t).trans (Rendezvous.ebbs_abandon _ t)) fun k hk hs => ?_
    rw [hticket k hk] at hs
    have hout : (s.rendezvous.withdraw t).slot ≠ some t := by
      rw [Rendezvous.slot_withdraw]
      split
      · nofun
      · assumption
    exact hout hs
  · refine .commands n t hfirst ?_ rfl (.inr ⟨hp, rfl⟩)
      fun k hk => phase?_setPhase_ne _ hk.symm _
    exact congrArg (Option.bind · CallPhase.ticket?) (phase?_setPhase_self (by exact hp) _)

/-- A wait that is over leaves the slot without its ticket. -/
theorem shift_collect {n t d : ℕ} (hm : s.rendezvous.Fresh)
    (hfirst : s.commandLine.head? = some n) (hp : s.phase? n = some (.awaiting t d))
    (ask : Ask) : Shift s (s.collect n t ask) [] := by
  have hticket : ∀ k, s.ticket? n = some k → k = t := by
    intro k hk
    rw [ticket?, hp] at hk
    exact (Option.some.inj hk).symm
  -- whoever was told something is out of the slot
  have hgone : (s.rendezvous.channel t).outcome ≠ none →
      ∀ k, s.ticket? n = some k → (s.rendezvous.abandon t).slot ≠ some k := by
    intro ho k hk hs
    rw [hticket k hk] at hs
    exact ho (hm t hs)
  unfold collect
  split
  · rename_i p hfull
    exact shift_finish hp hfirst _ (s.rendezvous.ebbs_abandon t) (hgone (by rw [hfull]; nofun))
  · rename_i hhung
    exact shift_finish hp hfirst _ (s.rendezvous.ebbs_abandon t) (hgone (by rw [hhung]; nofun))
  · refine shift_finish hp hfirst _
      ((s.rendezvous.ebbs_withdraw t).trans (Rendezvous.ebbs_abandon _ t)) fun k hk hs => ?_
    rw [hticket k hk] at hs
    have hout : (s.rendezvous.withdraw t).slot ≠ some t := by
      rw [Rendezvous.slot_withdraw]
      split
      · nofun
      · assumption
    exact hout hs

/-- A call on its way to the end of the session that returns was not in line. -/
theorem shift_leave {u : Session L} {n : ℕ} {o : CallPhase} (ho : s.phase? n = some o)
    (hout : ¬InLine (some o)) (hlive : ∀ r, o ≠ .ended r) (hn : n ∉ s.commandLine)
    (hu : Quiet s u) (result : Except SessionError Answer) : Shift s (u.finish n result) [] := by
  have hphase : u.phase? n = some o := (hu.phase n).trans ho
  have hclose := quiet_closeIfForgotten
    (({ u with commandLine := u.commandLine.erase n } : Session L).setPhase n (.ended result))
  have hline : u.commandLine.erase n = s.commandLine := by
    rw [hu.line, List.erase_of_not_mem hn]
  refine shift_aside ho hout hlive (hclose.line.trans hline) (hu.slot.trans hclose.slot)
    (fun k hk => (u.phase?_finish_ne hk result).trans (hu.phase k)) (.inr ?_)
  rw [phase?_finish hphase]
  exact ⟨id, id⟩

theorem shift_join {u : Session L} {n : ℕ} {o : CallPhase} (ho : s.phase? n = some o)
    (hout : ¬InLine (some o)) (hlive : ∀ r, o ≠ .ended r) (hn : n ∉ s.commandLine)
    (hu : Quiet s u) : Shift s (u.join n) [] := by
  have hphase : u.phase? n = some o := (hu.phase n).trans ho
  unfold join
  split
  · refine shift_aside ho hout hlive hu.line hu.slot
      (fun k hk => (phase?_setPhase_ne _ hk.symm _).trans (hu.phase k)) (.inr ?_)
    rw [phase?_setPhase_self (by exact hphase)]
    exact ⟨id, id⟩
  · exact shift_leave ho hout hlive hn hu _

theorem shift_windDown {n : ℕ} (hp : s.phase? n = some .issued) (hn : n ∉ s.commandLine) :
    Shift s (s.windDown n) [] := by
  have hclose : Quiet s { s with rendezvous := s.rendezvous.close } :=
    ⟨rfl, rfl, s.rendezvous.ebbs_close⟩
  simp only [windDown]
  split <;> rename_i l _ _
  · refine shift_aside hp id (by rintro _ ⟨⟩) rfl s.rendezvous.ebbs_close
      (fun k hk => phase?_setPhase_ne _ hk.symm _) (.inr ?_)
    rw [phase?_setPhase_self (by exact hp)]
    exact ⟨id, id⟩
  · exact shift_join hp id (by rintro _ ⟨⟩) hn (hclose.trans (quiet_link _ _ l))

theorem shift_moveShutdown {n d : ℕ} (hp : s.phase? n = some (.shutting d))
    (hn : n ∉ s.commandLine) : Shift s (s.moveShutdown n) [] := by
  unfold moveShutdown
  split
  · split
    · exact (s.quiet_link s.outlet _).shift
    · exact shift_join hp id nofun hn (s.quiet_link s.outlet _)
  · exact shift_join hp id nofun hn (s.quiet_link s.outlet _)

/-- **What a move of a call does to the line and to the slot.** -/
theorem shift_moveCall {n : ℕ} (hm : s.rendezvous.Fresh)
    (hline : ∀ k, k ∈ s.commandLine ↔ InLine (s.phase? k))
    (hfirst : ∀ k t, s.ticket? k = some t → s.commandLine.head? = some k)
    (hr : s.callReady n = true) :
    Shift s (s.moveCall n) (s.asking (.call n)) := by
  unfold callReady at hr
  cases hc : s.calls[n]? with
  | none =>
    rw [hc] at hr
    cases hr
  | some c =>
    have hp : s.phase? n = some c.phase := phase?_of_call hc
    have hout : ¬InLine (some c.phase) → n ∉ s.commandLine := by
      intro h hn
      exact h (hp ▸ (hline n).mp hn)
    obtain ⟨ask, phase⟩ := c
    simp only [hc] at hr
    simp only [moveCall, asking, hc]
    cases phase with
    | issued =>
      cases hb : ask.body? with
      | some body =>
        simp only [hb, Option.isSome_some, if_true]
        exact .asks n hp (phase?_setPhase_self (by exact hp) _) rfl rfl
          fun k hk => phase?_setPhase_ne _ hk.symm _
      | none =>
        simp only [hb, Option.isSome_none]
        exact shift_windDown hp (hout id)
    | queued =>
      simp only [beq_iff_eq] at hr
      cases ask.body? with
      | some body => exact shift_claim hr hp body.1 body.2
      | none => exact (Quiet.refl s).shift
    | sending t => exact shift_afterSend (hfirst n t (by rw [ticket?, hp]; rfl)) hp _
    | awaiting t d => exact shift_collect hm (hfirst n t (by rw [ticket?, hp]; rfl)) hp ask
    | shutting d => exact shift_moveShutdown hp (hout id)
    | joining d => exact shift_leave hp id nofun (hout id) (.refl s) _
    | ended r => exact (Quiet.refl s).shift
    | aborted => exact (Quiet.refl s).shift

/-! ### What a move of a call leaves alone -/

@[simp] theorem asks_finish (s : Session L) (n : ℕ) (result : Except SessionError Answer) :
    (s.finish n result).calls.map Call.ask = s.calls.map Call.ask := by
  rw [finish, (quiet_closeIfForgotten _).calls, asks_setPhase]

@[simp] theorem outlet_closeIfForgotten (s : Session L) :
    s.closeIfForgotten.outlet = s.outlet := by
  unfold closeIfForgotten
  split <;> rfl

@[simp] theorem outlet_finish (s : Session L) (n : ℕ) (result : Except SessionError Answer) :
    (s.finish n result).outlet = s.outlet := outlet_closeIfForgotten _

@[simp] theorem asks_join (s : Session L) (n : ℕ) :
    (s.join n).calls.map Call.ask = s.calls.map Call.ask := by
  unfold join
  split <;> simp

@[simp] theorem outlet_join (s : Session L) (n : ℕ) : (s.join n).outlet = s.outlet := by
  unfold join
  split
  · rfl
  · simp

theorem phase?_join_ne (s : Session L) {n k : ℕ} (h : k ≠ n) :
    (s.join n).phase? k = s.phase? k := by
  unfold join
  split
  · exact phase?_setPhase_ne _ h.symm _
  · exact phase?_finish_ne s h _

/-- No call asks for anything else. -/
theorem asks_moveCall (s : Session L) (n : ℕ) :
    (s.moveCall n).calls.map Call.ask = s.calls.map Call.ask := by
  unfold moveCall
  split
  · rfl
  · rename_i c _
    cases c.phase with
    | issued =>
      simp only [windDown]
      repeat' split
      all_goals simp
    | queued =>
      simp only [claim]
      repeat' split
      all_goals simp
    | sending t =>
      obtain ⟨w, l, _ | (e | _)⟩ := s.outlet.move s.link (.call n) <;> simp [afterSend, count]
    | awaiting t d =>
      simp only [collect]
      split <;> simp [count]
    | shutting d =>
      simp only [moveShutdown]
      repeat' split
      all_goals simp
    | joining d => exact asks_finish s n _
    | ended r => rfl
    | aborted => rfl

/-- The other calls stay where they are. -/
theorem phase?_moveCall_ne (s : Session L) {n k : ℕ} (h : k ≠ n) :
    (s.moveCall n).phase? k = s.phase? k := by
  unfold moveCall
  split
  · rfl
  · rename_i c _
    cases c.phase with
    | issued =>
      simp only [windDown]
      split
      · exact phase?_setPhase_ne _ h.symm _
      · split
        · exact phase?_setPhase_ne _ h.symm _
        · exact phase?_join_ne _ h
    | queued =>
      simp only [claim]
      split
      · split
        · exact phase?_finish_ne _ h _
        · exact phase?_setPhase_ne _ h.symm _
      · rfl
    | sending t =>
      obtain ⟨w, l, _ | (e | _)⟩ := s.outlet.move s.link (.call n)
      · rfl
      · exact phase?_finish_ne _ h _
      · exact phase?_setPhase_ne _ h.symm _
    | awaiting t d =>
      simp only [collect]
      split <;> exact phase?_finish_ne _ h _
    | shutting d =>
      simp only [moveShutdown]
      split
      · split
        · rfl
        · exact phase?_join_ne _ h
      · exact phase?_join_ne _ h
    | joining d => exact phase?_finish_ne s h _
    | ended r => rfl
    | aborted => rfl

/-! ### Who wants to write -/

/-- A call that writes is moved on by a move of its frame. -/
theorem moveCall_of_sending {n t : ℕ} (hp : s.phase? n = some (.sending t)) :
    s.moveCall n = s.afterSend n t (s.outlet.move s.link (.call n)) := by
  obtain ⟨⟨ask, phase⟩, hc, rfl⟩ := Option.map_eq_some_iff.mp hp
  simp only [moveCall, hc]

theorem ready_of_sending {n t : ℕ} (hp : s.phase? n = some (.sending t))
    (hr : s.callReady n = true) : s.outlet.ready s.link (.call n) = true := by
  obtain ⟨⟨ask, phase⟩, hc, rfl⟩ := Option.map_eq_some_iff.mp hp
  simpa only [callReady, hc] using hr

/-- The reading agent joins the line before the link, or moves on in it. -/
theorem outlet_moveReader (hr : s.readerReady = true) : s.moveReader.outlet = s.outlet ∨
    (∃ o, (∀ bytes, o ≠ .frame bytes) ∧ s.moveReader.outlet = s.outlet.enter .reader o) ∨
    s.outlet.ready s.link .reader = true ∧
      s.moveReader.outlet = (s.outlet.move s.link .reader).1 := by
  have hend : ∀ (u : Session L) (result : Except SessionError Unit),
      (u.endReader result).outlet = u.outlet := by
    intro u result
    simp only [endReader]
    split <;> rfl
  have hread : ∀ r, (s.afterRead r).outlet = s.outlet ∨
      ∃ o, (∀ bytes, o ≠ .frame bytes) ∧ (s.afterRead r).outlet = s.outlet.enter .reader o := by
    rintro ⟨l, _ | (e | b)⟩
    · exact .inl rfl
    · exact .inl (hend _ _)
    · simp only [afterRead, takeByte]
      split
      · exact .inl rfl
      · simp only [route, handOver]
        split
        · exact .inr ⟨.ack, by rintro _ ⟨⟩, by split <;> rfl⟩
        · exact .inl rfl
      · exact .inr ⟨.again, by rintro _ ⟨⟩, rfl⟩
      · exact .inl rfl
  unfold readerReady at hr
  unfold moveReader
  split <;> rename_i hreader <;> simp only [hreader] at hr
  · exact (hread _).imp_right .inl
  · exact (hread _).imp_right .inl
  · refine .inr (.inr ⟨hr, ?_⟩)
    obtain ⟨w, l, _ | (e | _)⟩ := s.outlet.move s.link .reader
    · rfl
    · exact hend _ _
    · rfl
  · refine .inr (.inr ⟨hr, ?_⟩)
    obtain ⟨w, l, _ | (e | (_ | _))⟩ := s.outlet.move s.link .reader
    · rfl
    · exact hend _ _
    · rfl
    · rfl
  · left
    split <;> rfl
  · exact .inl rfl

/-- A call joins the line before the link when it gets a ticket. -/
theorem outlet_moveCall {n : ℕ} (hns : ∀ t, s.phase? n ≠ some (.sending t)) :
    (s.moveCall n).outlet = s.outlet ∨ ∃ t bytes,
      (s.moveCall n).phase? n = some (.sending t) ∧ s.frame? n = some bytes ∧
        (s.moveCall n).outlet = s.outlet.enter (.call n) (.frame bytes) := by
  cases hc : s.calls[n]? with
  | none => exact .inl (by simp only [moveCall, hc])
  | some c =>
    have hp : s.phase? n = some c.phase := phase?_of_call hc
    obtain ⟨ask, phase⟩ := c
    simp only [moveCall, hc]
    cases phase with
    | issued =>
      left
      simp only [windDown]
      repeat' split
      all_goals first | rfl | exact outlet_join _ n
    | queued =>
      cases hb : ask.body? with
      | none => exact .inl rfl
      | some body =>
        simp only [claim]
        split
        · exact .inl (outlet_finish _ n _)
        · refine .inr ⟨_, _, phase?_setPhase_self (by exact hp) _, ?_, rfl⟩
          simp only [frame?, hc, hb, Option.bind_some, Option.map_some]
    | sending t => exact absurd hp (hns t)
    | awaiting t d =>
      left
      simp only [collect]
      split <;> exact outlet_finish _ n _
    | shutting d =>
      left
      simp only [moveShutdown]
      repeat' split
      all_goals first | rfl | exact outlet_join _ n
    | joining d => exact .inl (outlet_finish s n _)
    | ended r => exact .inl rfl
    | aborted => exact .inl rfl

end Moves

end Session

end ProbeLink
