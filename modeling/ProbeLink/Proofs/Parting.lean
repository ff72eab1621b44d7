/-
# How calls end with the session

Whoever ends a session closes the rendezvous first. From then on no call gets anything new:
a call that has a reply in its channel answers it, a call that waits or stands in line ends
with the session, and a write that is under way goes through, is refused or fails because
the far end is gone (`Session.Parting`, kept by everything).

When nobody can move any more every call is over, with one exception: a write that is
stuck in a full pipe, which nobody reads, holds the line before the link and with it the
first call in line and all calls behind it (`Session.Clogged`, `Session.ends_at_parting`).
Shutting the link down does not reach that write, because it waits in the same line, and the
call never returns (`Session.stuck_at_parting`).

Key definitions: `Link.Keeps`, `Link.KeptBy`, `Session.Parting`, `Session.Parts`, `Session.Clogged`.
Key theorems: `Session.link_act`, `Session.Parting.act`, `Session.Laid.stuck`,
`Session.ends_at_parting`.
-/
import ProbeLink.Proofs.Dialogue
import ProbeLink.Proofs.Provenance
import ProbeLink.Proofs.Wire

namespace ProbeLink

/-! ### What the operations of a link keep -/

/-- Every operation of the link keeps a property of it. -/
structure Link.Keeps {L : Type} [Link L] (Q : L → Prop) : Prop where
  beginRead : ∀ l a, Q l → Q (Link.beginRead l a).1
  resumeRead : ∀ l a, Q l → Q (Link.resumeRead l a).1
  beginWrite : ∀ l a bytes, Q l → Q (Link.beginWrite l a bytes).1
  resumeWrite : ∀ l a, Q l → Q (Link.resumeWrite l a).1
  beginShutdown : ∀ l a, Q l → Q (Link.beginShutdown l a).1
  resumeShutdown : ∀ l a, Q l → Q (Link.resumeShutdown l a).1
  cancel : ∀ l a, Q l → Q (Link.cancel l a)
  close : ∀ l, Q l → Q (Link.close l)
  helperMove : ∀ l a, Q l → Q (Link.helperMove l a)

/-- The operations of agents of one kind keep a property of the link, and so do a close and
what moves below. -/
structure Link.KeptBy {L : Type} [Link L] (who : Agent → Prop) (Q : L → Prop) : Prop where
  beginRead : ∀ l a, who a → Q l → Q (Link.beginRead l a).1
  resumeRead : ∀ l a, who a → Q l → Q (Link.resumeRead l a).1
  beginWrite : ∀ l a bytes, who a → Q l → Q (Link.beginWrite l a bytes).1
  resumeWrite : ∀ l a, who a → Q l → Q (Link.resumeWrite l a).1
  beginShutdown : ∀ l a, who a → Q l → Q (Link.beginShutdown l a).1
  resumeShutdown : ∀ l a, who a → Q l → Q (Link.resumeShutdown l a).1
  cancel : ∀ l a, who a → Q l → Q (Link.cancel l a)
  close : ∀ l, Q l → Q (Link.close l)
  helperMove : ∀ l a, Q l → Q (Link.helperMove l a)

theorem Link.Keeps.keptBy {L : Type} [Link L] {Q : L → Prop} (h : Link.Keeps Q)
    (who : Agent → Prop) : Link.KeptBy who Q :=
  ⟨fun l a _ => h.beginRead l a, fun l a _ => h.resumeRead l a,
    fun l a bytes _ => h.beginWrite l a bytes, fun l a _ => h.resumeWrite l a,
    fun l a _ => h.beginShutdown l a, fun l a _ => h.resumeShutdown l a,
    fun l a _ => h.cancel l a, h.close, h.helperMove⟩

section Keeping

variable {L : Type} [Link L] {who : Agent → Prop} {Q : L → Prop}

theorem Outlet.link_move (hQ : Link.KeptBy who Q) (w : Outlet) {l : L} (h : Q l) {a : Agent}
    (ha : who a) : Q (w.move l a).2.1 := by
  have hafter : ∀ (v : Outlet) (r : L × Progress Unit), Q r.1 → Q (v.after a r).2.1 := by
    intro v r hr
    rw [(v.after_line a r).1]
    exact hr
  unfold move
  split
  · exact hafter _ _ (hQ.resumeWrite l a ha h)
  · exact hafter _ _ (hQ.beginWrite l a _ ha h)
  · exact hafter _ _ (hQ.beginWrite l a _ ha h)
  · split
    · exact hafter _ _ (hQ.beginWrite l a _ ha h)
    · exact h
  · exact h

namespace Session

variable {s : Session L}

theorem link_closeIfForgotten (hQ : Link.KeptBy who Q) (h : Q s.link) :
    Q s.closeIfForgotten.link := by
  unfold closeIfForgotten
  split
  · exact h
  · exact hQ.close _ h

theorem link_finish (hQ : Link.KeptBy who Q) (h : Q s.link) (n : ℕ)
    (result : Except SessionError Answer) : Q (s.finish n result).link :=
  link_closeIfForgotten hQ h

theorem link_join (hQ : Link.KeptBy who Q) (h : Q s.link) (n : ℕ) : Q (s.join n).link := by
  unfold join
  split
  · exact h
  · exact link_finish hQ h n _

theorem link_endReader (hQ : Link.KeptBy who Q) (h : Q s.link) (hwho : who .reader)
    (result : Except SessionError Unit) : Q (s.endReader result).link := by
  have hbegun := hQ.beginShutdown _ .reader hwho h
  simp only [endReader]
  split <;> rename_i heq <;> rw [heq] at hbegun <;> exact hbegun

theorem link_moveReader (hQ : Link.KeptBy who Q) (h : Q s.link) (hwho : who .reader) :
    Q s.moveReader.link := by
  have hread : ∀ r : L × Progress UInt8, Q r.1 → Q (s.afterRead r).link := by
    rintro ⟨l, _ | (e | b)⟩ hr
    · exact hr
    · exact link_endReader hQ (by exact hr) hwho _
    · obtain ⟨-, -, hlink, -⟩ := takeByte_facts ({ s with link := l } : Session L) b
      have hbyte : Q (({ s with link := l } : Session L).takeByte b).link := by
        rw [hlink]
        exact hr
      exact hbyte
  have hwrite := s.outlet.link_move hQ h hwho
  unfold moveReader
  split
  · exact hread _ (hQ.beginRead _ _ hwho h)
  · exact hread _ (hQ.resumeRead _ _ hwho h)
  · generalize s.outlet.move s.link .reader = q at hwrite
    obtain ⟨w, l, _ | (e | _)⟩ := q
    · exact hwrite
    · exact link_endReader hQ (by exact hwrite) hwho _
    · exact hwrite
  · generalize s.outlet.move s.link .reader = q at hwrite
    obtain ⟨w, l, _ | (e | (_ | _))⟩ := q
    · exact hwrite
    · exact link_endReader hQ (by exact hwrite) hwho _
    · exact hwrite
    · exact hwrite
  · have hshut := hQ.resumeShutdown _ .reader hwho h
    split <;> rename_i heq <;> rw [heq] at hshut <;> exact hshut
  · exact h

theorem link_moveCall (hQ : Link.KeptBy who Q) (h : Q s.link) {n : ℕ} (hwho : who (.call n)) :
    Q (s.moveCall n).link := by
  unfold moveCall
  split
  · exact h
  · rename_i c hc
    obtain ⟨ask, phase⟩ := c
    cases phase with
    | issued =>
      simp only [windDown]
      have hbegun := hQ.beginShutdown _ (.call n) hwho h
      repeat' split
      · exact h
      · rename_i heq
        rw [heq] at hbegun
        exact hbegun
      · rename_i heq
        rw [heq] at hbegun
        exact link_join hQ (by exact hbegun) n
    | queued =>
      simp only [claim]
      repeat' split
      · exact link_finish hQ (by exact h) n _
      · exact h
      · exact h
    | sending t =>
      have hwrite := s.outlet.link_move hQ h hwho
      simp only
      generalize s.outlet.move s.link (.call n) = q at hwrite
      obtain ⟨w, l, _ | (e | _)⟩ := q
      · exact hwrite
      · exact link_finish hQ (by exact hwrite) n _
      · exact hwrite
    | awaiting t d =>
      simp only [collect]
      split
      · exact link_finish hQ (by exact h) n _
      · exact link_finish hQ (by exact h) n _
      · exact link_finish hQ (by exact h) n _
    | shutting d =>
      have hshut := hQ.resumeShutdown _ (.call n) hwho h
      simp only [moveShutdown]
      repeat' split
      · rename_i heq
        rw [heq] at hshut
        exact hshut
      · rename_i heq
        rw [heq] at hshut
        exact link_join hQ (by exact hshut) n
      · exact link_join hQ (by exact hQ.close _ (hQ.cancel _ _ hwho h)) n
    | joining d => exact link_finish hQ h n _
    | ended r => exact h
    | aborted => exact h

theorem link_abort (hQ : Link.KeptBy who Q) (h : Q s.link) {n : ℕ} (hwho : who (.call n)) :
    Q (s.abort n).link := by
  unfold abort
  split
  · exact h
  · rename_i c hc
    split
    · have hgone : Q (s.withdraw n c.phase).link := by
        cases c.phase with
        | sending t =>
          simp only [withdraw, Outlet.leave]
          split
          · exact hQ.cancel _ _ hwho h
          · exact h
        | shutting d => exact hQ.cancel _ _ hwho h
        | issued | queued | awaiting | joining | ended | aborted => exact h
      exact link_closeIfForgotten hQ (by exact hgone)
    · exact h

/-- Whose operations an event can come to: those of whoever moves or is given up. -/
def Event.agent? : Event → Option Agent
  | .move a => some a
  | .abort n => some (.call n)
  | _ => none

/-- **What the operations of an agent keep**, everything that it does keeps. -/
theorem link_act_by (hQ : Link.KeptBy who Q) (h : Q s.link) (e : Event)
    (hwho : ∀ a, e.agent? = some a → who a) : Q (s.act e).link := by
  cases e with
  | move a =>
    simp only [act]
    split
    · cases a with
      | reader => exact link_moveReader hQ h (hwho _ rfl)
      | call n => exact link_moveCall hQ h (hwho _ rfl)
      | release | porter | chance | farWriter | farReader => exact hQ.helperMove _ _ h
    · exact h
  | abort n => exact link_abort hQ h (hwho _ rfl)
  | letGo => exact link_closeIfForgotten hQ (by exact h)
  | issue | advance | takeQueue | queue => exact h

/-- **What every operation of the link keeps, everything keeps.** -/
theorem link_act (hQ : Link.Keeps Q) (h : Q s.link) (e : Event) : Q (s.act e).link :=
  link_act_by (hQ.keptBy fun _ => True) h e fun _ _ => trivial

end Session

end Keeping

/-- A far end that is gone stays away. -/
theorem StreamLink.keeps_gone : Link.Keeps fun l : StreamLink Pipe => l.port.gone = true where
  beginRead l a h := by
    simp only [Link.beginRead, beginRead]
    split <;> exact h
  resumeRead l a h := by
    obtain ⟨p, buffered, hlink, -, hgone, -⟩ := l.resumeRead_writes_nothing a
    show (l.resumeRead a).1.port.gone = true
    rw [hlink]
    exact hgone.trans h
  beginWrite l a bytes h := by
    simp only [Link.beginWrite, beginWrite]
    split <;> exact h
  resumeWrite l a h := by
    simp only [Link.resumeWrite, resumeWrite, Port.flush, Port.write, Pipe.write, h, if_true]
    repeat' split
    · show (l.release.leave a).port.gone = true
      unfold release
      split <;> exact h
    all_goals exact h
  beginShutdown l a h := h
  resumeShutdown l a h := by
    obtain ⟨p, half, hlink, -, hgone⟩ := l.resumeShutdown_writes_nothing a
    show (l.resumeShutdown a).1.port.gone = true
    rw [hlink]
    exact hgone.trans h
  cancel l a h := h
  close l h := by
    obtain ⟨isClosed, half, hclose⟩ := l.close_writes_nothing
    show l.close.port.gone = true
    rw [hclose]
    exact h
  helperMove l a h := by
    simp only [Link.helperMove, helperMove]
    split
    · exact h
    · exact h
    · exact (l.port.taken_helperMove a).2.trans h

namespace Session

variable {s s' : Session (StreamLink Pipe)} {torn : List Bytes}

theorem gone_does (d : Doing) (h : s'.link.port.gone = true) :
    (s'.does d).link.port.gone = true := by
  cases d with
  | own e => exact link_act StreamLink.keeps_gone h e
  | far d => exact (s'.link.port.taken_does d).2 h

/-! ### What becomes of a call -/

/-- How call `n`, which asks for `ask`, has ended when the end of the session began in `s`:
as it had before, with a reply that was in its channel, with the session, or because the far
end is gone. -/
inductive Parts (s s' : Session (StreamLink Pipe)) (n : ℕ) (ask : Ask) :
    Except SessionError Answer → Prop where
  | before {r : Except SessionError Answer} (phase : s.phase? n = some (.ended r)) :
      Parts s s' n ask r
  | answered {t : ℕ} {p : Packet} (ticket : s.ticket? n = some t)
      (full : s.rendezvous.channel t = .full p) :
      Parts s s' n ask (ask.answer s.settings.verifyReplies p)
  | closed : Parts s s' n ask (.error .closed)
  | broken (gone : s'.link.port.gone = true) : Parts s s' n ask (.error (.link (.io .brokenPipe)))

theorem Parts.does {n : ℕ} {ask : Ask} {r : Except SessionError Answer} (h : s.Parts s' n ask r)
    (d : Doing) : s.Parts (s'.does d) n ask r := by
  cases h with
  | before phase => exact .before phase
  | answered ticket full => exact .answered ticket full
  | closed => exact .closed
  | broken gone => exact .broken (gone_does d gone)

/-- The end of the session has begun in `s`: the rendezvous is closed and empty, nobody has a
ticket or finds a reply who had not then, and calls end as they are to. -/
structure Parting (s s' : Session (StreamLink Pipe)) : Prop where
  inTurn : s'.InTurn
  closed : s'.rendezvous.closed = true
  slot : s'.rendezvous.slot = none
  settings : s'.settings = s.settings
  tickets : ∀ n t, s'.ticket? n = some t → s.ticket? n = some t ∧
    ∀ p, s'.rendezvous.channel t = .full p → s.rendezvous.channel t = .full p
  ended : ∀ n ask r, s'.ask? n = some ask → ask.body?.isSome = true →
    s'.phase? n = some (.ended r) → s.Parts s' n ask r

/-- Nobody waits for a reply with nothing in hand. -/
theorem Parting.outcome (h : s.Parting s') {n t : ℕ} (ht : s'.ticket? n = some t) :
    (s'.rendezvous.channel t).outcome ≠ none := by
  have howned := h.inTurn.owned n t ht
  have hopen : s'.rendezvous.channel t ≠ .opened := by
    intro ho
    have hslot := h.inTurn.tidy.opened t ho
    rw [h.slot] at hslot
    cases hslot
  cases hch : s'.rendezvous.channel t with
  | opened => exact absurd hch hopen
  | abandoned => exact absurd hch howned
  | full | hungUp => nofun

/-- Whoever disconnects begins the end of the session. -/
theorem parting_begins (h : s.InTurn) {d : ℕ} (hd : s.phase? d = some .issued)
    (hask : s.ask? d = some .disconnect) :
    s.Parting (s.does (.own (.move (.call d)))) := by
  have hc := call_of_ask hd hask
  have hready : s.callReady d = true := by simp only [callReady, hc]
  have hmove : s.does (.own (.move (.call d))) = s.windDown d := by
    rw [does, act_call hready]
    simp only [moveCall, hc, Ask.body?]
  have hinTurn : (s.windDown d).InTurn := hmove ▸ h.act (.move (.call d))
  have hself : (s.windDown d).phase? d = some (.shutting (s.now + windDownMs)) :=
    phase?_setPhase_self (by exact hd) _
  have hother : ∀ n ≠ d, (s.windDown d).phase? n = s.phase? n := fun n hn =>
    phase?_setPhase_ne _ hn.symm _
  rw [hmove]
  refine ⟨hinTurn, rfl, s.rendezvous.slot_clear, rfl, fun n t ht => ?_, fun n ask r _ _ hr => ?_⟩
  · have hn : n ≠ d := by
      rintro rfl
      rw [ticket?, hself] at ht
      cases ht
    rw [ticket?, hother n hn] at ht
    refine ⟨ht, fun p hp => ?_⟩
    have hclosed : s.rendezvous.close.channel t = .full p := hp
    rw [Rendezvous.channel_close, Rendezvous.channel_clear] at hclosed
    split at hclosed
    · cases hclosed
    · exact hclosed
  · have hn : n ≠ d := by
      rintro rfl
      rw [hself] at hr
      cases hr
    exact .before ((hother n hn).symm.trans hr)

/-- A move of a call leaves its ticket and what is in its channel alone, as long as the call
keeps the ticket. -/
theorem Parting.kept_move (h : s.Parting s') {n t : ℕ} (hready : s'.callReady n = true)
    (ht : (s'.moveCall n).ticket? n = some t) :
    s'.ticket? n = some t ∧ (s'.moveCall n).rendezvous = s'.rendezvous := by
  obtain ⟨o, ho⟩ := phase?_of_callReady hready
  obtain ⟨φ, hφ, hcomes⟩ := comes_moveCall ho
  have hφt : φ.ticket? = some t := by
    rw [ticket?, hφ] at ht
    exact ht
  rcases hcomes.ticket hφt with ⟨hold, hsame⟩ | ⟨-, hclaim⟩
  · exact ⟨hold, hsame⟩
  · rw [Rendezvous.claim_of_closed _ h.closed] at hclaim
    cases congrArg Prod.snd hclaim

/-- Nobody gets a ticket, and what is in the channel of a ticket stays there as long as the
call keeps it. -/
theorem Parting.kept (h : s.Parting s') (e : Event) {n t : ℕ}
    (ht : (s'.act e).ticket? n = some t) :
    s'.ticket? n = some t ∧ (s'.act e).rendezvous.channel t = s'.rendezvous.channel t := by
  by_cases hmove : e = .move (.call n)
  · subst hmove
    by_cases hready : s'.callReady n = true
    · rw [act_call hready] at ht ⊢
      obtain ⟨hold, hsame⟩ := h.kept_move hready ht
      exact ⟨hold, by rw [hsame]⟩
    · rw [act_of_not_ready hready] at ht ⊢
      exact ⟨ht, rfl⟩
  · rcases phase?_act s' e n with hsame | ⟨-, hissued⟩ | ⟨-, -, haborted⟩ | ⟨hno, -⟩
    · have hold : s'.ticket? n = some t := by
        rw [ticket?, hsame] at ht
        exact ht
      obtain ⟨-, -, hchannel⟩ := (handled_act s' e).over h.closed h.slot
      refine ⟨hold, hchannel t fun htouch => ?_⟩
      -- whoever touches the ticket has it, and would be this call
      cases e with
      | move a =>
        cases a with
        | call k => exact hmove (by rw [h.inTurn.alone hold htouch])
        | reader | release | porter | chance | farWriter | farReader => exact htouch
      | abort k =>
        obtain rfl := h.inTurn.alone hold htouch
        obtain ⟨o, ho, hot⟩ := Option.bind_eq_some_iff.mp hold
        have hlive : o.isLive = true := by cases o <;> first | rfl | cases hot
        have haborted : (s'.act (.abort n)).phase? n = some .aborted := (abort_facts ho hlive).1
        rw [ticket?, haborted] at ht
        cases ht
      | issue | advance | takeQueue | queue | letGo => exact htouch
    · rw [ticket?, hissued] at ht
      cases ht
    · rw [ticket?, haborted] at ht
      cases ht
    · exact absurd hno hmove

/-- A write that fails was refused by a closed link, or the far end is gone. -/
theorem Laid.fails (h : s'.Laid torn) {n t : ℕ} {e : LinkError}
    (ho : s'.phase? n = some (.sending t)) (hready : s'.callReady n = true)
    (hfails : (s'.outlet.move s'.link (.call n)).2.2 = some (.error e)) :
    e = .closed ∨ e = .io .brokenPipe ∧ (s'.moveCall n).link.port.gone = true := by
  have hno : ¬s'.Shuts (.call n) := by simp only [Shuts, ho, not_false_eq_true]
  have hspeaks :=
    Outlet.Laid.move h (s'.spoken torn) (ready_of_sending ho hready) (by rintro ⟨⟩) hno
  rw [moveCall_of_sending ho]
  generalize s'.outlet.move s'.link (.call n) = q at hspeaks hfails
  cases hspeaks with
  | on laid => cases hfails
  | @ends w l p laid why =>
    obtain rfl : p = .error e := Option.some.inj hfails
    refine (why e rfl).imp_right fun hgone => ⟨hgone.1, ?_⟩
    exact link_finish (StreamLink.keeps_gone.keptBy fun _ => True) (by exact hgone.2) n _

/-- A call that ends now ends as it is to. -/
theorem Parting.ends (h : s.Parting s') (hlaid : s'.Laid torn) {n : ℕ} {ask : Ask}
    {r : Except SessionError Answer} (hready : s'.callReady n = true) (hask : s'.ask? n = some ask)
    (hbody : ask.body?.isSome = true) (how : s'.Ends n r) : s.Parts (s'.moveCall n) n ask r := by
  cases how with
  | @answered ask' t d p call full =>
    have hphase : s'.phase? n = some (.awaiting t d) := phase?_of_call call
    have hticket : s'.ticket? n = some t := by rw [ticket?, hphase]; rfl
    obtain rfl : ask' = ask := by
      rw [ask?, call, Option.map_some] at hask
      exact Option.some.inj hask
    obtain ⟨hold, hfull⟩ := h.tickets n t hticket
    rw [h.settings]
    exact .answered hold (hfull p full)
  | hungUp => exact .closed
  | @timedOut t d phase empty =>
    have hticket : s'.ticket? n = some t := by rw [ticket?, phase]; rfl
    exact absurd empty (h.outcome hticket)
  | refused => exact .closed
  | failed phase fails =>
    rcases hlaid.fails phase hready fails with rfl | ⟨rfl, hgone⟩
    · exact .closed
    · exact .broken hgone
  | parted departs =>
    rw [h.inTurn.departs n ask departs hask] at hbody
    cases hbody

/-- **Whatever happens on this side** lets calls end as they are to. -/
theorem Parting.act (h : s.Parting s') (hlaid : s'.Laid torn) (e : Event) :
    s.Parting (s'.act e) := by
  obtain ⟨hclosed, hslot, -⟩ := (handled_act s' e).over h.closed h.slot
  refine ⟨h.inTurn.act e, hclosed, hslot, (act_reads s' e).1.trans h.settings, fun n t ht => ?_,
    fun n ask r ha hbody hr => ?_⟩
  · obtain ⟨hold, hsame⟩ := h.kept e ht
    obtain ⟨hticket, hfull⟩ := h.tickets n t hold
    exact ⟨hticket, fun p hp => hfull p (hsame ▸ hp)⟩
  · have hask : ∀ o, s'.phase? n = some o → s'.ask? n = some ask := by
      intro o ho
      obtain ⟨ask', -, hask'⟩ := phase?_eq_some ho
      rw [hask', ← ask?_act e hask', ha]
    rcases phase?_act s' e n with hsame | ⟨-, hissued⟩ | ⟨-, -, haborted⟩ | ⟨rfl, hready, hact⟩
    · rw [hsame] at hr
      exact (h.ended n ask r (hask _ hr) hbody hr).does (.own e)
    · rw [hissued] at hr
      cases hr
    · rw [haborted] at hr
      cases hr
    · obtain ⟨o, ho⟩ := phase?_of_callReady hready
      obtain ⟨φ, hφ, hcomes⟩ := comes_moveCall ho
      rw [hact] at hr ⊢
      rw [hφ] at hr
      cases hr
      cases hcomes with
      | stays phase _ =>
        have hstays := (h.ended n ask r (hask _ phase) hbody phase).does (.own (.move (.call n)))
        rwa [does, hact] at hstays
      | ends how => exact h.ends hlaid hready (hask o ho) hbody how

/-- **Whatever happens on either side** lets calls end as they are to. -/
theorem Parting.does (h : s.Parting s') (hlaid : s'.Laid torn) (d : Doing) :
    s.Parting (s'.does d) := by
  cases d with
  | own e => exact h.act hlaid e
  | far d =>
    exact ⟨h.inTurn.link _, h.closed, h.slot, h.settings, h.tickets,
      fun n ask r ha hbody hr => (h.ended n ask r ha hbody hr).does (.far d)⟩

theorem Parting.throughout (h : s.Parting s') (hlaid : s'.Laid torn) (ds : List Doing) :
    s.Parting (s'.throughout ds) := by
  induction ds generalizing s' torn with
  | nil => exact h
  | cons d ds ih => exact ih (h.does hlaid d) (hlaid.does d)

end Session

/-! ### When nobody can move -/

/-- A full pipe that the far end, still there, does not read is stalled, or holds nothing. -/
theorem Pipe.unread_of_full {p : Pipe} (hgone : p.gone = false)
    (hfull : p.capacity ≤ p.outbound.length) (hreads : p.farCanRead = false) :
    p.stalled = true ∨ p.capacity = 0 := by
  cases hstalled : p.stalled with
  | true => exact .inl rfl
  | false =>
    have hnil : p.outbound = [] := by
      by_contra hne
      simp [farCanRead, hgone, hstalled, hne] at hreads
    rw [hnil] at hfull
    exact .inr (Nat.le_zero.mp hfull)

/-- What cannot go on before a pipe is a write that has begun and finds no room. -/
theorem StreamLink.full_of_not_canWork {l : StreamLink Pipe} {job : Job}
    (h : l.canWork job = false) : (∃ b rest, job = .write (b :: rest) true) ∧
      l.port.gone = false ∧ l.port.capacity ≤ l.port.outbound.length := by
  unfold canWork at h
  split at h
  · simp only [Port.canWrite, Pipe.canWrite, Bool.or_eq_false_iff, decide_eq_false_iff_not,
      Nat.not_lt] at h
    exact ⟨⟨_, _, rfl⟩, h⟩
  · cases h

namespace Session

variable {s s' : Session (StreamLink Pipe)} {torn : List Bytes}

/-- A write is stuck: it is the first in line for the write half, the pipe is full, and the
far end is there and does not read. -/
structure Clogged (s : Session (StreamLink Pipe)) : Prop where
  stuck : ∃ a b rest others, s.link.writers = (a, .write (b :: rest) true) :: others
  here : s.link.port.gone = false
  full : s.link.port.capacity ≤ s.link.port.outbound.length
  unread : s.link.port.stalled = true ∨ s.link.port.capacity = 0

theorem link_not_ready (hrest : Interplay.AtRest s) {a : Agent} (hshuts : s.Shuts a) :
    s.link.ready a = false := by
  cases a with
  | reader =>
    have hreader : s.readerReady = false := hrest .reader
    simp only [Shuts] at hshuts
    unfold readerReady at hreader
    split at hshuts
    · rename_i hclosing
      rwa [hclosing] at hreader
    · exact hshuts.elim
  | call n =>
    have hcall : s.callReady n = false := hrest (.call n)
    simp only [Shuts] at hshuts
    split at hshuts
    · rename_i d hphase
      obtain ⟨ask, hc, -⟩ := phase?_eq_some hphase
      simp only [callReady, hc, Bool.or_eq_false_iff] at hcall
      exact hcall.1
    · exact hshuts.elim
  | release | porter | chance | farWriter | farReader => exact hshuts.elim

/-- **Whoever wants to write when nobody can move** is held up by a write that is stuck. -/
theorem Laid.stuck (h : s.Laid torn) (hrest : Interplay.AtRest s) {a : Agent} {o : Outgoing}
    (hwants : s.wants a = some o) : s.Clogged := by
  have hserves := Outlet.Laid.serves h
  obtain ⟨pieces, put, hplaces, -⟩ := Outlet.Laid.places h
  obtain ⟨e₀, he₀, -⟩ := (hserves.wants a o).mp hwants
  obtain ⟨⟨first, what, begun⟩, r, hline⟩ := List.exists_cons_of_ne_nil (List.ne_nil_of_mem he₀)
  rw [hline] at hserves
  have hnot := outlet_not_ready hrest hserves.head
  -- its turn has come, or it could begin
  obtain rfl : begun = true := by
    cases begun with
    | true => rfl
    | false => simp [Outlet.ready, hline] at hnot
  obtain ⟨rest, turn, hone, -⟩ := hplaces.busy _ (by rw [hline]; rfl) rfl
  obtain ⟨⟨b, job⟩, others, hwriters⟩ : ∃ w others, s.link.writers = w :: others := by
    refine List.exists_cons_of_ne_nil fun hnil => ?_
    rw [StreamLink.writing, hnil] at hone
    cases hone
  -- whoever is first in line below cannot go on, so it writes into a full pipe
  have hwork : s.link.canWork job = false := by
    refine Bool.eq_false_iff.mpr fun hwork => ?_
    have hready : s.link.ready b = true := by
      simp [StreamLink.ready, hwriters, hwork]
    cases job with
    | shutdown =>
      have hshuts := h.shutting b (by rw [hwriters]; exact List.mem_cons_self)
      rw [link_not_ready hrest hshuts] at hready
      cases hready
    | write rest' turn' =>
      have hcons : s.link.writing = (b, rest', turn') :: others.filterMap StreamLink.write? := by
        rw [StreamLink.writing, hwriters]
        rfl
      obtain rfl : b = first := congrArg Prod.fst (List.cons.inj (hcons.symm.trans hone)).1
      simp [Outlet.ready, hline, Link.ready, hready] at hnot
  obtain ⟨⟨c, left, rfl⟩, hgone, hfull⟩ := StreamLink.full_of_not_canWork hwork
  have hreads : s.link.port.farCanRead = false := hrest .farReader
  exact ⟨⟨_, _, _, _, hwriters⟩, hgone, hfull, Pipe.unread_of_full hgone hfull hreads⟩

/-- Only a call whose write is held up is still under way when nobody can move. -/
theorem Parting.pending (h : s.Parting s') (hlaid : s'.Laid torn) (hrest : Interplay.AtRest s')
    {n : ℕ} {ask : Ask} {φ : CallPhase} (hphase : s'.phase? n = some φ) (hlive : φ.isLive = true)
    (hask : s'.ask? n = some ask) (hbody : ask.body?.isSome = true) :
    n ∈ s'.commandLine ∧ s'.Clogged := by
  -- nobody waits for a reply any more
  have hwaits : ∀ k t d, s'.phase? k ≠ some (.awaiting t d) := by
    intro k t d hk
    obtain ⟨ask', hc, -⟩ := phase?_eq_some hk
    have hcall : s'.callReady k = false := hrest (.call k)
    simp only [callReady, hc, Bool.or_eq_false_iff, bne_eq_false_iff_eq] at hcall
    have hsome := h.outcome (n := k) (t := t) (by rw [ticket?, hk]; rfl)
    rw [hcall.1] at hsome
    exact hsome rfl
  have hin : n ∈ s'.commandLine := by
    rw [h.inTurn.line, hphase]
    have hdeparts : ¬s'.Departs n := by
      intro hd
      rw [h.inTurn.departs n ask hd hask] at hbody
      cases hbody
    obtain ⟨ask', hc, -⟩ := phase?_eq_some hphase
    have hcall : s'.callReady n = false := hrest (.call n)
    cases φ with
    | issued => simp only [callReady, hc, Bool.true_eq_false] at hcall
    | queued | sending | awaiting => trivial
    | shutting | joining =>
      refine absurd ?_ hdeparts
      rw [Departs, hphase]
      trivial
    | ended | aborted => cases hlive
  refine ⟨hin, ?_⟩
  obtain ⟨k, others, hline⟩ := List.exists_cons_of_ne_nil (List.ne_nil_of_mem hin)
  have hk : CallPhase.InLine (s'.phase? k) :=
    (h.inTurn.line k).mp (by rw [hline]; exact List.mem_cons_self)
  obtain ⟨o, ho⟩ : ∃ o, s'.phase? k = some o := by
    cases ho : s'.phase? k with
    | none => rw [ho] at hk; exact hk.elim
    | some o => exact ⟨o, rfl⟩
  obtain ⟨ask', hc, hask'⟩ := phase?_eq_some ho
  have hcall : s'.callReady k = false := hrest (.call k)
  cases o with
  | queued => simp [callReady, hc, hline] at hcall
  | awaiting t d => exact absurd ho (hwaits k t d)
  | sending t =>
    obtain ⟨body, hb⟩ := Option.isSome_iff_exists.mp (h.inTurn.sends k ask' hk hask')
    have hwants : s'.wants (.call k) = some (.frame (commandFrame body.1 body.2)) := by
      simp only [wants, ho, frame?, hc, hb, Option.bind_some, Option.map_some]
    exact hlaid.stuck hrest hwants
  | issued | shutting | joining | ended | aborted =>
    rw [ho] at hk
    exact hk.elim

/-- A session on a pipe, after anything has happened on both sides. -/
def Reached (s : Session (StreamLink Pipe)) : Prop :=
  ∃ capacity settings ds, (onPipe capacity settings).throughout ds = s

theorem InTurn.throughout (h : s.InTurn) (ds : List Doing) : (s.throughout ds).InTurn := by
  induction ds generalizing s with
  | nil => exact h
  | cons d ds ih =>
    cases d with
    | own e => exact ih (h.act e)
    | far d => exact ih (h.link _)

/-- **How calls end with the session.** A disconnect begins in `s`, and whatever happens then
on both sides, in `s'` nobody can move. Then every call that sends something was given up, or
has ended: as it had before, with a reply that it had been handed before, with the session,
or because the far end is gone. It is still under way only if a write is stuck in a full pipe
that nobody reads, which holds up the whole line of calls. -/
theorem ends_at_parting {s s' : Session (StreamLink Pipe)} (hs : s.Reached) {d : ℕ}
    (hd : s.phase? d = some .issued) (hask : s.ask? d = some .disconnect) {ds : List Doing}
    (hs' : s.throughout (.own (.move (.call d)) :: ds) = s') (hrest : Interplay.AtRest s')
    (n : ℕ) (ask : Ask) (hn : s'.ask? n = some ask) (hbody : ask.body?.isSome = true) :
    s'.phase? n = some .aborted ∨
      (∃ r, s'.phase? n = some (.ended r) ∧ s.Parts s' n ask r) ∨
      (∃ φ, s'.phase? n = some φ ∧ φ.isLive = true) ∧ n ∈ s'.commandLine ∧ s'.Clogged := by
  obtain ⟨capacity, settings, before, rfl⟩ := hs
  have hstart := (laid_onPipe capacity settings).throughout before
  have hinTurn :=
    (inTurn_start ({ port := { capacity } } : StreamLink Pipe) settings).throughout before
  have hbegins := parting_begins hinTurn hd hask
  have hbegun := hstart.does (.own (.move (.call d)))
  have hlaid := hbegun.throughout ds
  rw [show (Session.does _ _).throughout ds = s' from hs'] at hlaid
  have hparting : ((onPipe capacity settings).throughout before).Parting s' :=
    hs' ▸ hbegins.throughout hbegun ds
  obtain ⟨⟨ask', φ⟩, hc, rfl⟩ := Option.map_eq_some_iff.mp hn
  have hphase : s'.phase? n = some φ := phase?_of_call hc
  cases φ with
  | aborted => exact .inl hphase
  | ended r => exact .inr (.inl ⟨r, hphase, hparting.ended n ask' r hn hbody hphase⟩)
  | issued | queued | sending | awaiting | shutting | joining =>
    exact .inr (.inr ⟨⟨_, hphase, rfl⟩, hparting.pending hlaid hrest hphase rfl hn hbody⟩)

/-! ### Two sessions that end -/

/-- Two calls and a disconnect are issued. The first call has written its frame, its reply has
been read, and the second call waits behind it. -/
def replied : Session (StreamLink Pipe) :=
  (onPipe 64 {}).throughout ([.packet "a" "", .packet "b" "", .disconnect].map
      (fun ask => .own (.issue ask)) ++ List.replicate 6 (.own (.move (.call 0)))
    ++ [.own (.move (.call 1)), .far (.offer (Packet.sealed .reply []).encode),
      .own (.move .farWriter)] ++ List.replicate 8 (.own (.move .reader)))

/-- The session is ended, and everybody moves as long as they can. -/
def departed : Session (StreamLink Pipe) :=
  replied.throughout ([.call 2, .call 0, .call 1, .reader, .call 2, .reader, .call 2,
    .farReader].map fun a => .own (.move a))

/-- Both calls are over: the first with the reply that it had been handed, the second with
the session. -/
theorem ends_at_parting_departed : Interplay.AtRest departed ∧
    departed.phase? 2 = some (.ended (.ok .disconnected)) ∧
    (departed.phase? 0 = some (.ended (.ok (.packet (.sealed .reply [])))) ∧
      replied.Parts departed 0 (.packet "a" "") (.ok (.packet (.sealed .reply [])))) ∧
    departed.phase? 1 = some (.ended (.error .closed)) ∧
      replied.Parts departed 1 (.packet "b" "") (.error .closed) := by
  have hreached : replied.Reached := ⟨_, _, _, rfl⟩
  -- the runs are short enough to be computed
  have hissued : replied.phase? 2 = some .issued := by rfl
  have hask : replied.ask? 2 = some .disconnect := by rfl
  have hdeparted : replied.throughout (.own (.move (.call 2)) :: _) = departed := rfl
  have hrest : Interplay.AtRest departed := by decide +kernel
  have hfirst : departed.phase? 0 = some (.ended (.ok (.packet (.sealed .reply [])))) := by rfl
  have hsecond : departed.phase? 1 = some (.ended (.error .closed)) := by rfl
  have hparts : ∀ n ask r, departed.ask? n = some ask → ask.body?.isSome = true →
      departed.phase? n = some (.ended r) → replied.Parts departed n ask r := by
    intro n ask r hn hbody hr
    rcases ends_at_parting hreached hissued hask hdeparted hrest n ask hn hbody with
      haborted | ⟨r', hr', hparts⟩ | ⟨⟨φ, hφ, hlive⟩, -⟩
    · rw [hr] at haborted
      cases haborted
    · rw [hr] at hr'
      cases hr'
      exact hparts
    · rw [hr] at hφ
      cases hφ
      cases hlive
  exact ⟨hrest, by rfl, ⟨hfirst, hparts 0 _ _ (by rfl) rfl hfirst⟩, hsecond,
    hparts 1 _ _ (by rfl) rfl hsecond⟩

/-- A frame of five bytes is being written to a pipe that holds four, and nobody reads. A
disconnect is issued. -/
def halfWritten : Session (StreamLink Pipe) :=
  (onPipe 4 {}).throughout ([.far .stall, .own (.issue (.packet "a" "")), .own (.issue .disconnect)]
    ++ List.replicate 5 (.own (.move (.call 0))))

/-- The session is ended, and the time is over for each of the two ends that the disconnect
waits for. -/
def abandoned : Session (StreamLink Pipe) :=
  halfWritten.throughout [.own (.move (.call 1)), .own (.move .reader),
    .own (.advance windDownMs), .own (.move (.call 1)), .own (.advance windDownMs),
    .own (.move (.call 1))]

/-- The disconnect has returned and nobody can move, and the call that was under way before
is still writing. -/
theorem stuck_at_parting : halfWritten.phase? 0 = some (.sending 0) ∧
    halfWritten.phase? 1 = some .issued ∧ halfWritten.ask? 1 = some .disconnect ∧
    abandoned.phase? 1 = some (.ended (.ok .disconnected)) ∧ Interplay.AtRest abandoned ∧
    abandoned.phase? 0 = some (.sending 0) := by
  have hrest : Interplay.AtRest abandoned := by decide +kernel
  exact ⟨by rfl, by rfl, by rfl, by rfl, hrest, by rfl⟩

end Session

end ProbeLink
