/-
# Who holds a ticket

Everything that happens to a session, calls being given up included, handles the
rendezvous by its five operations: packets are offered that a byte has completed, and
nobody withdraws or lets go a ticket but the call that holds it (`Rendezvous.Handled`,
`Session.handled_act`). So what each operation keeps is kept by everything: only the
ticket in the slot is open, and once the rendezvous is closed a ticket changes no more
except by its own holder.

What a move makes of the call that moves is said once as well (`Session.Comes`), with the
ways in which a call can end (`Session.Ends`). A call with a ticket is the first in line,
and the receiving end of its ticket is there (`Session.InTurn`, kept by everything).

Key definitions: `Rendezvous.Handled`, `Rendezvous.Tidy`, `Session.Event`, `Session.act`,
`Session.Ends`, `Session.Comes`, `Session.InTurn`.
Key theorems: `Session.handled_act`, `Session.comes_moveCall`, `Session.InTurn.act`.
-/
import ProbeLink.Proofs.Turns

namespace ProbeLink

/-! ### What is done with a rendezvous -/

namespace Rendezvous

/-- One rendezvous leads to another. Only packets of one kind are offered, and only
tickets of one kind are withdrawn or let go. -/
inductive Handled (offered : Packet → Prop) (mine : ℕ → Prop) (m : Rendezvous) :
    Rendezvous → Prop where
  | refl : Handled offered mine m m
  | claim {m' : Rendezvous} (h : Handled offered mine m m') : Handled offered mine m m'.claim.1
  | offer {m' : Rendezvous} {p : Packet} (h : Handled offered mine m m') (hp : offered p) :
      Handled offered mine m (m'.offer p).1
  | withdraw {m' : Rendezvous} {t : ℕ} (h : Handled offered mine m m') (ht : mine t) :
      Handled offered mine m (m'.withdraw t)
  | close {m' : Rendezvous} (h : Handled offered mine m m') : Handled offered mine m m'.close
  | abandon {m' : Rendezvous} {t : ℕ} (h : Handled offered mine m m') (ht : mine t) :
      Handled offered mine m (m'.abandon t)

/-- Nothing was brought to the ticket in the slot, no other ticket is open, and the slot is
empty once the rendezvous is closed. -/
structure Tidy (m : Rendezvous) : Prop where
  fresh : m.Fresh
  opened : ∀ t, m.channel t = .opened → m.slot = some t
  closed : m.closed = true → m.slot = none

variable {offered : Packet → Prop} {mine : ℕ → Prop} {m m' m'' : Rendezvous}

theorem Handled.trans (h : m.Handled offered mine m') (k : m'.Handled offered mine m'') :
    m.Handled offered mine m'' := by
  induction k with
  | refl => exact h
  | claim _ ih => exact ih.claim
  | offer _ hp ih => exact ih.offer hp
  | withdraw _ ht ih => exact ih.withdraw ht
  | close _ ih => exact ih.close
  | abandon _ ht ih => exact ih.abandon ht

theorem handled_offerAll {ps : List Packet} (h : ∀ p ∈ ps, offered p) :
    m.Handled offered mine (m.offerAll ps).1 := by
  induction ps generalizing m with
  | nil => exact .refl
  | cons p ps ih =>
    have hfirst : m.Handled offered mine (m.offer p).1 :=
      Handled.refl.offer (h p List.mem_cons_self)
    exact hfirst.trans (ih fun q hq => h q (List.mem_cons_of_mem p hq))

theorem channel_close (m : Rendezvous) (t : ℕ) : m.close.channel t = m.clear.channel t := rfl

/-- Emptying the slot leaves no ticket open. -/
theorem Tidy.clear_not_opened (h : m.Tidy) (t : ℕ) : m.clear.channel t ≠ .opened := by
  intro ho
  rw [channel_clear] at ho
  split at ho
  · cases ho
  · rename_i hno
    exact hno ⟨h.opened t ho, ho⟩

theorem Tidy.clear (h : m.Tidy) : m.clear.Tidy where
  fresh := (ebbs_of_empty m.slot_clear).fresh h.fresh
  opened t ho := absurd ho (h.clear_not_opened t)
  closed _ := m.slot_clear

theorem Tidy.close (h : m.Tidy) : m.close.Tidy where
  fresh := m.ebbs_close.fresh h.fresh
  opened t ho := absurd ho (h.clear_not_opened t)
  closed _ := m.slot_clear

theorem Tidy.withdraw (h : m.Tidy) (t : ℕ) : (m.withdraw t).Tidy := by
  unfold Rendezvous.withdraw
  split
  · exact h.clear
  · exact h

theorem Tidy.abandon (h : m.Tidy) (t : ℕ) : (m.abandon t).Tidy where
  fresh := (m.ebbs_abandon t).fresh h.fresh
  opened k ho := by
    rw [channel_abandon] at ho
    split at ho
    · cases ho
    · exact h.opened k ho
  closed hc := h.closed hc

theorem Tidy.offer (h : m.Tidy) (p : Packet) : (m.offer p).1.Tidy where
  fresh := (m.ebbs_offer p).fresh h.fresh
  opened t ho := by
    rw [channel_offer] at ho
    split at ho
    · cases ho
    · rename_i hno
      exact absurd ⟨h.opened t ho, ho⟩ hno
  closed _ := m.offer_slot p

theorem Tidy.claim (h : m.Tidy) : m.claim.1.Tidy := by
  cases hc : m.closed with
  | true =>
    rw [claim_of_closed m hc]
    exact h
  | false =>
    have hslot : m.claim.1.slot = some m.channels.length := by rw [claim_of_open m hc]
    have hchannel := m.channel_claim hc
    refine ⟨fun t hs => ?_, fun t ho => ?_, fun hcl => ?_⟩
    · obtain rfl : m.channels.length = t := Option.some.inj (hslot.symm.trans hs)
      rw [hchannel, if_pos rfl]
      rfl
    · rw [hchannel] at ho
      by_cases ht : t = m.channels.length
      · rw [ht]
        exact hslot
      · rw [if_neg ht] at ho
        exact absurd ho (h.clear_not_opened t)
    · have hopen : m.claim.1.closed = false := by
        rw [claim_of_open m hc]
        exact m.closed_clear.trans hc
      rw [hopen] at hcl
      cases hcl

/-- **Whatever is done keeps a rendezvous tidy.** -/
theorem Handled.tidy (h : m.Handled offered mine m') (hm : m.Tidy) : m'.Tidy := by
  induction h with
  | refl => exact hm
  | claim _ ih => exact ih.claim
  | @offer _ p _ _ ih => exact ih.offer p
  | @withdraw _ t _ _ ih => exact ih.withdraw t
  | close _ ih => exact ih.close
  | @abandon _ t _ _ ih => exact ih.abandon t

/-- A ticket is let go by its holder only. -/
theorem Handled.not_abandoned (h : m.Handled offered mine m') {t : ℕ} (ht : ¬mine t)
    (hm : m.channel t ≠ .abandoned) : m'.channel t ≠ .abandoned := by
  induction h with
  | refl => exact hm
  | @claim m' _ ih =>
    cases hc : m'.closed with
    | true => rwa [claim_of_closed m' hc]
    | false =>
      rw [m'.channel_claim hc, channel_clear]
      split
      · nofun
      · split
        · nofun
        · exact ih
  | offer _ _ ih =>
    rw [channel_offer]
    split
    · nofun
    · exact ih
  | withdraw _ _ ih =>
    rw [channel_withdraw]
    split
    · nofun
    · exact ih
  | close _ ih =>
    rw [channel_close, channel_clear]
    split
    · nofun
    · exact ih
  | @abandon m' k _ hk ih =>
    have hne : t ≠ k := by
      rintro rfl
      exact ht hk
    rw [channel_abandon, if_neg hne]
    exact ih

/-- A packet in a channel was offered. -/
theorem Handled.full (h : m.Handled offered mine m') {Q : Packet → Prop}
    (hoffered : ∀ p, offered p → Q p) (hm : ∀ t p, m.channel t = .full p → Q p) {t : ℕ}
    {p : Packet} (hp : m'.channel t = .full p) : Q p := by
  induction h generalizing t p with
  | refl => exact hm t p hp
  | @claim m' _ ih =>
    cases hc : m'.closed with
    | true =>
      rw [claim_of_closed m' hc] at hp
      exact ih hp
    | false =>
      rw [m'.channel_claim hc, channel_clear] at hp
      repeat' split at hp
      all_goals first | cases hp | exact ih hp
  | @offer m' q _ hq ih =>
    rcases offer_full hp with hold | ⟨-, rfl⟩
    · exact ih hold
    · exact hoffered p hq
  | withdraw _ _ ih =>
    rw [channel_withdraw] at hp
    split at hp
    · cases hp
    · exact ih hp
  | close _ ih =>
    rw [channel_close, channel_clear] at hp
    split at hp
    · cases hp
    · exact ih hp
  | abandon _ _ ih =>
    rw [channel_abandon] at hp
    split at hp
    · cases hp
    · exact ih hp

/-- Once it is closed and empty, a rendezvous stays so, and a ticket changes by its holder
only. -/
theorem Handled.over (h : m.Handled offered mine m') (hc : m.closed = true)
    (hs : m.slot = none) :
    m'.closed = true ∧ m'.slot = none ∧ ∀ t, ¬mine t → m'.channel t = m.channel t := by
  induction h with
  | refl => exact ⟨hc, hs, fun _ _ => rfl⟩
  | @claim m' _ ih => rwa [claim_of_closed m' ih.1]
  | @offer m' p _ _ ih =>
    obtain ⟨hc', hs', hch⟩ := ih
    refine ⟨(m'.closed_offer p).trans hc', m'.offer_slot p, fun t ht => ?_⟩
    rw [channel_offer, hs', if_neg (fun h => nomatch h.1)]
    exact hch t ht
  | @withdraw m' k _ _ ih =>
    obtain ⟨hc', hs', hch⟩ := ih
    have hsame : m'.withdraw k = m' := by rw [Rendezvous.withdraw, hs', if_neg nofun]
    rw [hsame]
    exact ⟨hc', hs', hch⟩
  | @close m' _ ih =>
    obtain ⟨hc', hs', hch⟩ := ih
    refine ⟨rfl, m'.slot_clear, fun t ht => ?_⟩
    rw [channel_close, channel_clear, hs', if_neg (fun h => nomatch h.1)]
    exact hch t ht
  | @abandon m' k _ hk ih =>
    obtain ⟨hc', hs', hch⟩ := ih
    refine ⟨hc', hs', fun t ht => ?_⟩
    have hne : t ≠ k := by
      rintro rfl
      exact ht hk
    rw [channel_abandon, if_neg hne]
    exact hch t ht

end Rendezvous

namespace Session

open CallPhase

/-! ### What can happen to a session -/

/-- What can happen on this side of the link. -/
inductive Event where
  | move (a : Agent)
  | issue (ask : Ask)
  | abort (n : ℕ)
  | advance (ms : ℕ)
  | takeQueue
  /-- Something is done with the queue of notifications. -/
  | queue (q : Notifications)
  | letGo
  deriving DecidableEq

section States

variable {L : Type}

/-- What call `n` asks for. -/
def ask? (s : Session L) (n : ℕ) : Option Ask := s.calls[n]?.map Call.ask

/-- The tickets of the call that moves or is given up. -/
def touches (s : Session L) : Event → ℕ → Prop
  | .move (.call n), t => s.ticket? n = some t
  | .abort n, t => s.ticket? n = some t
  | _, _ => False

/-- Call `n` has to do with the end of the session, and not with a reply. -/
def Departs (s : Session L) (n : ℕ) : Prop :=
  match s.phase? n with
  | some .issued => ∀ ask, s.ask? n = some ask → ask.body? = none
  | some (.shutting _) => True
  | some (.joining _) => True
  | _ => False

theorem ask?_of_call {s : Session L} {n : ℕ} {c : Call} (hc : s.calls[n]? = some c) :
    s.ask? n = some c.ask := by
  rw [ask?, hc]
  rfl

theorem phase?_eq_some {s : Session L} {n : ℕ} {o : CallPhase} (h : s.phase? n = some o) :
    ∃ ask, s.calls[n]? = some ⟨ask, o⟩ ∧ s.ask? n = some ask := by
  obtain ⟨⟨ask, phase⟩, hc, rfl⟩ := Option.map_eq_some_iff.mp h
  exact ⟨ask, hc, ask?_of_call hc⟩

theorem call_of_ask {s : Session L} {n : ℕ} {o : CallPhase} {ask : Ask} (h : s.phase? n = some o)
    (hask : s.ask? n = some ask) : s.calls[n]? = some ⟨ask, o⟩ := by
  obtain ⟨ask', hc, hask'⟩ := phase?_eq_some h
  rw [hc, Option.some.inj (hask.symm.trans hask')]

theorem ticket?_of_call {s : Session L} {n : ℕ} {c : Call} (hc : s.calls[n]? = some c) :
    s.ticket? n = c.phase.ticket? := by
  rw [ticket?, phase?_of_call hc]
  rfl

end States

/-! ### Whoever has a ticket is first in line -/

section InOrder

variable {L : Type} {s s' : Session L}

/-- The line of calls is in order, and only the first in line has a ticket. -/
structure Ordered (s : Session L) : Prop where
  nodup : s.commandLine.Nodup
  line : ∀ n, n ∈ s.commandLine ↔ InLine (s.phase? n)
  first : ∀ n t, s.ticket? n = some t → s.commandLine.head? = some n

/-- The line of calls and the rendezvous are in order, and the receiving end of every ticket
that somebody has is there. Calls in line have something to send, and calls that have to do
with the end of the session have not. -/
structure InTurn (s : Session L) : Prop extends Ordered s where
  tidy : s.rendezvous.Tidy
  owned : ∀ n t, s.ticket? n = some t → s.rendezvous.channel t ≠ .abandoned
  sends : ∀ n ask, InLine (s.phase? n) → s.ask? n = some ask → ask.body?.isSome = true
  departs : ∀ n ask, s.Departs n → s.ask? n = some ask → ask.body? = none

theorem ticket?_eq_none {n : ℕ} (h : ¬InLine (s.phase? n)) : s.ticket? n = none :=
  Option.eq_none_iff_forall_ne_some.mpr fun _ ht => h (inLine_of_ticket ht)

/-- **A step keeps the line in order.** -/
theorem Ordered.shift (h : s.Ordered) {js : List ℕ} (hs : s.Shift s' js) : s'.Ordered := by
  cases hs with
  | still line slot calls =>
    have hin : ∀ n, InLine (s'.phase? n) ↔ InLine (s.phase? n) := by
      intro n
      rcases calls n with hn | ⟨h1, h2, -⟩
      · rw [hn]
      · exact iff_of_false h2 h1
    have hticket : ∀ n, s'.ticket? n = s.ticket? n := by
      intro n
      rcases calls n with hn | ⟨h1, h2, -⟩
      · rw [ticket?, hn, ticket?]
      · rw [ticket?_eq_none h2, ticket?_eq_none h1]
    refine ⟨line ▸ h.nodup, fun n => ?_, fun n t ht => ?_⟩
    · rw [line, hin]
      exact h.line n
    · rw [line]
      exact h.first n t (hticket n ▸ ht)
  | asks n phase phase' line slot calls =>
    have hout : n ∉ s.commandLine := by
      rw [h.line, phase]
      exact id
    refine ⟨?_, fun k => ?_, fun k t ht => ?_⟩
    · rw [line, ← List.concat_eq_append]
      exact h.nodup.concat hout
    · rw [line, List.mem_append, List.mem_singleton]
      by_cases hk : k = n
      · rw [hk, phase']
        exact iff_of_true (.inr rfl) trivial
      · rw [calls k hk, ← h.line k]
        exact or_iff_left hk
    · have hk : k ≠ n := by
        rintro rfl
        rw [ticket?, phase'] at ht
        cases ht
      rw [ticket?, calls k hk] at ht
      rw [line, List.head?_append, h.first k t ht]
      rfl
  | commands n t first ticket line slot calls =>
    have hn : n ∈ s.commandLine := List.mem_of_mem_head? first
    refine ⟨line ▸ h.nodup, fun k => ?_, fun k t' ht => ?_⟩
    · rw [line]
      by_cases hk : k = n
      · rw [hk]
        exact iff_of_true hn (inLine_of_ticket ticket)
      · rw [calls k hk]
        exact h.line k
    · rw [line]
      by_cases hk : k = n
      · rw [hk]
        exact first
      · rw [ticket?, calls k hk] at ht
        exact h.first k t' ht
  | returns n r first phase' line slot gone calls =>
    have hin : ∀ k, k ∈ s'.commandLine ↔ k ≠ n ∧ k ∈ s.commandLine := by
      intro k
      rw [line]
      exact h.nodup.mem_erase_iff
    refine ⟨line ▸ h.nodup.erase n, fun k => ?_, fun k t ht => ?_⟩
    · rw [hin]
      by_cases hk : k = n
      · rw [hk, phase']
        exact iff_of_false (fun h => h.1 rfl) id
      · rw [calls k hk, ← h.line k]
        exact and_iff_right hk
    · -- nobody else had a ticket
      by_cases hk : k = n
      · rw [hk, ticket?, phase'] at ht
        cases ht
      · rw [ticket?, calls k hk] at ht
        exact absurd (Option.some.inj ((h.first k t ht).symm.trans first)) hk

/-- A call that is given up leaves the line. -/
theorem Ordered.abort (h : s.Ordered) {n : ℕ} (phase' : s'.phase? n = some .aborted)
    (line : s'.commandLine = s.commandLine.erase n)
    (calls : ∀ k ≠ n, s'.phase? k = s.phase? k) : s'.Ordered := by
  refine ⟨line ▸ h.nodup.erase n, fun k => ?_, fun k t ht => ?_⟩
  · rw [line, h.nodup.mem_erase_iff]
    by_cases hk : k = n
    · rw [hk, phase']
      exact iff_of_false (fun h => h.1 rfl) id
    · rw [calls k hk, ← h.line k]
      exact and_iff_right hk
  · have hk : k ≠ n := by
      rintro rfl
      rw [ticket?, phase'] at ht
      cases ht
    rw [ticket?, calls k hk] at ht
    obtain ⟨rest, hrest⟩ : ∃ rest, s.commandLine = k :: rest :=
      List.head?_eq_some_iff.mp (h.first k t ht)
    rw [line, hrest, List.erase_cons_tail (by simpa using hk)]
    rfl

/-- One more call is issued. -/
theorem Ordered.issue (h : s.Ordered) (ask : Ask) : (s.issue ask).Ordered := by
  have hphase := Turns.phase?_issue s ask
  have hnone : s.phase? s.calls.length = none := by
    rw [phase?, List.getElem?_eq_none (Nat.le_refl _), Option.map_none]
  refine ⟨h.nodup, fun n => (h.line n).trans ?_, fun n t ht => ?_⟩
  · by_cases hn : n = s.calls.length
    · rw [hphase, if_pos hn, hn, hnone]
      exact iff_of_false id id
    · rw [hphase, if_neg hn]
  · have hn : n ≠ s.calls.length := by
      rintro rfl
      rw [ticket?, hphase, if_pos rfl] at ht
      cases ht
    rw [ticket?, hphase, if_neg hn] at ht
    exact h.first n t ht

theorem inTurn_start (link : L) (settings : SessionSettings) : (start link settings).InTurn where
  nodup := List.nodup_nil
  line _ := iff_of_false List.not_mem_nil id
  first _ _ := nofun
  tidy := ⟨fun _ => nofun, fun _ => nofun, fun _ => rfl⟩
  owned _ _ := nofun
  sends _ _ := False.elim
  departs _ _ := False.elim

/-- Nobody has the ticket of another call. -/
theorem InTurn.alone (h : s.InTurn) {n k t t' : ℕ} (hn : s.ticket? n = some t)
    (hk : s.ticket? k = some t') : n = k :=
  Option.some.inj ((h.first n t hn).symm.trans (h.first k t' hk))

theorem ask?_of_asks {s' : Session L} (h : s'.calls.map Call.ask = s.calls.map Call.ask) (n : ℕ) :
    s'.ask? n = s.ask? n := by
  have hasks := congrArg (·[n]?) h
  simp only [List.getElem?_map] at hasks
  exact hasks

theorem departs_congr {n : ℕ} (hphase : s'.phase? n = s.phase? n) (hask : s'.ask? n = s.ask? n)
    (h : s'.Departs n) : s.Departs n := by
  unfold Departs at h ⊢
  rw [hphase] at h
  split at h
  · exact fun ask ha => h ask (hask.trans ha)
  · trivial
  · trivial
  · exact h

/-- Nothing happens to the calls and their line, and nobody's ticket is touched. -/
theorem InTurn.quiet (h : s.InTurn) (hs : s.Quiet s') {offered : Packet → Prop}
    (handled : s.rendezvous.Handled offered (fun _ => False) s'.rendezvous) : s'.InTurn := by
  have hask := ask?_of_asks (s := s) (congrArg _ hs.calls)
  have hticket : ∀ n, s'.ticket? n = s.ticket? n := fun n => by
    rw [ticket?, hs.phase, ticket?]
  refine ⟨h.toOrdered.shift hs.shift, handled.tidy h.tidy, fun n t ht => ?_, fun n ask hin ha => ?_,
    fun n ask hd ha => ?_⟩
  · exact handled.not_abandoned id (h.owned n t (hticket n ▸ ht))
  · exact h.sends n ask (hs.phase n ▸ hin) (hask n ▸ ha)
  · exact h.departs n ask (departs_congr (hs.phase n) (hask n) hd) (hask n ▸ ha)

/-- What happens to the link is nothing to the calls. -/
theorem InTurn.link (h : s.InTurn) (l : L) : ({ s with link := l } : Session L).InTurn := by
  have hrdv : s.rendezvous.Handled (fun _ => False) (fun _ => False) s.rendezvous := .refl
  exact h.quiet (s.quiet_link s.outlet l) hrdv

theorem ask?_issue_ne (s : Session L) (ask : Ask) {n : ℕ} (hn : n ≠ s.calls.length) :
    (s.issue ask).ask? n = s.ask? n := by
  rw [ask?, getElem?_issue_ne s ask hn, ask?]

/-- A call that is issued has no ticket. -/
theorem InTurn.issue (h : s.InTurn) (ask : Ask) : (s.issue ask).InTurn := by
  have hordered := h.toOrdered.issue ask
  have hphase := Turns.phase?_issue s ask
  have hsame : ∀ n ≠ s.calls.length, (s.issue ask).phase? n = s.phase? n :=
    fun n hn => (hphase n).trans (if_neg hn)
  refine ⟨hordered, h.tidy, fun n t ht => ?_, fun n a hin ha => ?_, fun n a hd ha => ?_⟩
  · have hn : n ≠ s.calls.length := by
      rintro rfl
      rw [ticket?, hphase, if_pos rfl] at ht
      cases ht
    rw [ticket?, hsame n hn] at ht
    exact h.owned n t ht
  · have hn : n ≠ s.calls.length := by
      rintro rfl
      rw [hphase, if_pos rfl] at hin
      exact hin
    exact h.sends n a (hsame n hn ▸ hin) ((ask?_issue_ne s ask hn) ▸ ha)
  · by_cases hn : n = s.calls.length
    · rw [Departs, hphase, if_pos hn] at hd
      exact hd a ha
    · exact h.departs n a (departs_congr (hsame n hn) (ask?_issue_ne s ask hn) hd)
        ((ask?_issue_ne s ask hn) ▸ ha)

end InOrder

/-! ### How the rendezvous is handled -/

variable {L : Type} [Link L]

/-- One thing happens. An agent that cannot move does nothing. -/
def act (s : Session L) : Event → Session L
  | .move a => if Interplay.ready s a then Interplay.move s a else s
  | .issue ask => s.issue ask
  | .abort n => s.abort n
  | .advance ms => s.advance ms
  | .takeQueue => s.takeQueue.1
  | .queue q => { s with notifications := q }
  | .letGo => s.letGo

/-- The replies that are offered: the one that the next byte completes. -/
def offers (s : Session L) : Event → Packet → Prop
  | .move .reader, p => ∃ b, s.nextByte = some b ∧
      p ∈ (s.framer.push b).2.toList.filterMap Frame.reply?
  | _, _ => False

variable {s s' : Session L}

/-- An agent that can move does. -/
theorem act_of_ready {a : Agent} (hr : Interplay.ready s a = true) :
    s.act (.move a) = Interplay.move s a := if_pos hr

theorem act_call {n : ℕ} (hr : s.callReady n = true) : s.act (.move (.call n)) = s.moveCall n :=
  act_of_ready hr

theorem act_reader (hr : s.readerReady = true) : s.act (.move .reader) = s.moveReader :=
  act_of_ready hr

theorem act_of_not_ready {a : Agent} (hr : ¬Interplay.ready s a = true) :
    s.act (.move a) = s := if_neg hr

section Handling

variable {offered : Packet → Prop} {mine : ℕ → Prop}

theorem handled_closeIfForgotten {u : Session L}
    (h : s.rendezvous.Handled offered mine u.rendezvous) :
    s.rendezvous.Handled offered mine u.closeIfForgotten.rendezvous := by
  unfold closeIfForgotten
  split
  · exact h
  · exact h.close

theorem handled_finish {u : Session L} (n : ℕ) (result : Except SessionError Answer)
    (h : s.rendezvous.Handled offered mine u.rendezvous) :
    s.rendezvous.Handled offered mine (u.finish n result).rendezvous :=
  handled_closeIfForgotten h

theorem handled_join {u : Session L} (n : ℕ)
    (h : s.rendezvous.Handled offered mine u.rendezvous) :
    s.rendezvous.Handled offered mine (u.join n).rendezvous := by
  unfold join
  split
  · exact h
  · exact handled_finish n _ h

theorem handled_endReader {u : Session L} (result : Except SessionError Unit)
    (h : s.rendezvous.Handled offered mine u.rendezvous) :
    s.rendezvous.Handled offered mine (u.endReader result).rendezvous := by
  simp only [endReader]
  split <;> exact h.close

/-- The reading agent offers the reply that the next byte completes. -/
theorem handled_moveReader (s : Session L) :
    s.rendezvous.Handled (s.offers (.move .reader)) mine s.moveReader.rendezvous := by
  have hread : ∀ r : L × Progress UInt8, s.nextByte = byteRead r →
      s.rendezvous.Handled (s.offers (.move .reader)) mine (s.afterRead r).rendezvous := by
    rintro ⟨l, _ | (e | b)⟩ hnext
    · exact .refl
    · exact handled_endReader _ .refl
    · obtain ⟨-, -, -, -, hm, -⟩ := takeByte_facts ({ s with link := l } : Session L) b
      have hoffers : s.rendezvous.Handled (s.offers (.move .reader)) mine
          (s.rendezvous.offerAll ((s.framer.push b).2.toList.filterMap Frame.reply?)).1 :=
        Rendezvous.handled_offerAll fun p hp => ⟨b, hnext, hp⟩
      exact hm ▸ hoffers
  unfold moveReader
  split
  · rename_i hreader
    exact hread _ (by simp only [nextByte, hreader])
  · rename_i hreader
    exact hread _ (by simp only [nextByte, hreader])
  · obtain ⟨w, l, _ | (e | _)⟩ := s.outlet.move s.link .reader
    · exact .refl
    · exact handled_endReader _ .refl
    · exact .refl
  · obtain ⟨w, l, _ | (e | (_ | _))⟩ := s.outlet.move s.link .reader
    · exact .refl
    · exact handled_endReader _ .refl
    · exact .refl
    · exact .refl
  · split <;> exact .refl
  · exact .refl

/-- A call that moves withdraws and lets go its own ticket only. -/
theorem handled_moveCall (s : Session L) (n : ℕ) :
    s.rendezvous.Handled offered (s.ticket? n = some ·) (s.moveCall n).rendezvous := by
  unfold moveCall
  split
  · exact .refl
  · rename_i c hc
    have hticket := ticket?_of_call hc
    obtain ⟨ask, phase⟩ := c
    cases phase with
    | issued =>
      simp only [windDown]
      repeat' split
      · exact .refl
      · exact Rendezvous.Handled.refl.close
      · exact handled_join n Rendezvous.Handled.refl.close
    | queued =>
      simp only
      split
      · simp only [claim]
        have hclaimed : s.rendezvous.Handled offered (s.ticket? n = some ·) s.rendezvous.claim.1 :=
          Rendezvous.Handled.refl.claim
        split <;> rename_i heq <;> rw [heq] at hclaimed
        · exact handled_finish n _ hclaimed
        · exact hclaimed
      · exact .refl
    | sending t =>
      obtain ⟨w, l, _ | (e | _)⟩ := s.outlet.move s.link (.call n)
      · exact .refl
      · exact handled_finish n _ ((Rendezvous.Handled.refl.withdraw hticket).abandon hticket)
      · exact .refl
    | awaiting t d =>
      simp only [collect]
      split
      · exact handled_finish n _ (Rendezvous.Handled.refl.abandon hticket)
      · exact handled_finish n _ (Rendezvous.Handled.refl.abandon hticket)
      · exact handled_finish n _ ((Rendezvous.Handled.refl.withdraw hticket).abandon hticket)
    | shutting d =>
      simp only [moveShutdown]
      repeat' split
      · exact .refl
      · exact handled_join n .refl
      · exact handled_join n .refl
    | joining d => exact handled_finish n _ .refl
    | ended r => exact .refl
    | aborted => exact .refl

/-- A call that is given up lets its own ticket go and withdraws nothing. -/
theorem handled_abort (s : Session L) (n : ℕ) :
    s.rendezvous.Handled offered (s.ticket? n = some ·) (s.abort n).rendezvous := by
  unfold abort
  split
  · exact .refl
  · rename_i c hc
    have hticket := ticket?_of_call hc
    split
    · have hgone : s.rendezvous.Handled offered (s.ticket? n = some ·)
          (s.withdraw n c.phase).rendezvous := by
        cases hphase : c.phase with
        | sending t | awaiting t d =>
          rw [hphase] at hticket
          exact Rendezvous.Handled.refl.abandon hticket
        | _ => exact .refl
      exact handled_closeIfForgotten hgone
    · exact .refl

end Handling

/-- **Everything handles the rendezvous by its operations.** -/
theorem handled_act (s : Session L) (e : Event) :
    s.rendezvous.Handled (s.offers e) (s.touches e) (s.act e).rendezvous := by
  cases e with
  | move a =>
    simp only [act]
    split
    · cases a with
      | reader => exact handled_moveReader s
      | call n => exact handled_moveCall s n
      | release | porter | chance | farWriter | farReader => exact .refl
    · exact .refl
  | abort n => exact handled_abort s n
  | letGo => exact handled_closeIfForgotten (u := { s with held := false }) .refl
  | issue ask | advance ms | takeQueue | queue q => exact .refl

/-! ### What a move makes of a call -/

/-- How call `n` can end by its next move. -/
inductive Ends (s : Session L) (n : ℕ) : Except SessionError Answer → Prop where
  | answered {ask : Ask} {t d : ℕ} {p : Packet} (call : s.calls[n]? = some ⟨ask, .awaiting t d⟩)
      (full : s.rendezvous.channel t = .full p) : Ends s n (ask.answer s.settings.verifyReplies p)
  | hungUp {t d : ℕ} (phase : s.phase? n = some (.awaiting t d))
      (gone : s.rendezvous.channel t = .hungUp) : Ends s n (.error .closed)
  | timedOut {t d : ℕ} (phase : s.phase? n = some (.awaiting t d))
      (empty : (s.rendezvous.channel t).outcome = none) :
      Ends s n (.error (.timeout s.settings.replyTimeoutMs))
  | refused (phase : s.phase? n = some .queued) (closed : s.rendezvous.closed = true) :
      Ends s n (.error .closed)
  | failed {t : ℕ} {e : LinkError} (phase : s.phase? n = some (.sending t))
      (fails : (s.outlet.move s.link (.call n)).2.2 = some (.error e)) :
      Ends s n (.error (if e.isClosed then .closed else .link e))
  | parted (departs : s.Departs n) : Ends s n (.ok .disconnected)

/-- What the next move of call `n` can make of it, and what becomes of the rendezvous while
it keeps its ticket. -/
inductive Comes (s : Session L) (n : ℕ) (m : Rendezvous) : CallPhase → Prop where
  | stays {o : CallPhase} (phase : s.phase? n = some o)
      (same : o.ticket? ≠ none → m = s.rendezvous) : Comes s n m o
  | asks (phase : s.phase? n = some .issued)
      (body : ∀ ask, s.ask? n = some ask → ask.body?.isSome = true) : Comes s n m .queued
  | claims {t : ℕ} (phase : s.phase? n = some .queued)
      (claim : s.rendezvous.claim = (m, some t)) : Comes s n m (.sending t)
  | sent {t d : ℕ} (phase : s.phase? n = some (.sending t)) (same : m = s.rendezvous) :
      Comes s n m (.awaiting t d)
  | shuts {d : ℕ} (departs : s.Departs n) : Comes s n m (.shutting d)
  | joins {d : ℕ} (departs : s.Departs n) : Comes s n m (.joining d)
  | ends {r : Except SessionError Answer} (how : s.Ends n r) : Comes s n m (.ended r)

/-- Whoever has done with the link waits for the reading agent, or leaves. -/
theorem join_phase {u : Session L} {n : ℕ} {o : CallPhase} (h : u.phase? n = some o) :
    (∃ d, (u.join n).phase? n = some (.joining d)) ∨
      (u.join n).phase? n = some (.ended (.ok .disconnected)) := by
  unfold join
  split
  · exact .inl ⟨_, phase?_setPhase_self (by exact h) _⟩
  · exact .inr (phase?_finish h _)

/-- A call that can move is in some phase. -/
theorem phase?_of_callReady {n : ℕ} (hr : s.callReady n = true) : ∃ o, s.phase? n = some o := by
  cases hc : s.calls[n]? with
  | none => simp [callReady, hc] at hr
  | some c => exact ⟨c.phase, phase?_of_call hc⟩

/-- A call that has to do with the end of the session and is through with the link. -/
theorem comes_join {u : Session L} {n : ℕ} {o : CallPhase} (hu : u.phase? n = some o)
    (hdeparts : s.Departs n) : ∃ φ, (u.join n).phase? n = some φ ∧ ∀ m, s.Comes n m φ := by
  rcases join_phase hu with ⟨d, hφ⟩ | hφ
  · exact ⟨_, hφ, fun m => .joins hdeparts⟩
  · exact ⟨_, hφ, fun m => .ends (.parted hdeparts)⟩

theorem comes_windDown {n : ℕ} {o : CallPhase} (h : s.phase? n = some o)
    (hdeparts : s.Departs n) : ∃ φ, (s.windDown n).phase? n = some φ ∧ ∀ m, s.Comes n m φ := by
  simp only [windDown]
  split
  · exact ⟨_, phase?_setPhase_self (by exact h) _, fun m => .shuts hdeparts⟩
  · rename_i l _ _
    exact comes_join (u := { s with rendezvous := s.rendezvous.close, link := l }) h hdeparts

theorem comes_claim {n : ℕ} (h : s.phase? n = some .queued) (command payload : String) :
    ∃ φ, (s.claim n command payload).phase? n = some φ ∧
      s.Comes n (s.claim n command payload).rendezvous φ := by
  simp only [claim]
  split
  · rename_i m heq
    have hclosed : s.rendezvous.closed = true := by
      cases hcl : s.rendezvous.closed with
      | true => rfl
      | false =>
        rw [s.rendezvous.claim_of_open hcl] at heq
        cases heq
    exact ⟨_, phase?_finish (by exact h) _, .ends (.refused h hclosed)⟩
  · rename_i m t heq
    exact ⟨_, phase?_setPhase_self (by exact h) _, .claims h heq⟩

theorem comes_afterSend {n t : ℕ} (h : s.phase? n = some (.sending t)) :
    ∃ φ, (s.afterSend n t (s.outlet.move s.link (.call n))).phase? n = some φ ∧
      s.Comes n (s.afterSend n t (s.outlet.move s.link (.call n))).rendezvous φ := by
  cases hmove : s.outlet.move s.link (.call n) with
  | mk w r =>
    obtain ⟨l, _ | (e | v)⟩ := r
    · exact ⟨_, h, .stays h fun _ => rfl⟩
    · exact ⟨_, phase?_finish (by exact h) _, .ends (.failed h (by rw [hmove]))⟩
    · exact ⟨_, phase?_setPhase_self (by exact h) _, .sent h rfl⟩

theorem comes_collect {n t d : ℕ} {ask : Ask} (hc : s.calls[n]? = some ⟨ask, .awaiting t d⟩) :
    ∃ φ, (s.collect n t ask).phase? n = some φ ∧ ∀ m, s.Comes n m φ := by
  have h : s.phase? n = some (.awaiting t d) := phase?_of_call hc
  simp only [collect]
  split
  · rename_i p hfull
    exact ⟨_, phase?_finish (by exact h) _, fun m => .ends (.answered hc hfull)⟩
  · rename_i hgone
    exact ⟨_, phase?_finish (by exact h) _, fun m => .ends (.hungUp h hgone)⟩
  · rename_i hnofull hnogone
    refine ⟨_, phase?_finish (by exact h) _, fun m => .ends (.timedOut h ?_)⟩
    cases hch : s.rendezvous.channel t with
    | full p => exact absurd hch (hnofull p)
    | hungUp => exact absurd hch hnogone
    | opened | abandoned => rfl

theorem comes_moveShutdown {n d : ℕ} (h : s.phase? n = some (.shutting d)) :
    ∃ φ, (s.moveShutdown n).phase? n = some φ ∧ ∀ m, s.Comes n m φ := by
  have hdeparts : s.Departs n := by
    rw [Departs, h]
    trivial
  simp only [moveShutdown]
  split
  · split
    · exact ⟨_, h, fun m => .stays h fun hno => absurd rfl hno⟩
    · rename_i l _ _
      exact comes_join (u := { s with link := l }) h hdeparts
  · exact comes_join (u := { s with link := Link.close (Link.cancel s.link (.call n)) }) h hdeparts

/-- **What a move makes of the call that moves.** -/
theorem comes_moveCall {n : ℕ} {o : CallPhase} (h : s.phase? n = some o) :
    ∃ φ, (s.moveCall n).phase? n = some φ ∧ s.Comes n (s.moveCall n).rendezvous φ := by
  obtain ⟨ask, hc, hask⟩ := phase?_eq_some h
  have hasks : ∀ ask', s.ask? n = some ask' → ask' = ask :=
    fun ask' h' => Option.some.inj (h'.symm.trans hask)
  simp only [moveCall, hc]
  cases o with
  | issued =>
    cases hb : ask.body? with
    | some body =>
      refine ⟨_, phase?_setPhase_self (by exact h) _, .asks h fun ask' h' => ?_⟩
      rw [hasks ask' h', hb]
      rfl
    | none =>
      have hdeparts : s.Departs n := by
        rw [Departs, h]
        intro ask' h'
        rw [hasks ask' h', hb]
      obtain ⟨φ, hφ, hcomes⟩ := comes_windDown h hdeparts
      exact ⟨φ, hφ, hcomes _⟩
  | queued =>
    cases ask.body? with
    | some body => exact comes_claim h body.1 body.2
    | none => exact ⟨_, h, .stays h fun _ => rfl⟩
  | sending t => exact comes_afterSend h
  | awaiting t d =>
    obtain ⟨φ, hφ, hcomes⟩ := comes_collect hc
    exact ⟨φ, hφ, hcomes _⟩
  | shutting d =>
    obtain ⟨φ, hφ, hcomes⟩ := comes_moveShutdown h
    exact ⟨φ, hφ, hcomes _⟩
  | joining d =>
    have hdeparts : s.Departs n := by
      rw [Departs, h]
      trivial
    exact ⟨_, phase?_finish h _, .ends (.parted hdeparts)⟩
  | ended r => exact ⟨_, h, .stays h fun _ => rfl⟩
  | aborted => exact ⟨_, h, .stays h fun _ => rfl⟩

/-! ### What is done from outside -/

/-- Taking a call away from where it waits is nothing to the calls and their line. -/
theorem withdraw_calls (s : Session L) (n : ℕ) (φ : CallPhase) :
    (s.withdraw n φ).calls = s.calls ∧ (s.withdraw n φ).commandLine = s.commandLine := by
  cases φ <;> exact ⟨rfl, rfl⟩

/-- Only a call that is under way can be given up. -/
theorem abort_of_over {n : ℕ} (h : ¬∃ o, s.phase? n = some o ∧ o.isLive = true) :
    s.abort n = s := by
  unfold abort
  split
  · rfl
  · rename_i c hc
    have hover : ¬c.phase.isLive = true := fun hlive =>
      h ⟨c.phase, phase?_of_call hc, hlive⟩
    exact if_neg hover

/-- A call that is given up leaves the line. -/
theorem abort_facts {n : ℕ} {o : CallPhase} (ho : s.phase? n = some o) (hlive : o.isLive = true) :
    (s.abort n).phase? n = some .aborted ∧ (∀ k ≠ n, (s.abort n).phase? k = s.phase? k) ∧
      (s.abort n).commandLine = s.commandLine.erase n := by
  obtain ⟨ask, hc, -⟩ := phase?_eq_some ho
  obtain ⟨hcalls, hline⟩ := withdraw_calls s n o
  have habort : s.abort n = (({ s.withdraw n o with
      commandLine := (s.withdraw n o).commandLine.erase n } : Session L).setPhase n
        .aborted).closeIfForgotten := by
    simp only [abort, hc, hlive, if_true]
  have hquiet := quiet_closeIfForgotten (({ s.withdraw n o with
      commandLine := (s.withdraw n o).commandLine.erase n } : Session L).setPhase n .aborted)
  have hphase : ∀ k, ({ s.withdraw n o with
      commandLine := (s.withdraw n o).commandLine.erase n } : Session L).phase? k = s.phase? k :=
    fun k => phase?_of_calls (s := s) hcalls k
  rw [habort]
  refine ⟨?_, fun k hk => ?_, ?_⟩
  · rw [hquiet.phase]
    exact phase?_setPhase_self ((hphase n).trans ho) _
  · rw [hquiet.phase, phase?_setPhase_ne _ hk.symm, hphase]
  · rw [hquiet.line, ← hline]
    rfl

theorem asks_abort (s : Session L) (n : ℕ) :
    (s.abort n).calls.map Call.ask = s.calls.map Call.ask := by
  unfold abort
  split
  · rfl
  · rename_i c _
    split
    · rw [(quiet_closeIfForgotten _).calls, asks_setPhase, (withdraw_calls s n c.phase).1]
    · rfl

/-- **No call asks for anything else.** -/
theorem ask?_act (e : Event) {n : ℕ} {ask : Ask} (h : s.ask? n = some ask) :
    (s.act e).ask? n = some ask := by
  cases e with
  | move a =>
    simp only [act]
    split
    · rw [← h]
      cases a with
      | reader => exact ask?_of_asks (congrArg _ (quiet_moveReader s).calls) n
      | call k => exact ask?_of_asks (asks_moveCall s k) n
      | release | porter | chance | farWriter | farReader => rfl
    · exact h
  | issue a =>
    obtain ⟨c, hc, hask⟩ := Option.map_eq_some_iff.mp h
    have hlt : n < s.calls.length := (List.getElem?_eq_some_iff.mp hc).1
    simp only [act, ask?, issue]
    rw [List.getElem?_append_left hlt]
    exact h
  | abort k => exact (ask?_of_asks (asks_abort s k) n).trans h
  | letGo =>
    have hcalls := (quiet_closeIfForgotten ({ s with held := false } : Session L)).calls
    exact (ask?_of_asks (s := s) (congrArg _ hcalls) n).trans h
  | advance ms | takeQueue | queue q => exact h

/-- **What an event makes of a call:** nothing, unless the call is issued, given up or moves. -/
theorem phase?_act (s : Session L) (e : Event) (n : ℕ) :
    (s.act e).phase? n = s.phase? n ∨
      s.phase? n = none ∧ (s.act e).phase? n = some .issued ∨
      (∃ o, s.phase? n = some o ∧ o.isLive = true) ∧ e = .abort n ∧
        (s.act e).phase? n = some .aborted ∨
      e = .move (.call n) ∧ s.callReady n = true ∧ s.act e = s.moveCall n := by
  cases e with
  | move a =>
    by_cases hr : Interplay.ready s a = true
    · rw [act_of_ready hr]
      cases a with
      | reader => exact .inl ((quiet_moveReader s).phase n)
      | call k =>
        by_cases hk : n = k
        · exact .inr (.inr (.inr ⟨hk ▸ rfl, hk ▸ hr, hk ▸ rfl⟩))
        · exact .inl (phase?_moveCall_ne s hk)
      | release | porter | chance | farWriter | farReader => exact .inl rfl
    · exact .inl (congrArg (phase? · n) (act_of_not_ready hr))
  | issue ask =>
    have hissue := Turns.phase?_issue s ask n
    by_cases hn : n = s.calls.length
    · refine .inr (.inl ⟨?_, ?_⟩)
      · rw [phase?, List.getElem?_eq_none hn.ge, Option.map_none]
      · exact hissue.trans (if_pos hn)
    · exact .inl (hissue.trans (if_neg hn))
  | abort k =>
    by_cases hlive : ∃ o, s.phase? k = some o ∧ o.isLive = true
    · obtain ⟨o, ho, hlive⟩ := hlive
      obtain ⟨hself, hother, -⟩ := abort_facts ho hlive
      by_cases hk : n = k
      · subst hk
        exact .inr (.inr (.inl ⟨⟨o, ho, hlive⟩, rfl, hself⟩))
      · exact .inl (hother n hk)
    · exact .inl (congrArg (phase? · n) (abort_of_over hlive))
  | letGo =>
    exact .inl ((quiet_closeIfForgotten ({ s with held := false } : Session L)).phase n)
  | advance ms | takeQueue | queue q => exact .inl rfl

/-- A call that is over stays so. -/
theorem ended_act {n : ℕ} {r : Except SessionError Answer} (h : s.phase? n = some (.ended r))
    (e : Event) : (s.act e).phase? n = some (.ended r) := by
  rcases phase?_act s e n with hsame | ⟨hnone, -⟩ | ⟨⟨o, ho, hlive⟩, -⟩ | ⟨-, hready, -⟩
  · rw [hsame, h]
  · rw [h] at hnone
    cases hnone
  · rw [h] at ho
    cases ho
    cases hlive
  · obtain ⟨ask, hc, -⟩ := phase?_eq_some h
    simp [callReady, hc] at hready

/-- A call that keeps its ticket leaves the rendezvous as it was, and a new ticket is open. -/
theorem Comes.ticket {n : ℕ} {m : Rendezvous} {φ : CallPhase} (h : s.Comes n m φ) {t : ℕ}
    (ht : φ.ticket? = some t) :
    s.ticket? n = some t ∧ m = s.rendezvous ∨
      s.phase? n = some .queued ∧ s.rendezvous.claim = (m, some t) := by
  cases h with
  | stays phase same =>
    refine .inl ⟨by rw [ticket?, phase]; exact ht, same ?_⟩
    rw [ht]
    rintro ⟨⟩
  | claims phase claim =>
    cases ht
    exact .inr ⟨phase, claim⟩
  | sent phase same =>
    cases ht
    exact .inl ⟨by rw [ticket?, phase]; rfl, same⟩
  | asks | shuts | joins | ends => cases ht

/-- A call stands in line only if it has something to send. -/
theorem Comes.sends {n : ℕ} {m : Rendezvous} {φ : CallPhase} (h : s.Comes n m φ)
    (hs : s.InTurn) (hin : InLine (some φ)) {ask : Ask} (ha : s.ask? n = some ask) :
    ask.body?.isSome = true := by
  cases h with
  | stays phase _ => exact hs.sends n ask (phase ▸ hin) ha
  | asks _ body => exact body ask ha
  | claims phase _ => exact hs.sends n ask (by rw [phase]; trivial) ha
  | sent phase _ => exact hs.sends n ask (by rw [phase]; trivial) ha
  | shuts | joins | ends => exact hin.elim

/-- A call has to do with the end of the session only if it has nothing to send. -/
theorem Comes.departs {n : ℕ} {m : Rendezvous} {φ : CallPhase} (h : s.Comes n m φ)
    (hs : s.InTurn) (hphase : s'.phase? n = some φ) (hask : s'.ask? n = s.ask? n)
    (hd : s'.Departs n) {ask : Ask} (ha : s.ask? n = some ask) : ask.body? = none := by
  cases h with
  | stays phase _ => exact hs.departs n ask (departs_congr (hphase.trans phase.symm) hask hd) ha
  | shuts departs => exact hs.departs n ask departs ha
  | joins departs => exact hs.departs n ask departs ha
  | asks | claims | sent | ends =>
    rw [Departs, hphase] at hd
    exact hd.elim

/-- **A move of a call keeps everything in order.** -/
theorem InTurn.moveCall (h : s.InTurn) {n : ℕ} (hr : s.callReady n = true) :
    (s.moveCall n).InTurn := by
  have hshift := shift_moveCall h.tidy.fresh h.line h.first hr
  have hhandled : s.rendezvous.Handled (fun _ => False) (s.ticket? n = some ·)
      (s.moveCall n).rendezvous := handled_moveCall s n
  have hask := ask?_of_asks (asks_moveCall s n)
  have hother : ∀ k ≠ n, (s.moveCall n).phase? k = s.phase? k := fun k hk => phase?_moveCall_ne s hk
  obtain ⟨o, ho⟩ := phase?_of_callReady hr
  obtain ⟨φ, hφ, hcomes⟩ := comes_moveCall ho
  refine ⟨h.toOrdered.shift hshift, hhandled.tidy h.tidy, fun k t ht => ?_, fun k ask hin ha => ?_,
    fun k ask hd ha => ?_⟩
  · by_cases hk : k = n
    · subst hk
      have hφt : φ.ticket? = some t := by
        rw [ticket?, hφ] at ht
        exact ht
      rcases hcomes.ticket hφt with ⟨hold, hsame⟩ | ⟨-, hclaim⟩
      · rw [hsame]
        exact h.owned k t hold
      · obtain ⟨-, -, hopen⟩ := Rendezvous.claim_eq_some hclaim
        rw [hopen]
        rintro ⟨⟩
    · rw [ticket?, hother k hk] at ht
      exact hhandled.not_abandoned (fun hn => hk (h.alone ht hn)) (h.owned k t ht)
  · by_cases hk : k = n
    · subst hk
      exact hcomes.sends h (hφ ▸ hin) (hask k ▸ ha)
    · exact h.sends k ask (hother k hk ▸ hin) (hask k ▸ ha)
  · by_cases hk : k = n
    · subst hk
      exact hcomes.departs h hφ (hask k) hd (hask k ▸ ha)
    · exact h.departs k ask (departs_congr (hother k hk) (hask k) hd) (hask k ▸ ha)

/-- A call that is given up takes its ticket with it. -/
theorem InTurn.abort (h : s.InTurn) (n : ℕ) : (s.abort n).InTurn := by
  by_cases hlive : ∃ o, s.phase? n = some o ∧ o.isLive = true
  · obtain ⟨o, ho, hlive⟩ := hlive
    obtain ⟨hself, hother, hline⟩ := abort_facts ho hlive
    have hask := ask?_of_asks (asks_abort s n)
    have hhandled : s.rendezvous.Handled (fun _ => False) (s.ticket? n = some ·)
        (s.abort n).rendezvous := handled_abort s n
    have hne : ∀ k, ((s.abort n).phase? k ≠ some .aborted) → k ≠ n := by
      rintro k hk rfl
      exact hk hself
    refine ⟨h.toOrdered.abort hself hline hother, hhandled.tidy h.tidy, fun k t ht => ?_,
      fun k ask hin ha => ?_, fun k ask hd ha => ?_⟩
    · have hk : k ≠ n := hne k fun hp => by
        rw [ticket?, hp] at ht
        cases ht
      rw [ticket?, hother k hk] at ht
      exact hhandled.not_abandoned (fun hn => hk (h.alone ht hn)) (h.owned k t ht)
    · have hk : k ≠ n := hne k fun hp => by
        rw [hp] at hin
        exact hin
      exact h.sends k ask (hother k hk ▸ hin) (hask k ▸ ha)
    · have hk : k ≠ n := hne k fun hp => by
        rw [Departs, hp] at hd
        exact hd
      exact h.departs k ask (departs_congr (hother k hk) (hask k) hd) (hask k ▸ ha)
  · rw [abort_of_over hlive]
    exact h

/-- **Whatever happens keeps everything in order.** -/
theorem InTurn.act (h : s.InTurn) (e : Event) : (s.act e).InTurn := by
  have hhandled := handled_act s e
  cases e with
  | move a =>
    by_cases hr : Interplay.ready s a = true
    · rw [act_of_ready hr] at hhandled ⊢
      cases a with
      | reader => exact h.quiet (quiet_moveReader s) hhandled
      | call n => exact h.moveCall hr
      | release | porter | chance | farWriter | farReader =>
        exact h.quiet (s.quiet_link s.outlet (Link.helperMove s.link _)) hhandled
    · rw [act_of_not_ready hr]
      exact h
  | issue ask => exact h.issue ask
  | abort n => exact h.abort n
  | letGo =>
    have hheld : s.Quiet { s with held := false } := ⟨rfl, rfl, .refl _⟩
    exact h.quiet (hheld.trans (quiet_closeIfForgotten _)) hhandled
  | advance ms => exact h.quiet ⟨rfl, rfl, .refl _⟩ hhandled
  | takeQueue => exact h.quiet ⟨rfl, rfl, .refl _⟩ hhandled
  | queue q => exact h.quiet ⟨rfl, rfl, .refl _⟩ hhandled

end Session

end ProbeLink
