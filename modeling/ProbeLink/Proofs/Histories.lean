/-
# Packets and waits in a history of events

A history is any finite list of events on a new timeline; `Timeline.after es i` is
the timeline once the first `i` of them have happened. Two things are told from the
history alone.

Packets: an offer is taken exactly when the slot holds the latest ticket and
somebody still has it. Whoever waits on that ticket, before or afterwards, gets this
packet and no other; a packet that is not taken leaves no trace
(`Timeline.delivered_once`).

Waits: a wait that ends without a packet ends hung up if another claim, a withdrawal
or the close came before its time was up, and else times out at the first moment
that reaches its deadline; a timeout never takes the slot from a later ticket, and
nothing waits once all is closed (`Timeline.waits_end`).

Both follow from what is true of a ticket as long as somebody has it: nothing
happened to it yet, or what it holds was brought by an event (`Timeline.brought_unused`,
`Timeline.story`).

Key definitions: `Timeline.after`, `Timeline.Issues`, `Timeline.Hands`,
`Timeline.Begins`, `Timeline.Lapses`, `Timeline.Overdue`, `Timeline.Returns`.
Key theorems: `Timeline.delivered_once`, `Timeline.waits_end`.
-/
import Mathlib.Data.List.Induction
import Mathlib.Order.Basic
import ProbeLink.Proofs.Tickets

namespace ProbeLink

namespace Timeline

/-! ### Histories -/

/-- The timeline once the first `i` events of a history have happened. -/
def after (es : List Event) (i : ℕ) : Timeline := ({} : Timeline).run (es.take i)

/-- What the events of a history answer. -/
def answers (es : List Event) : List Answer := es.mapIdx fun i e => ((after es i).step e).2

/-- The ticket that an answer gives. -/
def Answer.ticket? : Answer → Option ℕ
  | .ticket id => some id
  | .nothing | .refused | .taken _ | .noTicket => none

/-- The tickets that were given out, in this order. -/
def tickets (es : List Event) : List ℕ := (answers es).filterMap Answer.ticket?

/-- Somebody has the ticket: it is unused, or a wait on it goes on. -/
def Held (t : Timeline) (id : ℕ) : Prop :=
  id ∈ t.unused ∨ ∃ limit deadline, .running id limit deadline ∈ t.waits

/-- Event `i` is a claim that gets ticket `id`. -/
def Issues (es : List Event) (i id : ℕ) : Prop := (answers es)[i]? = some (.ticket id)

/-- Event `i` is an offer of `p` that is taken, and the slot is that of ticket `id`. -/
def Hands (es : List Event) (i : ℕ) (p : Packet) (id : ℕ) : Prop :=
  es[i]? = some (.offer p) ∧ (answers es)[i]? = some (.taken true) ∧
    (after es i).rendezvous.slot = some id

/-- Event `j` begins wait number `n`, on ticket `id`, for so many milliseconds. -/
def Begins (es : List Event) (j n id limit : ℕ) : Prop :=
  es[j]? = some (.await id limit) ∧ id ∈ (after es j).unused ∧ n = (after es j).waits.length

/-- Ticket `id` was given out before event `i`, and event `i` withdraws it, closes
everything, or is another claim that gets a ticket. -/
def Lapses (es : List Event) (id i : ℕ) : Prop :=
  (∃ c < i, Issues es c id) ∧
    (es[i]? = some (.withdraw id) ∨ es[i]? = some .close ∨ ∃ k, Issues es i k)

/-- The time of a wait that event `j` begins is up once `k` events have happened. -/
def Overdue (es : List Event) (j limit k : ℕ) : Prop :=
  j < k ∧ (after es j).now + limit ≤ (after es k).now

/-- Wait number `n` ends with the packet that event `i` hands to its ticket. -/
def Returns (es : List Event) (n i : ℕ) : Prop :=
  ∃ p id j limit, Hands es i p id ∧ Begins es j n id limit ∧
    (({} : Timeline).run es).waits[n]? = some (.ended (.ok p))

section Histories

variable {es : List Event}

theorem after_succ {i : ℕ} {e : Event} (h : es[i]? = some e) :
    after es (i + 1) = ((after es i).step e).1 := by
  rw [after, List.take_add_one, h, run, List.foldl_append]
  rfl

theorem after_length (es : List Event) : after es es.length = ({} : Timeline).run es := by
  rw [after, List.take_length]

theorem getElem?_answers (es : List Event) (i : ℕ) :
    (answers es)[i]? = es[i]?.map fun e => ((after es i).step e).2 := List.getElem?_mapIdx

theorem settled_after (es : List Event) : ∀ i, (after es i).Settled
  | 0 => settled_start
  | i + 1 => by
    have ih := settled_after es i
    cases h : es[i]? with
    | none =>
      have hsame : after es (i + 1) = after es i := by
        rw [after, List.take_add_one, h, Option.toList_none, List.append_nil, after]
      exact hsame ▸ ih
    | some e =>
      rw [after_succ h]
      exact ih.toSound.step e

theorem getElem?_of_lt {i : ℕ} (h : i < es.length) : ∃ e, es[i]? = some e :=
  ⟨es[i], List.getElem?_eq_getElem h⟩

/-- **What every step keeps lasts.** -/
theorem lasts {P : Timeline → Prop}
    (hstep : ∀ t : Timeline, t.Settled → ∀ e, P t → P (t.step e).1) {i k : ℕ} (hik : i ≤ k)
    (hk : k ≤ es.length) (hi : P (after es i)) : P (after es k) := by
  induction k, hik using Nat.le_induction with
  | base => exact hi
  | succ k _ ih =>
    obtain ⟨e, he⟩ := getElem?_of_lt (Nat.lt_of_succ_le hk)
    rw [after_succ he]
    exact hstep _ (settled_after es k) e (ih (Nat.le_of_succ_le hk))

/-! ### Time -/

theorem now_mono {i k : ℕ} (hik : i ≤ k) (hk : k ≤ es.length) :
    (after es i).now ≤ (after es k).now := by
  refine lasts (P := fun t => (after es i).now ≤ t.now) (fun t _ e h => ?_) hik hk le_rfl
  rw [now_step]
  exact h.trans (Nat.le_add_right _ _)

/-- Time that is up stays up. -/
theorem Overdue.mono {j limit k m : ℕ} (h : Overdue es j limit k) (hkm : k ≤ m)
    (hm : m ≤ es.length) : Overdue es j limit m :=
  ⟨h.1.trans_le hkm, h.2.trans (now_mono hkm hm)⟩

/-! ### Tickets -/

theorem length_act (t : Timeline) (e : Event) : (t.act e).1.rendezvous.channels.length
    = t.rendezvous.channels.length + ((t.act e).2.ticket?).toList.length := by
  cases e with
  | claim =>
    cases hc : t.rendezvous.closed with
    | true => simp [Timeline.act, t.rendezvous.claim_of_closed hc, Answer.ticket?]
    | false => simp [Timeline.act, t.rendezvous.claim_of_open hc, Answer.ticket?]
  | offer p => simp [Timeline.act, Answer.ticket?, t.rendezvous.offer_length p]
  | await id limit =>
    simp only [Timeline.act]
    split <;> simp [Answer.ticket?]
  | forget id =>
    simp only [Timeline.act]
    split <;> simp [Answer.ticket?, Rendezvous.abandon]
  | withdraw id => simp [Timeline.act, Answer.ticket?]
  | close => simp [Timeline.act, Answer.ticket?, Rendezvous.close]
  | advance ms => simp [Timeline.act, Answer.ticket?]
  | abort n =>
    simp only [Timeline.act]
    split <;> simp [Answer.ticket?, Rendezvous.abandon]

theorem length_step (t : Timeline) (e : Event) : (t.step e).1.rendezvous.channels.length
    = t.rendezvous.channels.length + ((t.step e).2.ticket?).toList.length :=
  ((settleWaits_frame _ _ _).2).trans (length_act t e)

/-- Only a claim gets a ticket, and its number is how many there were. -/
theorem ticket_of_step {t : Timeline} {e : Event} {id : ℕ} (h : (t.step e).2 = .ticket id) :
    e = .claim ∧ t.rendezvous.closed = false ∧ id = t.rendezvous.channels.length := by
  have hact : (t.act e).2 = .ticket id := h
  cases e with
  | claim =>
    cases hc : t.rendezvous.closed with
    | true =>
      simp only [Timeline.act, t.rendezvous.claim_of_closed hc] at hact
      cases hact
    | false =>
      simp only [Timeline.act, t.rendezvous.claim_of_open hc, Answer.ticket.injEq] at hact
      exact ⟨rfl, rfl, hact.symm⟩
  | await id limit | forget id | abort n =>
    simp only [Timeline.act] at hact
    split at hact <;> cases hact
  | offer p | withdraw id | close | advance ms => cases hact

theorem step_claim {t : Timeline} (h : t.rendezvous.closed = false) :
    (t.step .claim).2 = .ticket t.rendezvous.channels.length := by
  simp only [Timeline.step, Timeline.act, t.rendezvous.claim_of_open h]

theorem step_offer (t : Timeline) (p : Packet) :
    (t.step (.offer p)).2 = .taken (t.rendezvous.offer p).2 := rfl

theorem Issues.spec {c id : ℕ} (h : Issues es c id) : es[c]? = some .claim ∧
    (after es c).rendezvous.closed = false ∧ id = (after es c).rendezvous.channels.length := by
  rw [Issues, getElem?_answers] at h
  obtain ⟨e, he, ht⟩ := Option.map_eq_some_iff.mp h
  obtain ⟨rfl, hc, hid⟩ := ticket_of_step ht
  exact ⟨he, hc, hid⟩

theorem length_mono {i k : ℕ} (hik : i ≤ k) (hk : k ≤ es.length) :
    (after es i).rendezvous.channels.length ≤ (after es k).rendezvous.channels.length := by
  refine lasts (P := fun t => (after es i).rendezvous.channels.length
    ≤ t.rendezvous.channels.length) (fun t _ e h => ?_) hik hk le_rfl
  rw [length_step]
  exact h.trans (Nat.le_add_right _ _)

/-- The tickets given out so far are those below the next number. -/
theorem issued_iff {id k : ℕ} (hk : k ≤ es.length) :
    (∃ c < k, Issues es c id) ↔ id < (after es k).rendezvous.channels.length := by
  induction k with
  | zero => exact iff_of_false (by rintro ⟨c, hc, -⟩; omega) (Nat.not_lt_zero id)
  | succ k ih =>
    obtain ⟨e, he⟩ := getElem?_of_lt (Nat.lt_of_succ_le hk)
    have hlength := length_step (after es k) e
    have hanswer : (answers es)[k]? = some ((after es k).step e).2 := by
      rw [getElem?_answers, he, Option.map_some]
    rw [after_succ he, hlength]
    constructor
    · rintro ⟨c, hc, hissue⟩
      rcases Nat.lt_succ_iff_lt_or_eq.mp hc with hc | rfl
      · exact ((ih (Nat.le_of_succ_le hk)).mp ⟨c, hc, hissue⟩).trans_le (Nat.le_add_right _ _)
      · obtain ⟨-, -, rfl⟩ := hissue.spec
        rw [Issues, hanswer] at hissue
        rw [Option.some.inj hissue]
        exact Nat.lt_succ_self _
    · intro hlt
      by_cases hold : id < (after es k).rendezvous.channels.length
      · obtain ⟨c, hc, hissue⟩ := (ih (Nat.le_of_succ_le hk)).mpr hold
        exact ⟨c, hc.trans (Nat.lt_succ_self k), hissue⟩
      · cases hticket : ((after es k).step e).2.ticket? with
        | none =>
          rw [hticket] at hlt
          exact absurd hlt hold
        | some n =>
          have hn : ((after es k).step e).2 = .ticket n := by
            cases hans : ((after es k).step e).2 with
            | ticket m =>
              rw [hans] at hticket
              rw [Option.some.inj hticket]
            | _ => rw [hans] at hticket; cases hticket
          obtain ⟨-, -, rfl⟩ := ticket_of_step hn
          rw [hticket] at hlt
          obtain rfl : id = (after es k).rendezvous.channels.length := by
            simp only [Option.toList_some, List.length_singleton] at hlt
            omega
          exact ⟨k, Nat.lt_succ_self k, by rw [Issues, hanswer, hn]⟩

/-- The numbers of the tickets count up from zero. -/
theorem tickets_eq_range (es : List Event) :
    tickets es = List.range (({} : Timeline).run es).rendezvous.channels.length := by
  induction es using List.reverseRecOn with
  | nil => rfl
  | append_singleton es e ih =>
    have hafter : ∀ i ≤ es.length, after (es ++ [e]) i = after es i := by
      intro i hi
      rw [after, List.take_append_of_le_length hi, after]
    have hanswers : answers (es ++ [e])
        = answers es ++ [((({} : Timeline).run es).step e).2] := by
      refine List.ext_getElem? fun i => ?_
      rw [getElem?_answers]
      rcases lt_trichotomy i es.length with hi | rfl | hi
      · have hlt : i < (answers es).length := by rwa [answers, List.length_mapIdx]
        rw [List.getElem?_append_left hi, List.getElem?_append_left hlt, getElem?_answers,
          hafter i hi.le]
      · have hlength : es.length = (answers es).length := by rw [answers, List.length_mapIdx]
        rw [List.getElem?_concat_length, hafter _ le_rfl, after_length, Option.map_some, hlength,
          List.getElem?_concat_length]
      · have hout : (es ++ [e]).length ≤ i := by
          rw [List.length_append, List.length_singleton]
          exact hi
        have hout' : (answers es ++ [((({} : Timeline).run es).step e).2]).length ≤ i := by
          rw [List.length_append, answers, List.length_mapIdx, List.length_singleton]
          exact hi
        rw [List.getElem?_eq_none hout, List.getElem?_eq_none hout', Option.map_none]
    have hrun : ({} : Timeline).run (es ++ [e]) = ((({} : Timeline).run es).step e).1 := by
      simp only [run, List.foldl_append, List.foldl_cons, List.foldl_nil]
    rw [hrun, length_step, tickets, hanswers, List.filterMap_append, ← tickets, ih]
    cases hticket : ((({} : Timeline).run es).step e).2 with
    | ticket id =>
      obtain ⟨-, -, rfl⟩ := ticket_of_step hticket
      exact List.range_succ.symm
    | _ => exact List.append_nil _

/-! ### What a ticket holds -/

/-- What the first `k` events brought to a ticket: nothing happened to it, it was handed
a packet, or it lapsed. -/
def Brought (es : List Event) (id k : ℕ) : Option (Except SessionError Packet) → Prop
  | none => ∀ i < k, ¬Lapses es id i
  | some (.ok p) => ∃ i < k, Hands es i p id
  | some (.error e) => e = .closed ∧ ∃ i < k, Lapses es id i

theorem Brought.mono {id k m : ℕ} {r : Except SessionError Packet}
    (h : Brought es id k (some r)) (hkm : k ≤ m) : Brought es id m (some r) := by
  cases r with
  | ok p =>
    obtain ⟨i, hi, hands⟩ := h
    exact ⟨i, hi.trans_le hkm, hands⟩
  | error e =>
    obtain ⟨he, i, hi, hlapses⟩ := h
    exact ⟨he, i, hi.trans_le hkm, hlapses⟩

/-- A ticket in the slot gets what the event brings. -/
theorem Brought.step {id k : ℕ} {e : Event} (h : Brought es id k none) (he : es[k]? = some e)
    (ho : (after es k).rendezvous.channel id = .opened) :
    Brought es id (k + 1) (e.brings id) := by
  have hsettled := settled_after es k
  have hk : k < es.length := (List.getElem?_eq_some_iff.mp he).1
  have hs : (after es k).rendezvous.slot = some id := hsettled.opened id ho
  have hopen : (after es k).rendezvous.closed = false := by
    rw [← Bool.not_eq_true]
    intro hc
    rw [hsettled.closed hc] at hs
    cases hs
  have hissued : ∃ c < k, Issues es c id :=
    (issued_iff hk.le).mpr (Rendezvous.lt_of_channel_ne (by rw [ho]; decide))
  have hanswer : (answers es)[k]? = some ((after es k).step e).2 := by
    rw [getElem?_answers, he, Option.map_some]
  -- an event that brings nothing is none of those that make a ticket lapse
  have hquiet : e.brings id = none → Brought es id (k + 1) none := by
    intro hnone i hi hlapses
    rcases Nat.lt_succ_iff_lt_or_eq.mp hi with hi | rfl
    · exact h i hi hlapses
    · obtain ⟨-, hw | hc | ⟨n, hn⟩⟩ := hlapses
      · obtain rfl : e = .withdraw id := Option.some.inj (he.symm.trans hw)
        simp [Event.brings] at hnone
      · obtain rfl : e = .close := Option.some.inj (he.symm.trans hc)
        cases hnone
      · obtain rfl : e = .claim := Option.some.inj (he.symm.trans hn.spec.1)
        cases hnone
  cases e with
  | claim =>
    refine ⟨rfl, k, Nat.lt_succ_self k, hissued, .inr (.inr ?_)⟩
    exact ⟨(after es k).rendezvous.channels.length, hanswer.trans (by rw [step_claim hopen])⟩
  | offer p =>
    refine ⟨k, Nat.lt_succ_self k, he, ?_, hs⟩
    have htaken := ((after es k).rendezvous.offer_taken p).mpr ⟨id, hs, ho⟩
    rw [hanswer, step_offer, htaken]
  | withdraw n =>
    by_cases hn : n = id
    · subst hn
      rw [Event.brings, if_pos rfl]
      exact ⟨rfl, k, Nat.lt_succ_self k, hissued, .inl he⟩
    · rw [Event.brings, if_neg hn]
      exact hquiet (by rw [Event.brings, if_neg hn])
  | close => exact ⟨rfl, k, Nat.lt_succ_self k, hissued, .inr (.inl he)⟩
  | await _ _ | forget _ | advance _ | abort _ => exact hquiet rfl

/-- Nothing has happened to a ticket that was just given out. -/
theorem brought_new {c : ℕ} (hc : c < es.length) :
    Brought es (after es c).rendezvous.channels.length (c + 1) none := by
  rintro i hi ⟨hissued, -⟩
  have hlt := (issued_iff ((Nat.le_of_lt_succ hi).trans hc.le)).mp hissued
  exact absurd (hlt.trans_le (length_mono (Nat.le_of_lt_succ hi) hc.le)) (lt_irrefl _)

/-- Only a claim makes an unused ticket. -/
theorem unused_step {t : Timeline} (h : t.Settled) {e : Event} {id : ℕ}
    (hid : id ∈ (t.step e).1.unused) (hnew : id ∉ t.unused) :
    e = .claim ∧ id = t.rendezvous.channels.length ∧
      (t.step e).1.rendezvous.channel id = .opened := by
  have hact : id ∈ (t.act e).1.unused := hid
  have hsame : (t.act e).1.unused = t.unused ∨ (t.act e).1.unused.Sublist t.unused ∨
      e = .claim := by
    cases e with
    | claim => exact .inr (.inr rfl)
    | await k limit | forget k =>
      simp only [Timeline.act]
      split
      · exact .inr (.inl List.erase_sublist)
      · exact .inl rfl
    | abort n =>
      simp only [Timeline.act]
      split <;> exact .inl rfl
    | _ => exact .inl rfl
  rcases hsame with hs | hs | rfl
  · exact absurd (hs ▸ hact) hnew
  · exact absurd (hs.subset hact) hnew
  · cases hc : t.rendezvous.closed with
    | true =>
      simp only [Timeline.act, t.rendezvous.claim_of_closed hc] at hact
      exact absurd hact hnew
    | false =>
      have hlast : id = t.rendezvous.channels.length := by
        simp only [Timeline.act, t.rendezvous.claim_of_open hc, List.mem_append,
          List.mem_singleton] at hact
        exact hact.resolve_left hnew
      refine ⟨rfl, hlast, ?_⟩
      have hchannel := t.rendezvous.channel_claim hc id
      rw [if_pos hlast] at hchannel
      rw [← hchannel, show (t.step .claim).1.rendezvous.channel id
        = (t.act .claim).1.rendezvous.channel id from
          channel_settle_unused (h.toSound.act .claim) hact]
      simp only [Timeline.act, t.rendezvous.claim_of_open hc]

/-- **An unused ticket holds what was brought to it.** -/
theorem brought_unused {id k : ℕ} (hk : k ≤ es.length) (hid : id ∈ (after es k).unused) :
    Brought es id k ((after es k).rendezvous.channel id).outcome := by
  induction k with
  | zero => cases hid
  | succ k ih =>
    obtain ⟨e, he⟩ := getElem?_of_lt (Nat.lt_of_succ_le hk)
    have hsettled := settled_after es k
    rw [after_succ he] at hid ⊢
    by_cases hold : id ∈ (after es k).unused
    · have hf : e ≠ .forget id := by
        rintro rfl
        exact hsettled.step_spends (.inl rfl) hid
      have ha : ∀ limit, e ≠ .await id limit := by
        rintro limit rfl
        exact hsettled.step_spends (.inr ⟨limit, rfl⟩) hid
      have hbefore := ih (Nat.le_of_succ_le hk) hold
      rw [(hsettled.step_unused hold hf ha).2]
      rcases hsettled.opened_or_outcome (List.mem_append_left _ hold) with ⟨ho, -⟩ | ⟨r, hr, -⟩
      · rw [ho] at hbefore ⊢
        exact hbefore.step he ho
      · rw [hr] at hbefore ⊢
        exact hbefore.mono (Nat.le_succ k)
    · obtain ⟨rfl, rfl, ho⟩ := unused_step hsettled hid hold
      rw [ho]
      exact brought_new (Nat.lt_of_succ_le hk)

/-! ### What a wait comes to -/

/-- A ticket that was used is not used again. -/
theorem spent_lasts {id i k : ℕ} (hik : i ≤ k) (hk : k ≤ es.length)
    (hid : id < (after es i).rendezvous.channels.length) (hspent : id ∉ (after es i).unused) :
    id ∉ (after es k).unused := by
  refine (lasts (P := fun t => id < t.rendezvous.channels.length ∧ id ∉ t.unused)
    (fun t ht e h => ⟨?_, fun hmem => ?_⟩) hik hk ⟨hid, hspent⟩).2
  · rw [length_step]
    exact h.1.trans_le (Nat.le_add_right _ _)
  · obtain ⟨-, rfl, -⟩ := unused_step ht hmem h.2
    exact lt_irrefl _ h.1

/-- An event that uses a ticket up. -/
theorem spent_after {id i : ℕ} {e : Event} (he : es[i]? = some e)
    (huses : e = .forget id ∨ ∃ limit, e = .await id limit) (hid : id ∈ (after es i).unused) :
    id < (after es (i + 1)).rendezvous.channels.length ∧ id ∉ (after es (i + 1)).unused := by
  have hsettled := settled_after es i
  rw [after_succ he]
  refine ⟨?_, hsettled.step_spends huses⟩
  rw [length_step]
  exact (hsettled.lt_of_inHand (List.mem_append_left _ hid)).trans_le (Nat.le_add_right _ _)

/-- A ticket is used once. -/
theorem spends_unique {id i k : ℕ} {e e' : Event} (he : es[i]? = some e)
    (huses : e = .forget id ∨ ∃ limit, e = .await id limit) (hid : id ∈ (after es i).unused)
    (he' : es[k]? = some e') (huses' : e' = .forget id ∨ ∃ limit, e' = .await id limit)
    (hid' : id ∈ (after es k).unused) : i = k := by
  have hi : i < es.length := (List.getElem?_eq_some_iff.mp he).1
  have hk : k < es.length := (List.getElem?_eq_some_iff.mp he').1
  rcases lt_trichotomy i k with hlt | heq | hlt
  · obtain ⟨h1, h2⟩ := spent_after he huses hid
    exact absurd hid' (spent_lasts hlt hk.le h1 h2)
  · exact heq
  · obtain ⟨h1, h2⟩ := spent_after he' huses' hid'
    exact absurd hid (spent_lasts hlt hi.le h1 h2)

theorem Begins.lt_length {j n id limit : ℕ} (h : Begins es j n id limit) : j < es.length :=
  (List.getElem?_eq_some_iff.mp h.1).1

/-- A ticket is waited on once. -/
theorem Begins.unique {j j' n n' id limit limit' : ℕ} (h : Begins es j n id limit)
    (h' : Begins es j' n' id limit') : j = j' ∧ n = n' := by
  obtain rfl : j = j' :=
    spends_unique h.1 (.inr ⟨limit, rfl⟩) h.2.1 h'.1 (.inr ⟨limit', rfl⟩) h'.2.1
  exact ⟨rfl, h.2.2.trans h'.2.2.symm⟩

theorem length_waits_step {t : Timeline} (h : t.Sound) (e : Event) :
    (t.step e).1.waits.length = (t.act e).1.waits.length := by
  rw [show (t.step e).1.waits = (t.act e).1.settle.waits from rfl, waits_settle (h.act e),
    List.length_map]

theorem length_waits_await {t : Timeline} (h : t.Sound) {id : ℕ} (hid : id ∈ t.unused)
    (limit : ℕ) : (t.step (.await id limit)).1.waits.length = t.waits.length + 1 := by
  rw [length_waits_step h]
  simp only [Timeline.act, hid, if_true, List.length_append, List.length_singleton]

/-- Only a wait that begins makes another wait. -/
theorem waits_grow {t : Timeline} (h : t.Sound) (e : Event) :
    (t.step e).1.waits.length = t.waits.length ∨
      ∃ id limit, e = .await id limit ∧ id ∈ t.unused := by
  rw [length_waits_step h]
  cases e with
  | await id limit =>
    by_cases hid : id ∈ t.unused
    · exact .inr ⟨id, limit, rfl, hid⟩
    · left
      simp only [Timeline.act, hid, if_false]
  | claim | forget id =>
    left
    simp only [Timeline.act]
    split <;> rfl
  | abort n =>
    left
    simp only [Timeline.act]
    split
    · exact List.length_set
    · rfl
  | _ => exact .inl rfl

theorem length_waits_mono {t : Timeline} (h : t.Sound) (e : Event) :
    t.waits.length ≤ (t.step e).1.waits.length := by
  rcases waits_grow h e with heq | ⟨id, limit, rfl, hid⟩
  · exact heq.ge
  · rw [length_waits_await h hid]
    exact Nat.le_succ _

/-- Every wait was begun by some event. -/
theorem begins_of_lt {n k : ℕ} (hk : k ≤ es.length) (hn : n < (after es k).waits.length) :
    ∃ j < k, ∃ id limit, Begins es j n id limit := by
  induction k with
  | zero => exact absurd hn (Nat.not_lt_zero n)
  | succ k ih =>
    obtain ⟨e, he⟩ := getElem?_of_lt (Nat.lt_of_succ_le hk)
    have hsound := (settled_after es k).toSound
    rw [after_succ he] at hn
    by_cases hold : n < (after es k).waits.length
    · obtain ⟨j, hj, hbegins⟩ := ih (Nat.le_of_succ_le hk) hold
      exact ⟨j, hj.trans (Nat.lt_succ_self k), hbegins⟩
    · rcases waits_grow hsound e with heq | ⟨id, limit, rfl, hid⟩
      · exact absurd (heq ▸ hn) hold
      · rw [length_waits_await hsound hid] at hn
        exact ⟨k, Nat.lt_succ_self k, id, limit, he, hid, by omega⟩

/-- A wait has one beginning. -/
theorem Begins.unique_of_number {j j' n id id' limit limit' : ℕ} (h : Begins es j n id limit)
    (h' : Begins es j' n id' limit') : j = j' ∧ id = id' := by
  -- the number of waits goes up where one begins
  have hgrows : ∀ {j n id limit k : ℕ}, Begins es j n id limit → j < k → k < es.length →
      n < (after es k).waits.length := by
    rintro j n id limit k ⟨he, hid, rfl⟩ hlt hk
    refine lasts (P := fun t => (after es j).waits.length < t.waits.length)
      (fun t ht e hn => hn.trans_le (length_waits_mono ht.toSound e)) hlt hk.le ?_
    rw [after_succ he, length_waits_await (settled_after es j).toSound hid]
    exact Nat.lt_succ_self _
  have hj : j = j' := by
    rcases lt_trichotomy j j' with hlt | heq | hlt
    · exact absurd h'.2.2 (hgrows h hlt h'.lt_length).ne
    · exact heq
    · exact absurd h.2.2 (hgrows h' hlt h.lt_length).ne
  subst hj
  have hevent := h.1.symm.trans h'.1
  simp only [Option.some.injEq, Event.await.injEq] at hevent
  exact ⟨rfl, hevent.1⟩

/-- What may have become of a wait by the time `k` events have happened. -/
def Story (es : List Event) (j id limit k : ℕ) : Option Wait → Prop
  | some (.running id' limit' deadline) => id' = id ∧ limit' = limit ∧
      deadline = (after es j).now + limit ∧ Brought es id k none
  | some (.ended (.ok p)) => ∃ i < k, Hands es i p id
  | some (.ended (.error .closed)) => ∃ i < k, Lapses es id i ∧ ¬Overdue es j limit i
  | some (.ended (.error (.timeout limit'))) => limit' = limit ∧ Overdue es j limit k ∧
      ∀ i, Lapses es id i → Overdue es j limit i
  | some (.ended (.error _)) => False
  | some .dropped => True
  | none => False

/-- A wait that is over stays over. -/
theorem over_lasts {n i k : ℕ} {w : Wait} (hik : i ≤ k) (hk : k ≤ es.length)
    (hw : (after es i).waits[n]? = some w) (hover : w.ticket? = none) :
    (after es k).waits[n]? = some w :=
  lasts (P := fun t => t.waits[n]? = some w) (fun _ ht e h => ht.step_over e h hover) hik hk hw

theorem Lapses.lt_length {id i : ℕ} (h : Lapses es id i) : i < es.length := by
  have hsome : ∃ e, es[i]? = some e := by
    obtain ⟨-, hw | hc | ⟨k, hk⟩⟩ := h
    · exact ⟨_, hw⟩
    · exact ⟨_, hc⟩
    · exact ⟨_, hk.spec.1⟩
  obtain ⟨e, he⟩ := hsome
  exact (List.getElem?_eq_some_iff.mp he).1

/-- A wait that times out was told nothing until its time was up. -/
theorem story_timeout {j id limit k : ℕ} (ho : Overdue es j limit k)
    (hb : Brought es id k none) : Story es j id limit k (some (.ended (.error (.timeout limit)))) := by
  refine ⟨rfl, ho, fun i hlapses => ho.mono ?_ hlapses.lt_length.le⟩
  by_contra hi
  exact hb i (Nat.not_le.mp hi) hlapses

/-- A wait that is told something before its time is up ends with it. -/
theorem story_brought {j id limit k : ℕ} {r : Except SessionError Packet}
    (hb : Brought es id k (some r)) (hearly : ∀ i < k, ¬Overdue es j limit i) :
    Story es j id limit k (some (.ended r)) := by
  cases r with
  | ok p => exact hb
  | error e =>
    obtain ⟨rfl, i, hi, hlapses⟩ := hb
    exact ⟨i, hi, hlapses, hearly i hi⟩

theorem Story.mono {j id limit k m : ℕ} {w : Wait} (h : Story es j id limit k (some w))
    (hover : w.ticket? = none) (hkm : k ≤ m) (hm : m ≤ es.length) :
    Story es j id limit m (some w) := by
  cases w with
  | running id' limit' deadline => cases hover
  | dropped => trivial
  | ended r =>
    rcases r with e | p
    · cases e with
      | closed =>
        obtain ⟨i, hi, hlapses⟩ := h
        exact ⟨i, hi.trans_le hkm, hlapses⟩
      | timeout limit' => exact ⟨h.1, h.2.1.mono hkm hm, h.2.2⟩
      | _ => exact h.elim
    · obtain ⟨i, hi, hands⟩ := h
      exact ⟨i, hi.trans_le hkm, hands⟩

/-- An await that begins ends at once when its ticket has its share, or when no time is left. -/
theorem story_begins {j n id limit : ℕ} (hb : Begins es j n id limit) (hk : j + 1 ≤ es.length) :
    Story es j id limit (j + 1) ((after es (j + 1)).waits[n]?) := by
  obtain ⟨he, hid, rfl⟩ := hb
  have hsettled := settled_after es j
  have hbrought := brought_unused (Nat.le_of_succ_le hk) hid
  have hnow : (after es (j + 1)).now = (after es j).now := by
    rw [after_succ he, now_step]
    rfl
  rw [after_succ he, hsettled.step_await hid limit]
  rcases hsettled.opened_or_outcome (List.mem_append_left _ hid) with ⟨ho, -⟩ | ⟨r, hr, -⟩
  · rw [ho] at hbrought ⊢
    have hnext : Brought es id (j + 1) none := Brought.step hbrought he ho
    by_cases hl : limit = 0
    · subst hl
      exact story_timeout ⟨Nat.lt_succ_self j, hnow.ge⟩ hnext
    · simp only [Channel.outcome, hl, if_false]
      exact ⟨rfl, rfl, rfl, hnext⟩
  · rw [hr] at hbrought ⊢
    refine story_brought (hbrought.mono (Nat.le_succ j)) fun i hi hover => ?_
    exact absurd hover.1 (Nat.not_lt.mpr (Nat.le_of_lt_succ hi))

/-- One event takes an await that runs to its end when it brings something for the ticket or
reaches the deadline, and leaves one that is over as it is. -/
theorem story_succ {j n id limit k : ℕ} {e : Event} (he : es[k]? = some e) (hjk : j < k)
    (hk : k + 1 ≤ es.length) (h : Story es j id limit k ((after es k).waits[n]?)) :
    Story es j id limit (k + 1) ((after es (k + 1)).waits[n]?) := by
  have hk' := Nat.le_of_succ_le hk
  have hsettled := settled_after es k
  cases hw : (after es k).waits[n]? with
  | none =>
    rw [hw] at h
    exact h.elim
  | some w =>
    rw [hw] at h
    rw [after_succ he]
    by_cases hover : w.ticket? = none
    · rw [hsettled.step_over e hw hover]
      exact h.mono hover (Nat.le_succ k) hk
    · cases w with
      | ended r => exact absurd rfl hover
      | dropped => exact absurd rfl hover
      | running id' limit' deadline =>
        obtain ⟨rfl, rfl, rfl, hbrought⟩ := h
        obtain ⟨ho, hearly⟩ := hsettled.running _ _ _ (List.mem_of_getElem? hw)
        have hnext := hbrought.step he ho
        by_cases habort : e = .abort n
        · rw [habort, hsettled.step_abort hw]
          trivial
        · rw [hsettled.step_running hw habort]
          cases hr : e.brings id' with
          | some r =>
            rw [hr] at hnext
            refine story_brought hnext fun i hi hdue => ?_
            have hdue' := hdue.mono (Nat.le_of_lt_succ hi) hk'
            exact absurd hdue'.2 (Nat.not_le.mpr hearly)
          | none =>
            rw [hr] at hnext
            by_cases hd : (after es j).now + limit' ≤ (after es k).now + e.elapsed
            · simp only [hd, if_true]
              refine story_timeout ⟨Nat.lt_of_lt_of_le hjk (Nat.le_succ k), ?_⟩ hnext
              rw [after_succ he, now_step]
              exact hd
            · simp only [hd, if_false]
              exact ⟨rfl, rfl, rfl, hnext⟩

/-- **What becomes of a wait**, event by event. -/
theorem story {j n id limit k : ℕ} (hb : Begins es j n id limit) (hjk : j < k)
    (hk : k ≤ es.length) : Story es j id limit k ((after es k).waits[n]?) := by
  induction k, hjk using Nat.le_induction with
  | base => exact story_begins hb hk
  | succ k hjk ih =>
    obtain ⟨e, he⟩ := getElem?_of_lt (Nat.lt_of_succ_le hk)
    exact story_succ he hjk hk (ih (Nat.le_of_succ_le hk))

/-! ### Packets -/

theorem held_iff {t : Timeline} (h : t.Sound) (id : ℕ) :
    Held t id ↔ t.rendezvous.channel id ≠ .abandoned := by
  rw [← h.held id, inHand, List.mem_append, waitedOn, List.mem_filterMap, Held]
  refine or_congr_right ⟨?_, ?_⟩
  · rintro ⟨limit, deadline, hw⟩
    exact ⟨_, hw, rfl⟩
  · rintro ⟨w, hw, hid⟩
    cases w with
    | running id' limit deadline =>
      cases hid
      exact ⟨limit, deadline, hw⟩
    | ended r => cases hid
    | dropped => cases hid

theorem Hands.lt_length {i id : ℕ} {p : Packet} (h : Hands es i p id) : i < es.length :=
  (List.getElem?_eq_some_iff.mp h.1).1

/-- A packet is handed to a ticket that nothing was brought to. -/
theorem Hands.opened {i id : ℕ} {p : Packet} (h : Hands es i p id) :
    (after es i).rendezvous.channel id = .opened := by
  obtain ⟨he, htaken, hs⟩ := h
  rw [getElem?_answers, he, Option.map_some, step_offer] at htaken
  simp only [Option.some.injEq, Answer.taken.injEq] at htaken
  obtain ⟨k, hk, ho⟩ := ((after es i).rendezvous.offer_taken p).mp htaken
  obtain rfl : id = k := Option.some.inj (hs.symm.trans hk)
  exact ho

theorem Hands.held {i id : ℕ} {p : Packet} (h : Hands es i p id) : Held (after es i) id := by
  rw [held_iff (settled_after es i).toSound, h.opened]
  decide

theorem Hands.issued {i id : ℕ} {p : Packet} (h : Hands es i p id) :
    id < (after es i).rendezvous.channels.length :=
  Rendezvous.lt_of_channel_ne (by rw [h.opened]; decide)

/-- Only a claim puts a ticket into the slot. -/
theorem slot_step {t : Timeline} (h : t.Sound) {e : Event} {id : ℕ}
    (hs : (t.step e).1.rendezvous.slot = some id) (hid : id < t.rendezvous.channels.length) :
    t.rendezvous.slot = some id ∧ ∀ p, e ≠ .offer p := by
  have hact : (t.act e).1.rendezvous.slot = some id := ((slot_settle (h.act e) id).mp hs).1
  cases e with
  | claim =>
    cases hc : t.rendezvous.closed with
    | true =>
      simp only [Timeline.act, t.rendezvous.claim_of_closed hc] at hact
      exact ⟨hact, by rintro _ ⟨⟩⟩
    | false =>
      simp only [Timeline.act, t.rendezvous.claim_of_open hc, Option.some.injEq] at hact
      exact absurd hact hid.ne'
  | offer p =>
    have hnone : (t.act (.offer p)).1.rendezvous.slot = none := t.rendezvous.offer_slot p
    rw [hnone] at hact
    cases hact
  | await _ _ | forget _ | abort _ =>
    simp only [Timeline.act] at hact
    split at hact <;> exact ⟨hact, by rintro _ ⟨⟩⟩
  | withdraw k =>
    simp only [Timeline.act, Rendezvous.slot_withdraw] at hact
    split at hact
    · cases hact
    · exact ⟨hact, by rintro _ ⟨⟩⟩
  | close =>
    have hnone : (t.act .close).1.rendezvous.slot = none := t.rendezvous.slot_clear
    rw [hnone] at hact
    cases hact
  | advance ms => exact ⟨hact, by rintro _ ⟨⟩⟩

/-- **A ticket is handed at most one packet, and a packet goes to at most one ticket.** -/
theorem Hands.unique {i i' id id' : ℕ} {p p' : Packet} (h : Hands es i p id)
    (h' : Hands es i' p' id') : i = i' ↔ id = id' := by
  -- after an offer the slot is another's for good
  have hgone : ∀ {i i' id : ℕ} {p p' : Packet}, Hands es i p id → Hands es i' p' id →
      ¬i < i' := by
    intro i i' id p p' h h' hlt
    refine (lasts (P := fun t => id < t.rendezvous.channels.length ∧ t.rendezvous.slot ≠ some id)
      (fun t ht e hk => ⟨?_, fun hs => ?_⟩) hlt h'.lt_length.le ⟨?_, fun hs => ?_⟩).2 h'.2.2
    · rw [length_step]
      exact hk.1.trans_le (Nat.le_add_right _ _)
    · exact hk.2 (slot_step ht.toSound hs hk.1).1
    · exact h.issued.trans_le (length_mono (Nat.le_succ i) h.lt_length)
    · rw [after_succ h.1] at hs
      exact (slot_step (settled_after es i).toSound hs h.issued).2 p rfl
  constructor
  · rintro rfl
    exact Option.some.inj (h.2.2.symm.trans h'.2.2)
  · rintro rfl
    rcases lt_trichotomy i i' with hlt | heq | hlt
    · exact absurd hlt (hgone h h')
    · exact heq
    · exact absurd hlt (hgone h' h)

/-- A wait that goes on is the one that was begun on its ticket. -/
theorem getElem?_running {j n id limit k : ℕ} (hb : Begins es j n id limit) (hjk : j < k)
    (hk : k ≤ es.length) (hheld : Held (after es k) id) :
    ∃ deadline, (after es k).waits[n]? = some (.running id limit deadline) := by
  obtain ⟨hlt, hspent⟩ := spent_after hb.1 (.inr ⟨limit, rfl⟩) hb.2.1
  rcases hheld with hunused | ⟨limit', deadline, hw⟩
  · exact absurd hunused (spent_lasts hjk hk hlt hspent)
  · obtain ⟨m, hm⟩ := List.getElem?_of_mem hw
    obtain ⟨j', hj', id', limit'', hb'⟩ :=
      begins_of_lt hk (List.getElem?_eq_some_iff.mp hm).1
    have hstory := story hb' hj' hk
    rw [hm] at hstory
    obtain ⟨rfl, rfl, rfl, -⟩ := hstory
    obtain ⟨rfl, rfl⟩ := hb.unique hb'
    have hevent := hb.1.symm.trans hb'.1
    simp only [Option.some.injEq, Event.await.injEq, true_and] at hevent
    exact ⟨_, hevent ▸ hm⟩

/-- An unused ticket keeps what was brought to it. -/
theorem outcome_lasts {id i k : ℕ} {r : Except SessionError Packet} (hik : i ≤ k)
    (hk : k ≤ es.length) (hissued : id < (after es i).rendezvous.channels.length)
    (hi : id ∈ (after es i).unused → ((after es i).rendezvous.channel id).outcome = some r)
    (hid : id ∈ (after es k).unused) :
    ((after es k).rendezvous.channel id).outcome = some r := by
  refine (lasts (P := fun t => id < t.rendezvous.channels.length ∧
    (id ∈ t.unused → (t.rendezvous.channel id).outcome = some r))
    (fun t ht e h => ⟨?_, fun hmem => ?_⟩) hik hk ⟨hissued, hi⟩).2 hid
  · rw [length_step]
    exact h.1.trans_le (Nat.le_add_right _ _)
  · have hold : id ∈ t.unused := by
      by_contra hnew
      obtain ⟨-, rfl, -⟩ := unused_step ht hmem hnew
      exact lt_irrefl _ h.1
    have hf : e ≠ .forget id := by
      rintro rfl
      exact ht.step_spends (.inl rfl) hmem
    have ha : ∀ limit, e ≠ .await id limit := by
      rintro limit rfl
      exact ht.step_spends (.inr ⟨limit, rfl⟩) hmem
    rw [(ht.step_unused hold hf ha).2, h.2 hold, Option.some_or]

/-- **A packet that is handed over arrives**, whether the wait goes on or begins later. -/
theorem Hands.arrives {i j n id limit : ℕ} {p : Packet} (h : Hands es i p id)
    (hb : Begins es j n id limit) :
    (({} : Timeline).run es).waits[n]? = some (.ended (.ok p)) := by
  have hsettled := settled_after es i
  rw [← after_length]
  rcases lt_trichotomy j i with hji | rfl | hij
  · obtain ⟨deadline, hw⟩ := getElem?_running hb hji h.lt_length.le h.held
    refine over_lasts (i := i + 1) h.lt_length le_rfl ?_ rfl
    rw [after_succ h.1, hsettled.step_running (e := .offer p) hw nofun]
    rfl
  · have hevent := h.1.symm.trans hb.1
    cases hevent
  · obtain ⟨he, hid, rfl⟩ := hb
    have hj : j < es.length := (List.getElem?_eq_some_iff.mp he).1
    have hissued := h.issued.trans_le (length_mono (Nat.le_succ i) h.lt_length)
    have houtcome : ((after es j).rendezvous.channel id).outcome = some (.ok p) := by
      refine outcome_lasts hij hj.le hissued (fun hid' => ?_) hid
      have hold : id ∈ (after es i).unused := by
        by_contra hspent
        exact spent_lasts (Nat.le_succ i) h.lt_length h.issued hspent hid'
      rw [after_succ h.1, (hsettled.step_unused (e := .offer p) hold nofun fun _ => nofun).2,
        h.opened]
      rfl
    refine over_lasts (i := j + 1) hj le_rfl ?_ rfl
    rw [after_succ he, (settled_after es j).step_await hid, houtcome]

/-- A ticket that somebody has is unused until it is waited on or forgotten. -/
theorem held_until {i id k : ℕ} (hheld : Held (after es i) id) (hik : i ≤ k)
    (hk : k ≤ es.length) : id ∈ (after es k).unused ∨ (∃ j n limit, Begins es j n id limit) ∨
      ∃ j, i ≤ j ∧ es[j]? = some (.forget id) := by
  induction k, hik using Nat.le_induction with
  | base =>
    rcases hheld with hunused | ⟨limit, deadline, hw⟩
    · exact .inl hunused
    · obtain ⟨n, hn⟩ := List.getElem?_of_mem hw
      obtain ⟨j, hj, id', limit', hb⟩ := begins_of_lt hk (List.getElem?_eq_some_iff.mp hn).1
      have hstory := story hb hj hk
      rw [hn] at hstory
      obtain ⟨rfl, -⟩ := hstory
      exact .inr (.inl ⟨j, n, limit', hb⟩)
  | succ k hik ih =>
    obtain ⟨e, he⟩ := getElem?_of_lt (Nat.lt_of_succ_le hk)
    rcases ih (Nat.le_of_succ_le hk) with hunused | hused
    · by_cases hf : e = .forget id
      · exact .inr (.inr ⟨k, hik, hf ▸ he⟩)
      · by_cases ha : ∃ limit, e = .await id limit
        · obtain ⟨limit, rfl⟩ := ha
          exact .inr (.inl ⟨k, _, limit, he, hunused, rfl⟩)
        · left
          rw [after_succ he]
          exact ((settled_after es k).step_unused hunused hf fun limit h => ha ⟨limit, h⟩).1
    · exact .inr hused

/-- A wait that gets a packet gets one that was handed to its ticket. -/
theorem returns_of_ended {n : ℕ} {p : Packet}
    (h : (({} : Timeline).run es).waits[n]? = some (.ended (.ok p))) :
    ∃ i, es[i]? = some (.offer p) ∧ Returns es n i := by
  have hw := h
  rw [← after_length] at hw
  obtain ⟨j, hj, id, limit, hb⟩ := begins_of_lt le_rfl (List.getElem?_eq_some_iff.mp hw).1
  have hstory := story hb hj le_rfl
  rw [hw] at hstory
  obtain ⟨i, -, hands⟩ := hstory
  exact ⟨i, hands.1, p, id, j, limit, hands, hb, h⟩

/-- An offer that is not taken is the same whatever the packet is. -/
theorem step_offer_refused {t : Timeline} {p : Packet}
    (h : (t.step (.offer p)).2 = .taken false) (q : Packet) :
    t.step (.offer q) = t.step (.offer p) := by
  have hrefused : ∀ q, t.rendezvous.offer q = ({ t.rendezvous with slot := none }, false) := by
    rw [step_offer, Answer.taken.injEq] at h
    intro q
    unfold Rendezvous.offer at h ⊢
    split
    · rename_i hs
      rw [← hs]
    · rename_i id hs
      by_cases ho : t.rendezvous.channel id = .opened
      · simp only [hs, ho, if_true] at h
        cases h
      · rw [if_neg ho]
  simp only [Timeline.step, Timeline.act, hrefused]

/-- **Each packet is delivered once.** An offer is taken exactly when the slot holds the
latest ticket and somebody has it. It goes to this ticket and to no other, the ticket gets
no other, and whoever waits on it, before or afterwards, gets this packet; the ticket can
still be waited on unless that was done already or it was forgotten. A wait gets nothing
but a packet that was taken, no two waits get the same one, and an offer that is not taken
leaves a timeline that does not depend on the packet. -/
theorem delivered_once (es : List Event) :
    (∀ p, ((({} : Timeline).run es).step (.offer p)).2 = .taken true ↔
      ∃ id, (({} : Timeline).run es).rendezvous.slot = some id ∧
        (tickets es).getLast? = some id ∧ Held (({} : Timeline).run es) id) ∧
    (∀ i p id, Hands es i p id →
      (∀ i' p' id', Hands es i' p' id' → (i = i' ↔ id = id')) ∧
      (∀ j n limit, Begins es j n id limit →
        (({} : Timeline).run es).waits[n]? = some (.ended (.ok p))) ∧
      (id ∈ (({} : Timeline).run es).unused ∨ (∃ j n limit, Begins es j n id limit) ∨
        ∃ j, i < j ∧ es[j]? = some (.forget id))) ∧
    (∀ n p, (({} : Timeline).run es).waits[n]? = some (.ended (.ok p)) →
      ∃ i, es[i]? = some (.offer p) ∧ Returns es n i) ∧
    (∀ n n' i i', Returns es n i → Returns es n' i' → (n = n' ↔ i = i')) ∧
    ∀ p, ((({} : Timeline).run es).step (.offer p)).2 = .taken false →
      ∀ q, (({} : Timeline).run es).step (.offer q) = (({} : Timeline).run es).step (.offer p) := by
  have hsettled := settled_after es es.length
  rw [after_length] at hsettled
  refine ⟨fun p => ?_, fun i p id h => ⟨fun i' p' id' h' => h.unique h', ?_, ?_⟩,
    fun n p h => returns_of_ended h, ?_, fun p h q => step_offer_refused h q⟩
  · rw [step_offer, Answer.taken.injEq, Rendezvous.offer_taken]
    refine exists_congr fun id => and_congr_right fun hs => ?_
    have hlast : (tickets es).getLast? = some id := by
      rw [tickets_eq_range, ← hsettled.latest id hs, List.getLast?_range]
      rfl
    rw [held_iff hsettled.toSound, and_iff_right hlast]
    -- nothing was brought to a ticket in the slot
    have hpending := hsettled.pending id hs
    refine ⟨fun ho => by rw [ho]; decide, fun hne => ?_⟩
    cases hc : (({} : Timeline).run es).rendezvous.channel id with
    | opened => rfl
    | abandoned => exact absurd hc hne
    | full q => rw [hc] at hpending; cases hpending
    | hungUp => rw [hc] at hpending; cases hpending
  · exact fun j n limit hb => h.arrives hb
  · have huntil := held_until h.held h.lt_length.le le_rfl
    rw [after_length] at huntil
    refine huntil.imp_right (Or.imp_right ?_)
    rintro ⟨j, hij, hj⟩
    refine ⟨j, lt_of_le_of_ne hij ?_, hj⟩
    rintro rfl
    cases h.1.symm.trans hj
  · rintro n n' i i' ⟨p, id, j, limit, h, hb, -⟩ ⟨p', id', j', limit', h', hb', -⟩
    refine Iff.trans ?_ (h.unique h').symm
    constructor
    · rintro rfl
      exact (hb.unique_of_number hb').2
    · rintro rfl
      exact (hb.unique hb').2

/-! ### Waits that end without a packet -/

/-- **A wait that times out does so as soon as its time is up.** -/
theorem timeout_at {j n id limit k : ℕ} (hb : Begins es j n id limit)
    (hend : (({} : Timeline).run es).waits[n]? = some (.ended (.error (.timeout limit))))
    (hjk : j < k) (hk : k ≤ es.length) :
    (after es k).waits[n]? = some (.ended (.error (.timeout limit))) ↔ Overdue es j limit k := by
  have hstory := story hb hjk hk
  have hlast := story hb hb.lt_length le_rfl
  rw [after_length, hend] at hlast
  constructor
  · intro hw
    rw [hw] at hstory
    exact hstory.2.1
  · intro hdue
    cases hw : (after es k).waits[n]? with
    | none =>
      rw [hw] at hstory
      exact hstory.elim
    | some w =>
      by_cases hover : w.ticket? = none
      · have hkept := over_lasts hk le_rfl hw hover
        rw [after_length, hend] at hkept
        exact hkept.symm
      · -- whoever still waits has time left
        cases w with
        | ended r => exact absurd rfl hover
        | dropped => exact absurd rfl hover
        | running id' limit' deadline =>
          rw [hw] at hstory
          obtain ⟨-, -, rfl, -⟩ := hstory
          obtain ⟨-, hearly⟩ := (settled_after es k).running _ _ _ (List.mem_of_getElem? hw)
          exact absurd hdue.2 (Nat.not_le.mpr hearly)

/-- How a wait ends that gets no packet. -/
theorem error_cases {n : ℕ} {e : SessionError}
    (h : (({} : Timeline).run es).waits[n]? = some (.ended (.error e))) :
    ∃ j id limit, Begins es j n id limit ∧
      (e = .closed ∧ (∃ i, Lapses es id i ∧ ¬Overdue es j limit i) ∨
        e = .timeout limit ∧ (∀ i, Lapses es id i → Overdue es j limit i) ∧
        ∀ k, j < k → k ≤ es.length →
          ((after es k).waits[n]? = some (.ended (.error (.timeout limit))) ↔
            Overdue es j limit k)) := by
  have hw := h
  rw [← after_length] at hw
  obtain ⟨j, hj, id, limit, hb⟩ := begins_of_lt le_rfl (List.getElem?_eq_some_iff.mp hw).1
  have hstory := story hb hj le_rfl
  rw [hw] at hstory
  refine ⟨j, id, limit, hb, ?_⟩
  cases e with
  | closed =>
    obtain ⟨i, -, hlapses⟩ := hstory
    exact .inl ⟨rfl, i, hlapses⟩
  | timeout limit' =>
    obtain ⟨rfl, -, hlapses⟩ := hstory
    exact .inr ⟨rfl, hlapses, fun k hjk hk => timeout_at hb h hjk hk⟩
  | _ => exact hstory.elim

/-- Whoever waits has time left, and nothing happened to the ticket. -/
theorem running_early {j n id limit id' limit' deadline : ℕ} (hb : Begins es j n id limit)
    (h : (({} : Timeline).run es).waits[n]? = some (.running id' limit' deadline)) :
    ¬Overdue es j limit es.length ∧ ∀ i, ¬Lapses es id i := by
  rw [← after_length] at h
  have hstory := story hb hb.lt_length le_rfl
  rw [h] at hstory
  obtain ⟨-, -, rfl, hquiet⟩ := hstory
  obtain ⟨-, hearly⟩ := (settled_after es es.length).running _ _ _ (List.mem_of_getElem? h)
  exact ⟨fun hdue => absurd hdue.2 (Nat.not_le.mpr hearly),
    fun i hlapses => hquiet i hlapses.lt_length hlapses⟩

/-! ### The slot -/

/-- A withdrawal empties the slot if the ticket is there. -/
theorem slot_step_withdraw {t : Timeline} (h : t.Settled) (id : ℕ) :
    (t.step (.withdraw id)).1.rendezvous.slot
      = if t.rendezvous.slot = some id then none else t.rendezvous.slot := by
  have hact := h.toSound.act (.withdraw id)
  rw [← t.rendezvous.slot_withdraw id]
  refine Option.ext fun k => (slot_settle hact k).trans (and_iff_left_of_imp fun _ => ?_)
  exact fun limit deadline hw => (h.running k limit deadline hw).2

/-- Time that passes empties the slot if a wait on its ticket is due by then. -/
theorem slot_step_advance {t : Timeline} (h : t.Settled) (ms k : ℕ) :
    (t.step (.advance ms)).1.rendezvous.slot = some k ↔ t.rendezvous.slot = some k ∧
      ∀ limit deadline, .running k limit deadline ∈ t.waits → t.now + ms < deadline :=
  slot_settle (h.toSound.act (.advance ms)) k

/-- A wait that begins empties the slot if its ticket is there and it has no time. -/
theorem slot_step_await {t : Timeline} (h : t.Settled) (id limit k : ℕ) :
    (t.step (.await id limit)).1.rendezvous.slot = some k ↔ t.rendezvous.slot = some k ∧
      ¬(id = k ∧ k ∈ t.unused ∧ limit = 0) := by
  refine (slot_settle (h.toSound.act (.await id limit)) k).trans ?_
  by_cases hid : id ∈ t.unused
  · simp only [Timeline.act, hid, if_true, List.mem_append, List.mem_singleton]
    refine and_congr_right fun _ => ⟨?_, ?_⟩
    · rintro hall ⟨rfl, -, rfl⟩
      exact absurd (hall 0 t.now (.inr rfl)) (lt_irrefl _)
    · rintro hnot limit' deadline (hw | hw)
      · exact (h.running k limit' deadline hw).2
      · simp only [Wait.running.injEq] at hw
        obtain ⟨rfl, rfl, rfl⟩ := hw
        have hpos : limit' ≠ 0 := fun hl => hnot ⟨rfl, hid, hl⟩
        omega
  · simp only [Timeline.act, hid, if_false]
    refine and_congr_right fun _ => iff_of_true ?_ ?_
    · exact fun limit' deadline hw => (h.running k limit' deadline hw).2
    · rintro ⟨rfl, hk, -⟩
      exact hid hk

/-! ### After the close -/

/-- What is closed stays closed. -/
theorem closed_step {t : Timeline} (h : t.rendezvous.closed = true) (e : Event) :
    (t.step e).1.rendezvous.closed = true := by
  refine ((settleWaits_frame _ _ _).1).trans ?_
  cases e with
  | claim => simp only [t.rendezvous.claim_of_closed h, h]
  | offer p => exact (t.rendezvous.closed_offer p).trans h
  | withdraw id => exact (t.rendezvous.closed_withdraw id).trans h
  | await _ _ | forget _ | abort _ =>
    simp only
    split <;> exact h
  | close => rfl
  | advance ms => exact h

theorem closed_after {i k : ℕ} (he : es[i]? = some .close) (hik : i < k) (hk : k ≤ es.length) :
    (after es k).rendezvous.closed = true := by
  refine lasts (P := fun t => t.rendezvous.closed = true) (fun t _ e h => closed_step h e) hik hk ?_
  rw [after_succ he]
  exact (settleWaits_frame _ _ _).1

/-- Once all is closed nothing is given out, taken or claimed. -/
theorem closed_answers {t : Timeline} (h : t.Settled) (hc : t.rendezvous.closed = true) :
    (t.step .claim).2 = .refused ∧ (∀ p, (t.step (.offer p)).2 = .taken false) ∧
      t.rendezvous.isClaimed = false := by
  have hs := h.closed hc
  refine ⟨?_, fun p => ?_, ?_⟩
  · simp only [Timeline.step, Timeline.act, t.rendezvous.claim_of_closed hc]
  · have hrefused : (t.rendezvous.offer p).2 = false := by
      rw [← Bool.not_eq_true, Rendezvous.offer_taken]
      rintro ⟨id, hid, -⟩
      rw [hs] at hid
      cases hid
    rw [step_offer, hrefused]
  · rw [Rendezvous.isClaimed, hs]
    rfl

/-- **What becomes of a wait when all is closed**: it was over by then, gets a packet that
was handed to it by then, or ends hung up. -/
theorem closed_waits {i n : ℕ} {w : Wait} (he : es[i]? = some .close)
    (hw : (({} : Timeline).run es).waits[n]? = some w) :
    w = .ended (.error .closed) ∨ (∃ h < i, Returns es n h) ∨
      w.ticket? = none ∧ (after es i).waits[n]? = some w := by
  have hi : i < es.length := (List.getElem?_eq_some_iff.mp he).1
  have hsettled := settled_after es i
  rw [← after_length] at hw
  obtain ⟨j, hj, id, limit, hb⟩ := begins_of_lt le_rfl (List.getElem?_eq_some_iff.mp hw).1
  have hfinal : ∀ {k : ℕ} {v : Wait}, k ≤ es.length → (after es k).waits[n]? = some v →
      v.ticket? = none → w = v := by
    intro k v hk hv hover
    exact Option.some.inj (hw.symm.trans (over_lasts hk le_rfl hv hover))
  rcases lt_trichotomy j i with hji | rfl | hij
  · -- it was there when all was closed
    have hstory := story hb hji hi.le
    cases hv : (after es i).waits[n]? with
    | none =>
      rw [hv] at hstory
      exact hstory.elim
    | some v =>
      by_cases hover : v.ticket? = none
      · obtain rfl := hfinal hi.le hv hover
        exact .inr (.inr ⟨hover, rfl⟩)
      · cases v with
        | ended r => exact absurd rfl hover
        | dropped => exact absurd rfl hover
        | running id' limit' deadline =>
          refine .inl (hfinal (k := i + 1) hi ?_ rfl)
          rw [after_succ he, hsettled.step_running (e := .close) hv nofun]
          rfl
  · cases he.symm.trans hb.1
  · -- it was begun later, so its ticket had its share
    have hclosed := closed_after he hij hb.lt_length.le
    have hlater := settled_after es j
    have hbrought := brought_unused hb.lt_length.le hb.2.1
    have hnext := hlater.step_await hb.2.1 limit
    rw [← hb.2.2, ← after_succ hb.1] at hnext
    rcases hlater.opened_or_outcome (List.mem_append_left _ hb.2.1) with ⟨-, hs⟩ | ⟨r, hr, -⟩
    · rw [hlater.closed hclosed] at hs
      cases hs
    · rw [hr] at hbrought hnext
      obtain rfl := hfinal hb.lt_length hnext rfl
      cases r with
      | error e =>
        left
        rw [hbrought.1]
      | ok p =>
        obtain ⟨h, hh, hands⟩ := hbrought
        rw [after_length] at hw
        refine .inr (.inl ⟨h, ?_, p, id, j, limit, hands, hb, hw⟩)
        -- nothing is taken once all is closed
        by_contra hle
        rcases Nat.eq_or_lt_of_le (Nat.not_lt.mp hle) with rfl | hlt
        · cases he.symm.trans hands.1
        · have hnone := (settled_after es h).closed (closed_after he hlt hands.lt_length.le)
          rw [hands.2.2] at hnone
          cases hnone

/-- **Each wait comes to its end.** A wait that ends without a packet ends hung up if its
ticket lapsed before its time was up; otherwise it times out, as soon as its time is up. A
wait that goes on has time left, and its ticket has not lapsed. A withdrawal or a timeout
empties the slot only if its own ticket is there. Tickets count upwards. After the close
nothing is given out, taken or claimed, and a wait that was not over and gets no packet
from before ends hung up. -/
theorem waits_end (es : List Event) :
    (∀ n e, (({} : Timeline).run es).waits[n]? = some (.ended (.error e)) →
      ∃ j id limit, Begins es j n id limit ∧
        (e = .closed ∧ (∃ i, Lapses es id i ∧ ¬Overdue es j limit i) ∨
          e = .timeout limit ∧ (∀ i, Lapses es id i → Overdue es j limit i) ∧
          ∀ k, j < k → k ≤ es.length →
            ((after es k).waits[n]? = some (.ended (.error (.timeout limit))) ↔
              Overdue es j limit k))) ∧
    (∀ n id limit deadline,
      (({} : Timeline).run es).waits[n]? = some (.running id limit deadline) →
      ∃ j, Begins es j n id limit ∧ ¬Overdue es j limit es.length ∧ ∀ i, ¬Lapses es id i) ∧
    ((∀ id, ((({} : Timeline).run es).step (.withdraw id)).1.rendezvous.slot
        = if (({} : Timeline).run es).rendezvous.slot = some id then none
          else (({} : Timeline).run es).rendezvous.slot) ∧
      (∀ ms k, ((({} : Timeline).run es).step (.advance ms)).1.rendezvous.slot = some k ↔
        (({} : Timeline).run es).rendezvous.slot = some k ∧ ∀ limit deadline,
          .running k limit deadline ∈ (({} : Timeline).run es).waits →
            (({} : Timeline).run es).now + ms < deadline) ∧
      ∀ id limit k, ((({} : Timeline).run es).step (.await id limit)).1.rendezvous.slot = some k ↔
        (({} : Timeline).run es).rendezvous.slot = some k ∧
          ¬(id = k ∧ k ∈ (({} : Timeline).run es).unused ∧ limit = 0)) ∧
    (tickets es).Pairwise (· < ·) ∧
    ∀ i, es[i]? = some .close →
      ((({} : Timeline).run es).step .claim).2 = .refused ∧
      (∀ p, ((({} : Timeline).run es).step (.offer p)).2 = .taken false) ∧
      (({} : Timeline).run es).rendezvous.isClaimed = false ∧
      ∀ n w, (({} : Timeline).run es).waits[n]? = some w →
        w = .ended (.error .closed) ∨ (∃ h < i, Returns es n h) ∨
          w.ticket? = none ∧ (after es i).waits[n]? = some w := by
  have hsettled := settled_after es es.length
  rw [after_length] at hsettled
  refine ⟨fun n e h => error_cases h, ?_, ⟨slot_step_withdraw hsettled,
    slot_step_advance hsettled, slot_step_await hsettled⟩, ?_, fun i he => ?_⟩
  · intro n id limit deadline hw
    have hw' := hw
    rw [← after_length] at hw'
    obtain ⟨j, hj, id', limit', hb⟩ := begins_of_lt le_rfl (List.getElem?_eq_some_iff.mp hw').1
    have hstory := story hb hj le_rfl
    rw [hw'] at hstory
    obtain ⟨rfl, rfl, -⟩ := hstory
    exact ⟨j, hb, running_early hb hw⟩
  · rw [tickets_eq_range]
    exact List.pairwise_lt_range
  · have hi : i < es.length := (List.getElem?_eq_some_iff.mp he).1
    have hclosed := closed_after he hi le_rfl
    rw [after_length] at hclosed
    obtain ⟨h1, h2, h3⟩ := closed_answers hsettled hclosed
    exact ⟨h1, h2, h3, fun n w hw => closed_waits he hw⟩

end Histories

end Timeline

end ProbeLink
