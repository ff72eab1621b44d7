/-
# Calls take turns

A session with any number of calls is watched: in which order they get in line, and in
which order their turns to write come. The line is always what is left of the order, and
only its first has a ticket (`Turns.Lined`); a frame before the link is that of the first
in line, and whoever's turn came is past it (`Turns.Aloud`). Every step keeps both.

So at most one call is between its claim and its return, a claim always finds the slot
empty, and the turn of a call to write comes when all calls that were in line before it
have returned (`Turns.takes_turns`).

The link may do anything here: what is read, and whether a write fails, is open. No call
is given up.

Key definitions: `Turns`, `Turns.step`, `Turns.Lined`, `Turns.Aloud`, `Turns.Orderly`.
Key theorems: `Turns.Lined.step`, `Turns.Aloud.step`, `Turns.takes_turns`.
-/
import ProbeLink.Proofs.Line

namespace ProbeLink

/-! ### Taking turns -/

/-- A session with notes on its calls: in which order they got in line, in which order
their turns to write came, and whether each call had begun when the next was issued. -/
structure Turns (L : Type) where
  session : Session L
  order : List ℕ := []
  spoken : List ℕ := []
  prompt : Bool := true

/-- What can happen, with no call given up. -/
inductive Turns.Event (L : Type) where
  | move (a : Agent)
  | issue (ask : Ask)
  | advance (ms : ℕ)
  | takeQueue
  /-- Something is done with the queue of notifications. -/
  | queue (q : Notifications)
  | letGo
  /-- The far end, or whatever is below, does something to the link. -/
  | link (l : L)

namespace Turns

open CallPhase

/-- The call whose turn to write comes by the next move of an agent. -/
def speaking {L : Type} (s : Session L) : Agent → List ℕ
  | .call n => if Exchange.turnsToWrite s n then [n] else []
  | _ => []

section World

variable {L : Type} [Link L]

/-- One thing happens. What cannot happen changes nothing. -/
def step (x : Turns L) : Event L → Turns L
  | .move a =>
    if Interplay.ready x.session a then
      { x with
        session := Interplay.move x.session a
        order := x.order ++ x.session.asking a
        spoken := x.spoken ++ speaking x.session a }
    else x
  | .issue ask =>
    { x with
      session := x.session.issue ask
      prompt := x.prompt && x.session.calls.all fun c => !c.phase matches .issued }
  | .advance ms => { x with session := x.session.advance ms }
  | .takeQueue => { x with session := x.session.takeQueue.1 }
  | .queue q => { x with session := { x.session with notifications := q } }
  | .letGo => { x with session := x.session.letGo }
  | .link l => { x with session := { x.session with link := l } }

def run (x : Turns L) (es : List (Event L)) : Turns L := es.foldl step x

end World

/-- A new session on a link. -/
def start {L : Type} (link : L) (settings : SessionSettings) : Turns L :=
  { session := Session.start link settings }

variable {L : Type} {x : Turns L}

/-- The line is what is left of the order in which calls got in, and whoever was there
before has returned. Only the first in line has a ticket, and only its ticket can be in
the slot. -/
structure Lined (x : Turns L) : Prop where
  nodup : x.session.commandLine.Nodup
  line : ∀ n, n ∈ x.session.commandLine ↔ InLine (x.session.phase? n)
  first : ∀ n t, x.session.ticket? n = some t → x.session.commandLine.head? = some n
  fresh : x.session.rendezvous.Fresh
  slot : ∀ t, x.session.rendezvous.slot = some t → ∃ n, x.session.ticket? n = some t
  past : ∃ past, x.order = past ++ x.session.commandLine ∧
    ∀ n ∈ past, ∃ r, x.session.phase? n = some (.ended r)
  once : x.order.Nodup
  prompt : x.prompt = true → x.order.Pairwise (· < ·) ∧
    ∀ n, x.session.phase? n = some .issued → n + 1 = x.session.calls.length

theorem lt_length_of_phase {s : Session L} {n : ℕ} {o : CallPhase} (h : s.phase? n = some o) :
    n < s.calls.length := by
  obtain ⟨c, hc, -⟩ := Option.map_eq_some_iff.mp h
  exact (List.getElem?_eq_some_iff.mp hc).1

/-- Whoever got in line is there still or has returned. -/
theorem Lined.phase_of_mem (h : x.Lined) {n : ℕ} (hn : n ∈ x.order) :
    InLine (x.session.phase? n) ∨ ∃ r, x.session.phase? n = some (.ended r) := by
  obtain ⟨past, horder, hpast⟩ := h.past
  rw [horder] at hn
  rcases List.mem_append.mp hn with hn | hn
  · exact .inr (hpast n hn)
  · exact .inl ((h.line n).mp hn)

/-- A call that has not begun is not in the order. -/
theorem Lined.notMem_of_issued (h : x.Lined) {n : ℕ} (hn : x.session.phase? n = some .issued) :
    n ∉ x.order := by
  intro hmem
  rcases h.phase_of_mem hmem with hp | ⟨r, hp⟩
  · rw [hn] at hp
    exact hp
  · rw [hn] at hp
    cases hp

theorem Lined.lt_length (h : x.Lined) {n : ℕ} (hn : n ∈ x.order) :
    n < x.session.calls.length := by
  rcases h.phase_of_mem hn with hp | ⟨r, hp⟩
  · cases ho : x.session.phase? n with
    | none =>
      rw [ho] at hp
      exact hp.elim
    | some o => exact lt_length_of_phase ho
  · exact lt_length_of_phase hp

section Shifts

variable {s : Session L}

/-- As long as no call is issued, the last one is the only one that may not have begun. -/
theorem Lined.prompt_of (h : x.Lined) (hlength : s.calls.length = x.session.calls.length)
    (hissued : ∀ n, s.phase? n = some .issued → x.session.phase? n = some .issued)
    (hp : x.prompt = true) : x.order.Pairwise (· < ·) ∧
      ∀ n, s.phase? n = some .issued → n + 1 = s.calls.length := by
  obtain ⟨hlt, hlast⟩ := h.prompt hp
  refine ⟨hlt, fun n hn => ?_⟩
  rw [hlength]
  exact hlast n (hissued n hn)

theorem issued_of_others {n : ℕ} (calls : ∀ k ≠ n, s.phase? k = x.session.phase? k)
    (hn : s.phase? n ≠ some .issued) (k : ℕ) (hk : s.phase? k = some .issued) :
    x.session.phase? k = some .issued := by
  by_cases hkn : k = n
  · exact absurd (hkn ▸ hk) hn
  · rw [← calls k hkn, hk]

/-- Nothing happens to the line. -/
theorem Lined.still (h : x.Lined) (line : s.commandLine = x.session.commandLine)
    (slot : x.session.rendezvous.Ebbs s.rendezvous)
    (calls : ∀ n, Aside (x.session.phase? n) (s.phase? n))
    (hlength : s.calls.length = x.session.calls.length) (spoken : List ℕ) :
    ({ x with session := s, spoken } : Turns L).Lined := by
  obtain ⟨past, horder, hpast⟩ := h.past
  have hin : ∀ n, InLine (s.phase? n) ↔ InLine (x.session.phase? n) := by
    intro n
    rcases calls n with hn | ⟨h1, h2, -⟩
    · rw [hn]
    · exact iff_of_false h2 h1
  have hticket : ∀ n, s.ticket? n = x.session.ticket? n := by
    intro n
    rcases calls n with hn | ⟨h1, h2, -⟩
    · rw [Session.ticket?, hn, Session.ticket?]
    · have hnone : ∀ o : Option CallPhase, ¬InLine o → o.bind CallPhase.ticket? = none :=
        fun o ho => Option.eq_none_iff_forall_ne_some.mpr fun t ht => ho (inLine_of_ticket ht)
      rw [Session.ticket?, Session.ticket?, hnone _ h1, hnone _ h2]
  refine ⟨line ▸ h.nodup, fun n => ?_, fun n t ht => ?_, slot.fresh h.fresh, fun t ht => ?_,
    ⟨past, horder.trans (by rw [line]), fun n hn => ?_⟩, h.once, h.prompt_of hlength fun n hn => ?_⟩
  · rw [hin, line]
    exact h.line n
  · rw [line]
    exact h.first n t (hticket n ▸ ht)
  · obtain ⟨n, hn⟩ := h.slot t (slot t ht).1
    exact ⟨n, (hticket n).trans hn⟩
  · obtain ⟨r, hr⟩ := hpast n hn
    refine ⟨r, ?_⟩
    rcases calls n with hk | ⟨-, -, hlive, -⟩
    · rw [hk, hr]
    · exact absurd hr (hlive r)
  · rcases calls n with hk | ⟨-, -, -, hearly⟩
    · exact hk ▸ hn
    · rw [hn] at hearly
      exact absurd trivial hearly

/-- One more call gets in line. -/
theorem Lined.asks (h : x.Lined) {n : ℕ} (phase : x.session.phase? n = some .issued)
    (phase' : s.phase? n = some .queued) (line : s.commandLine = x.session.commandLine ++ [n])
    (slot : s.rendezvous = x.session.rendezvous)
    (calls : ∀ k ≠ n, s.phase? k = x.session.phase? k)
    (hlength : s.calls.length = x.session.calls.length) (spoken : List ℕ) :
    ({ x with session := s, order := x.order ++ [n], spoken } : Turns L).Lined := by
  obtain ⟨past, horder, hpast⟩ := h.past
  have hout : n ∉ x.session.commandLine := by
    rw [h.line, phase]
    exact id
  have hne : ∀ k ∈ x.order, k ≠ n := by
    rintro k hk rfl
    exact h.notMem_of_issued phase hk
  have hticket : ∀ k t, s.ticket? k = some t ↔ x.session.ticket? k = some t := by
    intro k t
    by_cases hk : k = n
    · rw [hk, Session.ticket?, phase', Session.ticket?, phase]
      exact iff_of_false (by rintro ⟨⟩) (by rintro ⟨⟩)
    · rw [Session.ticket?, calls k hk, Session.ticket?]
  refine ⟨?_, fun k => ?_, fun k t ht => ?_, slot ▸ h.fresh, fun t ht => ?_,
    ⟨past, ?_, fun k hk => ?_⟩, ?_, fun hp => ?_⟩
  · rw [line]
    exact List.nodup_append.mpr ⟨h.nodup, List.nodup_singleton n, fun a ha b hb hab =>
      hout (List.mem_singleton.mp hb ▸ hab ▸ ha)⟩
  · rw [line, List.mem_append, List.mem_singleton]
    by_cases hk : k = n
    · rw [hk, phase']
      exact iff_of_true (.inr rfl) trivial
    · rw [calls k hk, ← h.line k]
      exact or_iff_left hk
  · rw [line, List.head?_append, h.first k t ((hticket k t).mp ht)]
    rfl
  · obtain ⟨k, hk⟩ := h.slot t (slot ▸ ht)
    exact ⟨k, (hticket k t).mpr hk⟩
  · rw [line, horder, List.append_assoc]
  · rw [calls k (hne k (horder ▸ List.mem_append_left _ hk))]
    exact hpast k hk
  · exact List.nodup_append.mpr ⟨h.once, List.nodup_singleton n, fun a ha b hb hab =>
      hne a ha (hab.trans (List.mem_singleton.mp hb))⟩
  · -- the call is the last one, so all others in the order have smaller numbers
    have hlast := (h.prompt hp).2 n phase
    obtain ⟨hlt, hissued⟩ := h.prompt_of hlength
      (issued_of_others calls (by rw [phase']; rintro ⟨⟩)) hp
    refine ⟨List.pairwise_append.mpr ⟨hlt, List.pairwise_singleton _ _, ?_⟩, hissued⟩
    intro k hk m hm
    rw [List.mem_singleton.mp hm]
    have hklt := h.lt_length hk
    have hkn := hne k hk
    omega

/-- The first in line has a ticket now. -/
theorem Lined.commands (h : x.Lined) {n t : ℕ}
    (first : x.session.commandLine.head? = some n) (ticket : s.ticket? n = some t)
    (line : s.commandLine = x.session.commandLine)
    (slot : x.session.phase? n = some .queued ∧ s.rendezvous.slot = some t ∧
        s.rendezvous.channel t = .opened ∨
      x.session.phase? n = some (.sending t) ∧ s.rendezvous = x.session.rendezvous)
    (calls : ∀ k ≠ n, s.phase? k = x.session.phase? k)
    (hlength : s.calls.length = x.session.calls.length) (spoken : List ℕ) :
    ({ x with session := s, spoken } : Turns L).Lined := by
  obtain ⟨past, horder, hpast⟩ := h.past
  have hn : n ∈ x.session.commandLine := List.mem_of_mem_head? first
  have hne : ∀ k ∈ past, k ≠ n := by
    rintro k hk rfl
    obtain ⟨r, hr⟩ := hpast k hk
    have hin := (h.line k).mp hn
    rw [hr] at hin
    exact hin
  refine ⟨line ▸ h.nodup, fun k => ?_, fun k t' ht => ?_, ?_, fun t' ht => ?_,
    ⟨past, horder.trans (by rw [line]), fun k hk => ?_⟩, h.once,
    h.prompt_of hlength (issued_of_others calls fun hp => ?_)⟩
  · rw [line]
    by_cases hk : k = n
    · rw [hk]
      exact iff_of_true hn (inLine_of_ticket ticket)
    · rw [calls k hk]
      exact h.line k
  · rw [line]
    by_cases hk : k = n
    · rw [hk]
      exact first
    · rw [Session.ticket?, calls k hk] at ht
      exact h.first k t' ht
  · rcases slot with ⟨-, hs, ho⟩ | ⟨-, hm⟩
    · intro t' ht
      obtain rfl : t = t' := Option.some.inj (hs.symm.trans ht)
      rw [ho]
      rfl
    · rw [hm]
      exact h.fresh
  · rcases slot with ⟨-, hs, -⟩ | ⟨hp, hm⟩
    · exact ⟨n, ticket.trans (hs.symm.trans ht)⟩
    · obtain ⟨k, hk⟩ := h.slot t' (hm ▸ ht)
      by_cases hkn : k = n
      · rw [hkn, Session.ticket?, hp] at hk
        exact ⟨n, ticket.trans hk⟩
      · exact ⟨k, by rw [Session.ticket?, calls k hkn]; exact hk⟩
  · rw [calls k (hne k hk)]
    exact hpast k hk
  · rw [Session.ticket?, hp] at ticket
    cases ticket

/-- The first in line returns. -/
theorem Lined.returns (h : x.Lined) {n : ℕ} {r : Except SessionError Answer}
    (first : x.session.commandLine.head? = some n) (phase' : s.phase? n = some (.ended r))
    (line : s.commandLine = x.session.commandLine.erase n)
    (slot : x.session.rendezvous.Ebbs s.rendezvous)
    (gone : ∀ t, x.session.ticket? n = some t → s.rendezvous.slot ≠ some t)
    (calls : ∀ k ≠ n, s.phase? k = x.session.phase? k)
    (hlength : s.calls.length = x.session.calls.length) (spoken : List ℕ) :
    ({ x with session := s, spoken } : Turns L).Lined := by
  obtain ⟨past, horder, hpast⟩ := h.past
  obtain ⟨rest, hrest⟩ : ∃ rest, x.session.commandLine = n :: rest :=
    List.head?_eq_some_iff.mp first
  have hline : s.commandLine = rest := by rw [line, hrest, List.erase_cons_head]
  obtain ⟨hout, hnodup⟩ := List.nodup_cons.mp (hrest ▸ h.nodup)
  -- nobody else had a ticket, so nobody has one now
  have hnobody : ∀ k t, s.ticket? k ≠ some t := by
    intro k t ht
    by_cases hk : k = n
    · rw [hk, Session.ticket?, phase'] at ht
      cases ht
    · rw [Session.ticket?, calls k hk] at ht
      exact hk (Option.some.inj ((h.first k t ht).symm.trans first))
  refine ⟨hline ▸ hnodup, fun k => ?_, fun k t ht => absurd ht (hnobody k t),
    slot.fresh h.fresh, fun t ht => ?_, ⟨past ++ [n], ?_, fun k hk => ?_⟩, h.once,
    h.prompt_of hlength (issued_of_others calls (by rw [phase']; rintro ⟨⟩))⟩
  · rw [hline]
    by_cases hk : k = n
    · rw [hk, phase']
      exact iff_of_false hout id
    · rw [calls k hk, ← h.line k, hrest, List.mem_cons]
      exact (or_iff_right hk).symm
  · obtain ⟨k, hk⟩ := h.slot t (slot t ht).1
    obtain rfl : k = n := Option.some.inj ((h.first k t hk).symm.trans first)
    exact absurd ht (gone t hk)
  · rw [hline, horder, hrest, List.append_assoc]
    rfl
  · by_cases hkn : k = n
    · exact ⟨r, hkn ▸ phase'⟩
    · rw [calls k hkn]
      refine hpast k ((List.mem_append.mp hk).resolve_right fun hk => hkn ?_)
      exact List.mem_singleton.mp hk

/-- **What a step does to the line keeps it in order.** -/
theorem Lined.shift (h : x.Lined) {js : List ℕ} (hs : x.session.Shift s js)
    (hlength : s.calls.length = x.session.calls.length) (spoken : List ℕ) :
    ({ x with session := s, order := x.order ++ js, spoken } : Turns L).Lined := by
  cases hs with
  | still line slot calls =>
    rw [List.append_nil]
    exact h.still line slot calls hlength spoken
  | asks n phase phase' line slot calls => exact h.asks phase phase' line slot calls hlength spoken
  | commands n t first ticket line slot calls =>
    rw [List.append_nil]
    exact h.commands first ticket line slot calls hlength spoken
  | returns n r first phase' line slot gone calls =>
    rw [List.append_nil]
    exact h.returns first phase' line slot gone calls hlength spoken

end Shifts

theorem Lined.quiet (h : x.Lined) {s : Session L} (hs : x.session.Quiet s) :
    ({ x with session := s } : Turns L).Lined := by
  have hnext := h.shift hs.shift (by rw [hs.calls]) x.spoken
  rwa [List.append_nil] at hnext

theorem phase?_issue (s : Session L) (ask : Ask) (n : ℕ) :
    (s.issue ask).phase? n = if n = s.calls.length then some .issued else s.phase? n := by
  by_cases hn : n = s.calls.length
  · rw [if_pos hn, hn, Session.phase?, Session.issue, List.getElem?_concat_length]
    rfl
  · rw [if_neg hn, Session.phase?, Session.getElem?_issue_ne s ask hn, Session.phase?]

/-- A call that was issued before is where it was. -/
theorem phase?_issue_old {s : Session L} {ask : Ask} {n : ℕ} {o : CallPhase}
    (h : s.phase? n = some o) : (s.issue ask).phase? n = some o := by
  rw [phase?_issue, if_neg (lt_length_of_phase h).ne, h]

theorem Lined.issue (h : x.Lined) (ask : Ask) (prompt : Bool)
    (hprompt : prompt = true → x.prompt = true ∧ ∀ n, x.session.phase? n ≠ some .issued) :
    ({ x with session := x.session.issue ask, prompt } : Turns L).Lined := by
  obtain ⟨past, horder, hpast⟩ := h.past
  have hticket : ∀ n, (x.session.issue ask).ticket? n = x.session.ticket? n := by
    intro n
    rw [Session.ticket?, phase?_issue, Session.ticket?]
    split
    · rename_i hn
      have hnone : x.session.phase? n = none := by
        rw [Session.phase?, List.getElem?_eq_none hn.ge, Option.map_none]
      rw [hnone]
      rfl
    · rfl
  refine ⟨h.nodup, fun n => ?_, fun n t ht => h.first n t (hticket n ▸ ht), h.fresh, fun t ht => ?_,
    ⟨past, horder, fun n hn => ?_⟩, h.once, fun hp => ?_⟩
  · refine (h.line n).trans ?_
    show _ ↔ InLine ((x.session.issue ask).phase? n)
    rw [phase?_issue]
    split
    · rename_i hn
      have hnone : x.session.phase? n = none := by
        rw [Session.phase?, List.getElem?_eq_none hn.ge, Option.map_none]
      rw [hnone]
      exact Iff.rfl
    · exact Iff.rfl
  · obtain ⟨n, hn⟩ := h.slot t ht
    exact ⟨n, (hticket n).trans hn⟩
  · obtain ⟨r, hr⟩ := hpast n hn
    exact ⟨r, phase?_issue_old hr⟩
  · obtain ⟨hp, hnone⟩ := hprompt hp
    refine ⟨(h.prompt hp).1, fun n hn => ?_⟩
    rw [phase?_issue] at hn
    split at hn
    · rename_i heq
      rw [heq, Session.issue, List.length_append, List.length_singleton]
    · exact absurd hn (hnone n)

/-! ### Calls that write -/

/-- The turns to write came in the order of the line, and the frame that is kept is that
of the call whose turn came last. -/
structure Aloud (x : Turns L) : Prop where
  owned : ∀ e ∈ x.session.outlet.line, x.session.Owned e
  spoken : x.spoken.Sublist x.order
  late : ∀ n ∈ x.spoken, ¬Early (x.session.phase? n)
  turn : ∀ n ∈ x.spoken, ∀ t, x.session.phase? n = some (.sending t) →
    ∃ e r, x.session.outlet.line = e :: r ∧ e.agent = .call n ∧ e.begun = true
  last : x.session.outlet.last = x.spoken.getLast?.bind x.session.frame?

/-- A call that neither moves in the line before the link nor is moved there by others
may do what it likes. -/
theorem Aloud.transfer (h : x.Aloud) {s : Session L} (js : List ℕ) (prompt : Bool)
    (hframe : ∀ n o, x.session.phase? n = some o → s.frame? n = x.session.frame? n)
    (hkeep : ∀ n t, x.session.phase? n = some (.sending t) → s.phase? n = some (.sending t))
    (hlate : ∀ n, ¬Early (x.session.phase? n) → ¬Early (s.phase? n) ∧
      ∀ t, s.phase? n = some (.sending t) → x.session.phase? n = some (.sending t))
    (hline : ∀ e ∈ s.outlet.line, e ∈ x.session.outlet.line ∨ s.Owned e)
    (hhead : ∀ e r n, x.session.outlet.line = e :: r → e.agent = .call n →
      ∃ r', s.outlet.line = e :: r')
    (hlast : s.outlet.last = x.session.outlet.last) :
    ({ x with session := s, order := x.order ++ js, prompt } : Turns L).Aloud := by
  refine ⟨fun e he => ?_, h.spoken.trans (List.sublist_append_left _ _),
    fun n hn => (hlate n (h.late n hn)).1, fun n hn t ht => ?_, ?_⟩
  · rcases hline e he with hold | hnew
    · exact (h.owned e hold).mono fun n t _ hp => ⟨⟨t, hkeep n t hp⟩, hframe n _ hp⟩
    · exact hnew
  · obtain ⟨e, r, hw, ha, hb⟩ := h.turn n hn t ((hlate n (h.late n hn)).2 t ht)
    obtain ⟨r', hr'⟩ := hhead e r n hw ha
    exact ⟨e, r', hr', ha, hb⟩
  · rw [hlast, h.last]
    cases hs : x.spoken.getLast? with
    | none => rfl
    | some n =>
      have hn : n ∈ x.spoken := List.mem_of_getLast? hs
      cases ho : x.session.phase? n with
      | none =>
        have hlate := h.late n hn
        rw [ho] at hlate
        exact absurd trivial hlate
      | some o => exact (hframe n o ho).symm

theorem Aloud.quiet (h : x.Aloud) {s : Session L} (hs : x.session.Quiet s)
    (hw : s.outlet = x.session.outlet) : ({ x with session := s } : Turns L).Aloud := by
  have hnext := h.transfer (s := s) [] x.prompt (fun n _ _ => Session.frame?_of_calls hs.calls n)
    (fun n t hp => (hs.phase n).trans hp) (fun n hn => ?_) (fun e he => .inl (hw ▸ he))
    (fun e r n hl _ => ⟨r, hw ▸ hl⟩) (by rw [hw])
  · rwa [List.append_nil] at hnext
  · rw [hs.phase n]
    exact ⟨hn, fun _ => id⟩

/-- When the turn of the first in line comes, all calls that spoke before are those that
have returned. -/
theorem Aloud.spoken_append (h : x.Aloud) (hlined : x.Lined) {n t : ℕ}
    (hp : x.session.phase? n = some (.sending t)) (hn : n ∉ x.spoken) :
    (x.spoken ++ [n]).Sublist x.order := by
  have hticket : x.session.ticket? n = some t := by rw [Session.ticket?, hp]; rfl
  have hfirst := hlined.first n t hticket
  obtain ⟨past, horder, hpast⟩ := hlined.past
  obtain ⟨rest, hrest⟩ : ∃ rest, x.session.commandLine = n :: rest :=
    List.head?_eq_some_iff.mp hfirst
  have hspoken := h.spoken
  rw [horder] at hspoken ⊢
  obtain ⟨old, new, hsplit, hold, hnew⟩ := List.sublist_append_iff.mp hspoken
  -- whoever is in line and past its claim is the first
  have hnil : new = [] := by
    refine List.eq_nil_iff_forall_not_mem.mpr fun k hk => ?_
    have hmem : k ∈ x.spoken := hsplit ▸ List.mem_append_right _ hk
    obtain ⟨t', ht'⟩ := ticket_of_inLine ((hlined.line k).mp (hnew.subset hk)) (h.late k hmem)
    have hkn : k = n := Option.some.inj ((hlined.first k t' ht').symm.trans hfirst)
    exact hn (hkn ▸ hmem)
  rw [hsplit, hnil, List.append_nil, hrest]
  exact hold.append ((List.nil_sublist rest).cons_cons n)

theorem lined_start (link : L) (settings : SessionSettings) : (start link settings).Lined where
  nodup := List.nodup_nil
  line _ := iff_of_false List.not_mem_nil id
  first _ _ := nofun
  fresh _ := nofun
  slot _ := nofun
  past := ⟨[], rfl, nofun⟩
  once := List.nodup_nil
  prompt _ := ⟨.nil, fun _ => nofun⟩

theorem aloud_start (link : L) (settings : SessionSettings) : (start link settings).Aloud where
  owned := nofun
  spoken := .slnil
  late := nofun
  turn := nofun
  last := rfl

section Steps

variable [Link L]

/-- **Every step keeps the line in order.** -/
theorem Lined.step (h : x.Lined) (e : Event L) : (x.step e).Lined := by
  cases e with
  | move a =>
    simp only [Turns.step]
    split
    · rename_i hr
      cases a with
      | reader =>
        have hquiet := Session.quiet_moveReader x.session
        exact h.shift hquiet.shift (congrArg _ hquiet.calls) _
      | call n =>
        refine h.shift (Session.shift_moveCall h.fresh h.line h.first hr) ?_ _
        have hlength := congrArg List.length (Session.asks_moveCall x.session n)
        rwa [List.length_map, List.length_map] at hlength
      | release | porter | chance | farWriter | farReader =>
        exact h.shift (x.session.quiet_link x.session.outlet
          (Link.helperMove x.session.link _)).shift rfl _
    · exact h
  | issue ask =>
    refine h.issue ask _ fun hp => ?_
    simp only [Bool.and_eq_true, List.all_eq_true, Bool.not_eq_true'] at hp
    refine ⟨hp.1, fun n hn => ?_⟩
    obtain ⟨c, hc, hphase⟩ := Option.map_eq_some_iff.mp hn
    have hbegun := hp.2 c (List.mem_of_getElem? hc)
    rw [hphase] at hbegun
    cases hbegun
  | advance ms => exact h.quiet ⟨rfl, rfl, .refl _⟩
  | takeQueue => exact h.quiet ⟨rfl, rfl, .refl _⟩
  | queue q => exact h.quiet ⟨rfl, rfl, .refl _⟩
  | letGo =>
    refine h.quiet (Session.Quiet.trans ?_ (Session.quiet_closeIfForgotten _))
    exact ⟨rfl, rfl, .refl _⟩
  | link l => exact h.quiet (Session.quiet_link _ x.session.outlet l)

theorem frame?_moveCall (s : Session L) (n k : ℕ) : (s.moveCall n).frame? k = s.frame? k := by
  have hasks := congrArg (·[k]?) (Session.asks_moveCall s n)
  simp only [List.getElem?_map] at hasks
  have hframe : ∀ s : Session L, s.frame? k
      = (s.calls[k]?.map Call.ask).bind fun a => a.body?.map fun b => commandFrame b.1 b.2 := by
    intro s
    rw [Session.frame?]
    cases s.calls[k]? <;> rfl
  rw [hframe, hframe, hasks]

theorem Aloud.moveReader (h : x.Aloud) (hr : x.session.readerReady = true) :
    ({ x with session := x.session.moveReader } : Turns L).Aloud := by
  have hquiet := Session.quiet_moveReader x.session
  rcases Session.outlet_moveReader hr with hw | ⟨o, ho, hw⟩ | ⟨hr, hw⟩
  · exact h.quiet hquiet hw
  · have hnext := h.transfer (s := x.session.moveReader) [] x.prompt
      (fun n _ _ => Session.frame?_of_calls hquiet.calls n)
      (fun n t hp => (hquiet.phase n).trans hp)
      (fun n hn => by rw [hquiet.phase n]; exact ⟨hn, fun _ => id⟩) (fun e he => ?_)
      (fun e r n hl _ => hw ▸ Outlet.head_enter hl) (by rw [hw]; rfl)
    · rwa [List.append_nil] at hnext
    · rw [hw] at he
      refine (List.mem_append.mp he).imp_right fun he => ?_
      rw [List.mem_singleton.mp he]
      cases o with
      | frame bytes => exact absurd rfl (ho bytes)
      | ack | again => exact rfl
  · obtain ⟨e, r, hline, ha⟩ := Outlet.ready_agent hr
    have howned := h.owned e (hline ▸ List.mem_cons_self)
    obtain ⟨hmoved, hlast⟩ := Outlet.move_first x.session.link hline ha
    have hsame : x.session.moveReader.outlet.last = x.session.outlet.last := by
      rw [hw, hlast]
      split
      · rename_i bytes hf _
        exact absurd hf (howned.ne_frame ha bytes)
      · rfl
    have hnext := h.transfer (s := x.session.moveReader) [] x.prompt
      (fun n _ _ => Session.frame?_of_calls hquiet.calls n)
      (fun n t hp => (hquiet.phase n).trans hp)
      (fun n hn => by rw [hquiet.phase n]; exact ⟨hn, fun _ => id⟩) (fun e' he => ?_)
      (fun e' r' n hl hn => ?_) hsame
    · rwa [List.append_nil] at hnext
    · rw [hw] at he
      rcases hmoved with ⟨-, hl⟩ | ⟨-, hl⟩ <;> rw [hl] at he
      · rcases List.mem_cons.mp he with rfl | he
        · refine .inr (howned.begun.mono fun n t hn _ => ?_)
          cases ha.symm.trans hn
        · exact .inl (hline ▸ List.mem_cons_of_mem _ he)
      · exact .inl (hline ▸ List.mem_cons_of_mem _ (List.mem_filter.mp he).1)
    · rw [hline] at hl
      obtain rfl := (List.cons.inj hl).1
      cases ha.symm.trans hn

/-- A call that does not write yet may claim a reply, and joins the line before the link
then. -/
theorem Aloud.moveOther (h : x.Aloud) (hlined : x.Lined) {n : ℕ}
    (hr : x.session.callReady n = true) (hns : ∀ t, x.session.phase? n ≠ some (.sending t)) :
    ({ x with
      session := x.session.moveCall n
      order := x.order ++ x.session.asking (.call n) } : Turns L).Aloud := by
  have hshift := Session.shift_moveCall hlined.fresh hlined.line hlined.first hr
  refine h.transfer _ x.prompt (fun k _ _ => frame?_moveCall x.session n k) (fun k t hp => ?_)
    (fun k hk => ?_) (fun e he => ?_) (fun e r k hl _ => ?_) ?_
  · have hne : k ≠ n := by
      rintro rfl
      exact hns t hp
    rw [Session.phase?_moveCall_ne _ hne, hp]
  · by_cases hne : k = n
    · rw [hne] at hk ⊢
      obtain ⟨h1, h2⟩ := hshift.not_sending hk hns
      exact ⟨h1, fun t ht => absurd ht (h2 t)⟩
    · rw [Session.phase?_moveCall_ne _ hne]
      exact ⟨hk, fun _ => id⟩
  · rcases Session.outlet_moveCall hns with hw | ⟨t, bytes, hp, hf, hw⟩
    · exact .inl (hw ▸ he)
    · rw [hw] at he
      refine (List.mem_append.mp he).imp_right fun he => ?_
      rw [List.mem_singleton.mp he]
      exact ⟨n, t, rfl, hp, (frame?_moveCall x.session n n).trans hf⟩
  · rcases Session.outlet_moveCall hns with hw | ⟨t, bytes, -, -, hw⟩
    · exact ⟨r, hw ▸ hl⟩
    · exact hw ▸ Outlet.head_enter hl
  · rcases Session.outlet_moveCall hns with hw | ⟨t, bytes, -, -, hw⟩ <;> rw [hw]
    rfl

/-- What a call leaves whose frame is written on. -/
theorem afterSend_outlet {s : Session L} {n t : ℕ} (hp : s.phase? n = some (.sending t))
    (r : Outlet × L × Progress Written) : (s.afterSend n t r).outlet = r.1 ∧
      (r.2.2 = none ∧ (s.afterSend n t r).phase? n = some (.sending t) ∨
        r.2.2 ≠ none ∧ ¬Early ((s.afterSend n t r).phase? n) ∧
          ∀ t', (s.afterSend n t r).phase? n ≠ some (.sending t')) := by
  obtain ⟨w, l, _ | (e | v)⟩ := r
  · exact ⟨rfl, .inl ⟨rfl, hp⟩⟩
  · have hphase : (s.afterSend n t (w, l, some (.error e))).phase? n = some (.ended (.error _)) :=
      Session.phase?_finish (by exact hp) _
    refine ⟨Session.outlet_finish _ n _, .inr ⟨nofun, ?_⟩⟩
    rw [hphase]
    exact ⟨id, nofun⟩
  · have hphase : (s.afterSend n t (w, l, some (.ok v))).phase? n = some (.awaiting t _) :=
      Session.phase?_setPhase_self (by exact hp) _
    refine ⟨rfl, .inr ⟨nofun, ?_⟩⟩
    rw [hphase]
    exact ⟨id, nofun⟩

/-- **A call that writes** is the only one, and its frame is the one that is kept. -/
theorem Aloud.moveSender (h : x.Aloud) (hlined : x.Lined) {n t : ℕ}
    (hr : x.session.outlet.ready x.session.link (.call n) = true)
    (hp : x.session.phase? n = some (.sending t)) :
    ({ x with
      session := x.session.moveCall n
      spoken := x.spoken ++ speaking x.session (.call n) } : Turns L).Aloud := by
  obtain ⟨e, r, hline, ha⟩ := Outlet.ready_agent hr
  obtain ⟨hmoved, hlast⟩ := Outlet.move_first x.session.link hline ha
  obtain ⟨houtlet, hphase⟩ := afterSend_outlet hp
    (x.session.outlet.move x.session.link (.call n))
  rw [← Session.moveCall_of_sending hp] at houtlet hphase
  have hother : ∀ k ≠ n, (x.session.moveCall n).phase? k = x.session.phase? k :=
    fun k hk => Session.phase?_moveCall_ne _ hk
  have hframe := frame?_moveCall x.session n
  have howned := h.owned e (hline ▸ List.mem_cons_self)
  obtain ⟨bytes, hout, hbytes⟩ := howned.frame ha
  have hkeeps (e' : Outlet.Entry) (howned' : x.session.Owned e')
      (hn : e'.agent = .call n → (x.session.moveCall n).phase? n = some (.sending t)) :
      (x.session.moveCall n).Owned e' := by
    refine howned'.mono fun k t' hk hp' => ⟨?_, hframe k⟩
    by_cases hkn : k = n
    · exact ⟨t, hkn ▸ hn (hkn ▸ hk)⟩
    · exact ⟨t', (hother k hkn).trans hp'⟩
  have hspeaking : speaking x.session (.call n) = if e.begun then [] else [n] := by
    obtain ⟨agent, outgoing, begun⟩ := e
    simp only [speaking, Exchange.turnsToWrite, hp, hline]
    cases begun <;> rfl
  have hlate : ¬Early ((x.session.moveCall n).phase? n) := by
    rcases hphase with ⟨-, hp'⟩ | ⟨-, hp', -⟩
    · rw [hp']
      exact id
    · exact hp'
  have hmem : ∀ k ∈ x.spoken ++ speaking x.session (.call n), k ≠ n → k ∈ x.spoken := by
    intro k hk hkn
    refine (List.mem_append.mp hk).resolve_right fun hk => hkn ?_
    rw [hspeaking] at hk
    split at hk
    · cases hk
    · exact List.mem_singleton.mp hk
  refine ⟨fun e' he => ?_, ?_, fun k hk => ?_, fun k hk t' ht => ?_, ?_⟩
  · rw [houtlet] at he
    rcases hmoved with ⟨hnone, hl⟩ | ⟨hsome, hl⟩ <;> rw [hl] at he
    · have hsending := (hphase.resolve_right fun hno => hno.1 hnone).2
      refine hkeeps e' ?_ fun _ => hsending
      rcases List.mem_cons.mp he with rfl | he
      · exact howned.begun
      · exact h.owned e' (hline ▸ List.mem_cons_of_mem _ he)
    · obtain ⟨he, hne⟩ := List.mem_filter.mp he
      refine hkeeps e' (h.owned e' (hline ▸ List.mem_cons_of_mem _ he)) fun hn => ?_
      simp [hn] at hne
  · rw [hspeaking]
    cases hb : e.begun with
    | true =>
      rw [if_pos rfl, List.append_nil]
      exact h.spoken
    | false =>
      refine h.spoken_append hlined hp fun hn => ?_
      obtain ⟨e', r', hl, -, hb'⟩ := h.turn n hn t hp
      rw [hline] at hl
      rw [(List.cons.inj hl).1, hb'] at hb
      cases hb
  · by_cases hkn : k = n
    · rw [hkn]
      exact hlate
    · rw [hother k hkn]
      exact h.late k (hmem k hk hkn)
  · by_cases hkn : k = n
    · rw [hkn] at ht ⊢
      rcases hphase with ⟨hnone, -⟩ | ⟨-, -, hno⟩
      · have hl := (hmoved.resolve_right fun hsome => hsome.1 hnone).2
        exact ⟨{ e with begun := true }, r, by rw [houtlet, hl], ha, rfl⟩
      · exact absurd ht (hno t')
    · -- no other call writes
      rw [hother k hkn] at ht
      have h1 := hlined.first k t' (by rw [Session.ticket?, ht]; rfl)
      have h2 := hlined.first n t (by rw [Session.ticket?, hp]; rfl)
      exact absurd (Option.some.inj (h1.symm.trans h2)) hkn
  · rw [houtlet, hlast, hspeaking, hout]
    cases e.begun with
    | true =>
      rw [if_pos rfl, List.append_nil]
      refine h.last.trans ?_
      cases x.spoken.getLast? with
      | none => rfl
      | some k => exact (hframe k).symm
    | false =>
      have hlast : (x.spoken ++ [n]).getLast? = some n := List.getLast?_concat
      simp only [Bool.false_eq_true, if_false, hlast, Option.bind_some, hframe, hbytes]

/-- **Every step keeps the order of those who write.** -/
theorem Aloud.step (h : x.Aloud) (hlined : x.Lined) (e : Event L) : (x.step e).Aloud := by
  cases e with
  | move a =>
    simp only [Turns.step]
    split
    · rename_i hr
      cases a with
      | reader =>
        simp only [Session.asking, speaking, List.append_nil]
        exact h.moveReader hr
      | call n =>
        by_cases hs : ∃ t, x.session.phase? n = some (.sending t)
        · obtain ⟨t, hp⟩ := hs
          obtain ⟨⟨ask, phase⟩, hc, rfl⟩ := Option.map_eq_some_iff.mp hp
          simp only [Session.asking, hc, List.append_nil]
          exact h.moveSender hlined (Session.ready_of_sending hp hr) hp
        · have hns : ∀ t, x.session.phase? n ≠ some (.sending t) := fun t ht => hs ⟨t, ht⟩
          have hquiet : speaking x.session (.call n) = [] := by
            rw [speaking, Exchange.turnsToWrite_eq_false hns]
            rfl
          rw [hquiet, List.append_nil]
          exact h.moveOther hlined hr hns
      | release | porter | chance | farWriter | farReader =>
        simp only [Session.asking, speaking, List.append_nil]
        exact h.quiet (x.session.quiet_link x.session.outlet (Link.helperMove x.session.link _)) rfl
    · exact h
  | issue ask =>
    have hnext := h.transfer (s := x.session.issue ask) [] (x.step (.issue ask)).prompt
      (fun n o ho => ?_)
      (fun n t hp => phase?_issue_old hp) (fun n hn => ?_) (fun e he => .inl he)
      (fun e r n hl _ => ⟨r, hl⟩) rfl
    · rwa [List.append_nil] at hnext
    · rw [Session.frame?, Session.issue, List.getElem?_append_left (lt_length_of_phase ho),
        Session.frame?]
    · cases ho : x.session.phase? n with
      | none =>
        rw [ho] at hn
        exact absurd trivial hn
      | some o =>
        rw [phase?_issue_old ho, ← ho]
        exact ⟨hn, fun _ => id⟩
  | advance ms => exact h.quiet ⟨rfl, rfl, .refl _⟩ rfl
  | takeQueue => exact h.quiet ⟨rfl, rfl, .refl _⟩ rfl
  | queue q => exact h.quiet ⟨rfl, rfl, .refl _⟩ rfl
  | letGo =>
    refine h.quiet (Session.Quiet.trans ?_ (Session.quiet_closeIfForgotten _)) ?_
    · exact ⟨rfl, rfl, .refl _⟩
    · simp only [Session.letGo, Session.closeIfForgotten]
      split <;> rfl
  | link l => exact h.quiet (Session.quiet_link _ x.session.outlet l) rfl

/-! ### Runs -/

/-- **Calls take turns.** -/
structure Orderly (x : Turns L) : Prop where
  /-- At most one call is between its claim and its return. -/
  alone : ∀ n k, x.session.ticket? n ≠ none → x.session.ticket? k ≠ none → n = k
  /-- The notes know every call that is in line. -/
  noted : ∀ n, InLine (x.session.phase? n) → n ∈ x.order
  /-- When a call is between its claim and its return, and when its turn to write has come,
  every call that was in line before it has returned. -/
  before : ∀ before n behind, x.order = before ++ n :: behind →
    x.session.ticket? n ≠ none ∨ n ∈ x.spoken →
    ∀ k ∈ before, ∃ r, x.session.phase? k = some (.ended r)
  /-- No call gets in line twice. -/
  once : x.order.Nodup
  /-- The turns to write come in the order of the line. -/
  spoken : x.spoken.Sublist x.order
  /-- If each call had begun when the next was issued, that is the order of their numbers. -/
  prompt : x.prompt = true → x.order.Pairwise (· < ·)
  /-- The frame that is kept to be written again is that of the call whose turn came last. -/
  last : x.session.outlet.last = x.spoken.getLast?.bind x.session.frame?
  /-- The slot is empty when no call is between its claim and its return. -/
  empty : (∀ n, x.session.ticket? n = none) → x.session.rendezvous.slot = none
  /-- A claim finds the slot empty. -/
  claims : ∀ n, x.session.phase? n = some .queued → x.session.callReady n = true →
    x.session.rendezvous.slot = none

theorem run_sound : ∀ {x : Turns L} (es : List (Event L)), x.Lined → x.Aloud →
    (x.run es).Lined ∧ (x.run es).Aloud
  | _, [], h, ha => ⟨h, ha⟩
  | _, e :: es, h, ha => run_sound es (h.step e) (ha.step h e)

theorem takes_turns (link : L) (settings : SessionSettings) (es : List (Event L)) :
    ((start link settings).run es).Orderly := by
  obtain ⟨h, ha⟩ := run_sound es (lined_start link settings) (aloud_start link settings)
  set x := (start link settings).run es
  have hfirst : ∀ n, x.session.ticket? n ≠ none → x.session.commandLine.head? = some n := by
    intro n hn
    obtain ⟨t, ht⟩ := Option.ne_none_iff_exists'.mp hn
    exact h.first n t ht
  have hempty : (∀ n, x.session.ticket? n = none) → x.session.rendezvous.slot = none := by
    intro hnone
    refine Option.eq_none_iff_forall_ne_some.mpr fun t hs => ?_
    obtain ⟨n, hn⟩ := h.slot t hs
    rw [hnone n] at hn
    cases hn
  obtain ⟨past, horder, hpast⟩ := h.past
  refine ⟨fun n k hn hk => ?_, fun n hn => ?_, ?_, h.once, ha.spoken, fun hp => (h.prompt hp).1,
    ha.last, hempty, fun n hp hr => hempty fun k => ?_⟩
  · exact Option.some.inj ((hfirst n hn).symm.trans (hfirst k hk))
  · rw [horder]
    exact List.mem_append_right _ ((h.line n).mpr hn)
  · intro before n behind hsplit hn k hk
    rw [horder] at hsplit
    rcases List.append_eq_append_iff.mp hsplit with ⟨rest, rfl, hline⟩ | ⟨rest, rfl, -⟩
    · -- whoever has a ticket is the first in line
      have hmem : n ∈ x.session.commandLine := hline ▸ List.mem_append_right _ List.mem_cons_self
      have hticket : x.session.ticket? n ≠ none := by
        refine hn.elim id fun hn => ?_
        obtain ⟨t, ht⟩ := ticket_of_inLine ((h.line n).mp hmem) (ha.late n hn)
        exact Option.ne_none_iff_exists'.mpr ⟨t, ht⟩
      have hhead := hfirst n hticket
      cases rest with
      | nil => exact hpast k (List.append_nil past ▸ hk)
      | cons m rest =>
        rw [hline, List.cons_append, List.head?_cons] at hhead
        have hnodup := h.nodup
        rw [hline, List.cons_append, Option.some.inj hhead] at hnodup
        have hout := (List.nodup_cons.mp hnodup).1
        exact absurd (List.mem_append_right _ List.mem_cons_self) hout
    · exact hpast k (List.mem_append_left _ hk)
  · by_contra hk
    have hready : x.session.commandLine.head? = some n := by
      obtain ⟨⟨ask, phase⟩, hc, rfl⟩ := Option.map_eq_some_iff.mp hp
      simpa only [Session.callReady, hc, beq_iff_eq] using hr
    obtain rfl : k = n := Option.some.inj ((hfirst k hk).symm.trans hready)
    rw [Session.ticket?, hp] at hk
    exact hk rfl

end Steps

end Turns

end ProbeLink
