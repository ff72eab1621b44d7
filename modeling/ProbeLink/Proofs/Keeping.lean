/-
# What a move of a session leaves alone

Most of what happens in a session changes nothing that a waiting call relies on:
the framer stands where it stood, no byte is read, no old ticket gets into the
slot or gains a packet, and every call stays in its phase or leaves the part of
its life that has to do with a reply. `Session.Keeps` says so of two states, for
all calls but some; it is reflexive and transitive, and each operation of a
session gets one lemma.

Key definitions: `Rendezvous.Fades`, `CallPhase.Calms`, `Session.Keeps`.
Key theorems: `Session.keeps_moveReader`, `Session.moveReader_byte`,
`Session.keeps_moveCall`, `Session.keeps_abort`.
-/
import Mathlib.Data.Set.Basic
import ProbeLink.Proofs.FarEnd
import ProbeLink.Proofs.Reading
import ProbeLink.Session.Control

namespace ProbeLink

/-! ### The slot and the channels -/

namespace Rendezvous

/-- No ticket that was given out gains a packet, and none gets into the slot. -/
structure Fades (m m' : Rendezvous) : Prop where
  length : m.channels.length ≤ m'.channels.length
  slot : ∀ t, t < m.channels.length → m'.slot = some t → m.slot = some t
  full : ∀ t p, t < m.channels.length → m'.channel t = .full p → m.channel t = .full p

theorem Fades.refl (m : Rendezvous) : m.Fades m := ⟨le_rfl, fun _ _ h => h, fun _ _ _ h => h⟩

theorem Fades.trans {m m' m'' : Rendezvous} (h : m.Fades m') (k : m'.Fades m'') : m.Fades m'' :=
  ⟨h.length.trans k.length,
    fun t ht hs => h.slot t ht (k.slot t (ht.trans_le h.length) hs),
    fun t p ht hp => h.full t p ht (k.full t p (ht.trans_le h.length) hp)⟩

theorem channel_set (m : Rendezvous) (id t : ℕ) (c : Channel) (slot : Option ℕ) :
    ({ m with slot, channels := m.channels.set id c } : Rendezvous).channel t
      = if id = t ∧ t < m.channels.length then c else m.channel t := by
  simp only [channel, List.getD_eq_getElem?_getD, List.getElem?_set]
  by_cases hid : id = t
  · subst hid
    by_cases hlt : id < m.channels.length
    · simp [hlt]
    · simp [hlt]
  · simp [hid]

/-- A channel that is changed without a packet is no fuller. -/
theorem fades_set (m : Rendezvous) (id : ℕ) {c : Channel} (hc : ∀ p, c ≠ .full p) :
    m.Fades { m with channels := m.channels.set id c } := by
  refine ⟨by simp, fun _ _ h => h, fun t p _ hp => ?_⟩
  rw [channel_set] at hp
  split at hp
  · exact absurd hp (hc p)
  · exact hp

theorem fades_slot_none (m : Rendezvous) : m.Fades { m with slot := none } :=
  ⟨le_rfl, nofun, fun _ _ _ h => h⟩

theorem fades_hangUp (m : Rendezvous) (id : ℕ) : m.Fades (m.hangUp id) := by
  unfold hangUp
  split
  · exact m.fades_set id nofun
  · exact .refl m

theorem fades_clear (m : Rendezvous) : m.Fades m.clear := by
  unfold clear
  split
  · exact (m.fades_hangUp _).trans (fades_slot_none _)
  · exact .refl m

theorem fades_withdraw (m : Rendezvous) (id : ℕ) : m.Fades (m.withdraw id) := by
  unfold withdraw
  split
  · exact m.fades_clear
  · exact .refl m

theorem fades_close (m : Rendezvous) : m.Fades m.close :=
  m.fades_clear.trans ⟨le_rfl, fun _ _ h => h, fun _ _ _ h => h⟩

theorem fades_abandon (m : Rendezvous) (id : ℕ) : m.Fades (m.abandon id) := m.fades_set id nofun

/-- A claim gives a ticket of its own, and nothing is handed over for it yet. -/
theorem claim_eq_some {m m' : Rendezvous} {t : ℕ} (h : m.claim = (m', some t)) :
    m.Fades m' ∧ t < m'.channels.length ∧ m'.channel t = .opened := by
  unfold claim at h
  split at h
  · cases h
  · cases h
    have hlen : m.clear.channels.length < (m.clear.channels ++ [Channel.opened]).length := by simp
    refine ⟨m.fades_clear.trans ⟨hlen.le, ?_, ?_⟩, hlen, ?_⟩
    · intro t ht hs
      cases hs
      exact absurd ht (lt_irrefl _)
    · intro t p ht hp
      simp only [channel, List.getD_eq_getElem?_getD, List.getElem?_append_left ht] at hp ⊢
      exact hp
    · simp [channel, List.getD_eq_getElem?_getD]

theorem claim_eq_none {m m' : Rendezvous} (h : m.claim = (m', none)) : m' = m := by
  unfold claim at h
  split at h <;> cases h
  rfl

/-- What an offer can do for a ticket: hand the packet over if the slot is the
ticket's. -/
theorem offer_full {m : Rendezvous} {p q : Packet} {t : ℕ} (h : (m.offer p).1.channel t = .full q) :
    m.channel t = .full q ∨ m.slot = some t ∧ q = p := by
  unfold offer at h
  split at h
  · exact .inl h
  · rename_i id hs
    split at h
    · rw [channel_set] at h
      split at h
      · rename_i hid
        cases h
        exact .inr ⟨by rw [hs, hid.1], rfl⟩
      · exact .inl h
    · exact .inl h

theorem offer_slot (m : Rendezvous) (p : Packet) : (m.offer p).1.slot = none := by
  unfold offer
  split
  · assumption
  · split <;> rfl

theorem offer_length (m : Rendezvous) (p : Packet) :
    (m.offer p).1.channels.length = m.channels.length := by
  unfold offer
  split
  · rfl
  · split <;> simp

end Rendezvous

/-! ### The life of a call -/

namespace CallPhase

/-- The call has not claimed a reply yet, or was never issued. -/
def Early : Option CallPhase → Prop
  | none | some .issued | some .queued => True
  | _ => False

/-- The call relies on a ticket, or ended with a packet. -/
def Bound : Option CallPhase → Prop
  | some (.sending _) | some (.awaiting _ _) | some (.ended (.ok (.packet _))) => True
  | _ => False

/-- The call stays as it is, or only has to do with replies before or no longer. -/
def Calms (o o' : Option CallPhase) : Prop :=
  o' = o ∨ (Early o ∧ Early o') ∨ (¬Early o' ∧ ¬Bound o')

theorem Calms.trans {o o' o'' : Option CallPhase} (h : Calms o o') (k : Calms o' o'') :
    Calms o o'' := by
  rcases k with rfl | ⟨he, he'⟩ | k
  · exact h
  · rcases h with rfl | h | h
    · exact .inr (.inl ⟨he, he'⟩)
    · exact .inr (.inl ⟨h.1, he'⟩)
    · exact absurd he h.1
  · exact .inr (.inr k)

end CallPhase

/-! ### The line before the link -/

namespace Outlet

variable {L : Type}

theorem after_line (w : Outlet) (a : Agent) (r : L × Progress Unit) :
    (w.after a r).2.1 = r.1 ∧ ∀ e ∈ (w.after a r).1.line, e ∈ w.line := by
  unfold after without
  split
  · exact ⟨rfl, fun _ h => h⟩
  · exact ⟨rfl, fun _ h => (List.mem_filter.mp h).1⟩
  · exact ⟨rfl, fun _ h => (List.mem_filter.mp h).1⟩

theorem ready_agent [Link L] {w : Outlet} {l : L} {a : Agent} (h : w.ready l a = true) :
    ∃ e r, w.line = e :: r ∧ e.agent = a := by
  unfold ready at h
  split at h
  · rename_i e r hw
    simp only [Bool.and_eq_true, beq_iff_eq] at h
    exact ⟨e, r, hw, h.1⟩
  · cases h

/-- Nobody's turn comes by joining the line. -/
theorem mem_of_begun_enter {w : Outlet} {a : Agent} {o : Outgoing} {e : Entry}
    (he : e ∈ (w.enter a o).line) (hb : e.begun = true) : e ∈ w.line := by
  rcases List.mem_append.mp he with he | he
  · exact he
  · rw [List.mem_singleton.mp he] at hb
    cases hb

/-- Joining the line leaves its head alone. -/
theorem head_enter {w : Outlet} {a : Agent} {o : Outgoing} {e : Entry} {r : List Entry}
    (hw : w.line = e :: r) : ∃ r', (w.enter a o).line = e :: r' :=
  ⟨r ++ [⟨a, o, false⟩], by rw [Outlet.enter, hw, List.cons_append]⟩

/-- Whoever joins the line has not begun. -/
theorem head_of_enter {w : Outlet} {a : Agent} {o : Outgoing} {e : Entry} {r : List Entry}
    (h : (w.enter a o).line = e :: r) (hb : e.begun = true) : ∃ r', w.line = e :: r' := by
  have hjoined : w.line ++ [⟨a, o, false⟩] = e :: r := h
  cases hline : w.line with
  | nil =>
    rw [hline] at hjoined
    obtain rfl := (List.cons.inj hjoined).1
    cases hb
  | cons e' r' =>
    rw [hline, List.cons_append] at hjoined
    exact ⟨r', by rw [(List.cons.inj hjoined).1]⟩

/-- A move reads nothing, and only the agent that moves has its turn come. -/
theorem move_onward [Link L] [FarEnd L] {w : Outlet} {l : L} {a : Agent} (h : w.ready l a = true) :
    Onward FarEnd.incoming l (w.move l a).2.1 ∧
      ∀ e ∈ (w.move l a).1.line, e.begun = true → e ∈ w.line ∨ e.agent = a := by
  obtain ⟨⟨agent, outgoing, begun⟩, r, hw, rfl⟩ := ready_agent h
  have hbegin : ∀ e ∈ w.begin.line, e ∈ w.line ∨ e.agent = agent := by
    intro e he
    simp only [begin, hw, List.mem_cons] at he ⊢
    rcases he with rfl | he
    · exact .inr rfl
    · exact .inl (.inr he)
  have hafter : ∀ (v : Outlet) (q : L × Progress Unit), v.line = w.begin.line →
      Onward FarEnd.incoming l q.1 →
      Onward FarEnd.incoming l (v.after agent q).2.1 ∧
        ∀ e ∈ (v.after agent q).1.line, e.begun = true → e ∈ w.line ∨ e.agent = agent := by
    intro v q hv hq
    obtain ⟨h1, h2⟩ := v.after_line agent q
    exact ⟨h1 ▸ hq, fun e he _ => hbegin e (hv ▸ h2 e he)⟩
  unfold move
  split
  · rename_i hl
    obtain ⟨h1, h2⟩ := w.after_line agent (Link.resumeWrite l agent)
    exact ⟨h1 ▸ FarEnd.resumeWrite l agent, fun e he _ => .inl (h2 e he)⟩
  · exact hafter _ _ rfl (FarEnd.beginWrite l agent _)
  · exact hafter _ _ rfl (FarEnd.beginWrite l agent _)
  · split
    · exact hafter _ _ rfl (FarEnd.beginWrite l agent _)
    · exact ⟨⟨rfl, List.prefix_rfl⟩, fun e he _ => .inl (List.mem_filter.mp he).1⟩
  · exact ⟨⟨rfl, List.prefix_rfl⟩, fun e he _ => .inl he⟩

end Outlet

/-! ### States of a session -/

namespace Session

section States

variable {L : Type}

/-- The phase of call `n`, if there is one. -/
def phase? (s : Session L) (n : ℕ) : Option CallPhase := s.calls[n]?.map Call.phase

/-- The reading agent may read on. -/
def readsOn (s : Session L) : Bool :=
  match s.reader with
  | .closing _ => false
  | .ended _ => false
  | _ => true

/-- The turn of call `n` in the line before the link has come. -/
def Begun (s : Session L) (n : ℕ) : Prop :=
  ∃ e ∈ s.outlet.line, e.agent = .call n ∧ e.begun = true

theorem phase?_of_call {s : Session L} {n : ℕ} {c : Call} (hc : s.calls[n]? = some c) :
    s.phase? n = some c.phase := by
  rw [phase?, hc]
  rfl

theorem phase?_setPhase_self {s : Session L} {n : ℕ} {o : CallPhase} (h : s.phase? n = some o)
    (φ : CallPhase) : (s.setPhase n φ).phase? n = some φ := by
  obtain ⟨c, hc, -⟩ := Option.map_eq_some_iff.mp h
  simp [phase?, setPhase, hc]

theorem phase?_setPhase_ne (s : Session L) {n m : ℕ} (h : n ≠ m) (φ : CallPhase) :
    (s.setPhase n φ).phase? m = s.phase? m := by
  simp [phase?, setPhase, h]

/-- A phase that is set is a phase of a call. -/
theorem phase?_setPhase (s : Session L) (n : ℕ) (φ : CallPhase) :
    (s.setPhase n φ).phase? n = some φ ∨ (s.setPhase n φ).phase? n = s.phase? n := by
  cases h : s.phase? n with
  | none => right; rw [phase?, Option.map_eq_none_iff] at *; simpa [setPhase] using h
  | some o => exact .inl (phase?_setPhase_self h φ)

theorem route_reply (s : Session L) {p : Packet} (hp : p.kind = .reply) : s.route p = { s with
    rendezvous := (s.rendezvous.offer p).1
    counters := if (s.rendezvous.offer p).2 then s.counters.bump .replies
      else (s.counters.bump .replies).bump .droppedReplies
    outlet := s.outlet.enter .reader .ack
    reader := .acking } := by
  simp only [route, hp, count, handOver_eq]

/-- A byte that is acted on moves the framer, and a reply that it completes is
offered to whoever holds the slot. -/
theorem takeByte_facts (s : Session L) (b : UInt8) :
    (s.takeByte b).framer = (s.framer.push b).1 ∧
      (s.takeByte b).settings = s.settings ∧ (s.takeByte b).link = s.link ∧
      (s.takeByte b).readsOn = true ∧
      (s.takeByte b).rendezvous
        = (s.rendezvous.offerAll ((s.framer.push b).2.toList.filterMap Frame.reply?)).1 ∧
      ∀ n, (s.takeByte b).Begun n → s.Begun n := by
  have henter : ∀ (o : Outgoing) (n : ℕ), (∃ e ∈ (s.outlet.enter .reader o).line,
      e.agent = .call n ∧ e.begun = true) → s.Begun n := by
    rintro o n ⟨e, he, ha, hb⟩
    exact ⟨e, Outlet.mem_of_begun_enter he hb, ha, hb⟩
  unfold takeByte
  split
  · rename_i hpush
    rw [hpush]
    exact ⟨rfl, rfl, rfl, rfl, rfl, fun _ h => h⟩
  · rename_i p hpush
    obtain ⟨kind, payload, first, second⟩ := p
    rw [hpush]
    cases kind with
    | reply =>
      simp only
      rw [route_reply _ rfl]
      exact ⟨rfl, rfl, rfl, rfl, rfl, henter .ack⟩
    | notification => exact ⟨rfl, rfl, rfl, rfl, rfl, fun _ h => h⟩
  · rename_i hpush
    rw [hpush]
    exact ⟨rfl, rfl, rfl, rfl, rfl, henter .again⟩
  · rename_i hpush
    rw [hpush]
    exact ⟨rfl, rfl, rfl, rfl, rfl, fun _ h => h⟩

/-- What the reading agent wants to write because of a byte. -/
theorem takeByte_writes (s : Session L) (b : UInt8) :
    ((s.takeByte b).outlet = s.outlet ∧ (s.takeByte b).reader = .idle) ∨
    ∃ o, (s.takeByte b).outlet = s.outlet.enter .reader o ∧
      (o = .ack ∧ (s.takeByte b).reader = .acking ∨
        o = .again ∧ (s.takeByte b).reader = .resending) := by
  unfold takeByte
  split
  · exact .inl ⟨rfl, rfl⟩
  · rename_i f p _
    cases hk : p.kind with
    | reply =>
      rw [route_reply _ hk]
      exact .inr ⟨.ack, rfl, .inl ⟨rfl, rfl⟩⟩
    | notification =>
      refine .inl ⟨?_, ?_⟩ <;> simp only [route, hk, count]
  · exact .inr ⟨.again, rfl, .inr ⟨rfl, rfl⟩⟩
  · exact .inl ⟨rfl, rfl⟩

end States

section Phases

variable {L : Type} [Link L]

theorem phase?_closeIfForgotten (s : Session L) (n : ℕ) :
    s.closeIfForgotten.phase? n = s.phase? n := by
  unfold closeIfForgotten
  split <;> rfl

theorem phase?_finish {s : Session L} {n : ℕ} {o : CallPhase} (h : s.phase? n = some o)
    (result : Except SessionError Answer) :
    (s.finish n result).phase? n = some (.ended result) := by
  rw [finish, phase?_closeIfForgotten]
  exact phase?_setPhase_self h _

/-- A claim gives a ticket for which nothing has been handed over, unless the
session is at its end. -/
theorem claim_phase {s : Session L} {n : ℕ} {o : CallPhase} (h : s.phase? n = some o)
    (command payload : String) :
    (∃ t, (s.claim n command payload).phase? n = some (.sending t) ∧
      t < (s.claim n command payload).rendezvous.channels.length ∧
      (s.claim n command payload).rendezvous.channel t = .opened) ∨
    (s.claim n command payload).phase? n = some (.ended (.error .closed)) := by
  unfold claim
  split <;> rename_i m heq
  · exact .inr (phase?_finish (by exact h) _)
  · obtain ⟨-, hlt, hopen⟩ := Rendezvous.claim_eq_some heq
    exact .inl ⟨_, phase?_setPhase_self (by exact h) _, hlt, hopen⟩

/-- Nobody's turn comes by a claim. -/
theorem begun_claim {s : Session L} {n m : ℕ} {command payload : String}
    (h : (s.claim n command payload).Begun m) : s.Begun m := by
  unfold claim at h
  split at h
  · unfold finish closeIfForgotten at h
    split at h <;> exact h
  · obtain ⟨e, he, ha, hb⟩ := h
    exact ⟨e, Outlet.mem_of_begun_enter he hb, ha, hb⟩

theorem afterSend_phase {s : Session L} {n ticket : ℕ} (h : s.phase? n = some (.sending ticket))
    (r : Outlet × L × Progress Written) :
    (s.afterSend n ticket r).phase? n = some (.sending ticket) ∨
    (∃ d, (s.afterSend n ticket r).phase? n = some (.awaiting ticket d)) ∨
    ∃ e, (s.afterSend n ticket r).phase? n = some (.ended (.error e)) := by
  obtain ⟨w, l, _ | (e | _)⟩ := r
  · exact .inl h
  · exact .inr (.inr ⟨_, phase?_finish (by exact h) _⟩)
  · exact .inr (.inl ⟨_, phase?_setPhase_self (by exact h) _⟩)

/-- A wait ends with the packet that was handed over for the ticket, or fails. -/
theorem collect_phase {s : Session L} {n ticket : ℕ} {o : CallPhase} (h : s.phase? n = some o)
    (ask : Ask) :
    (∃ p, s.rendezvous.channel ticket = .full p ∧ (s.collect n ticket ask).phase? n
      = some (.ended (ask.answer s.settings.verifyReplies p))) ∨
    ∃ e, (s.collect n ticket ask).phase? n = some (.ended (.error e)) := by
  unfold collect
  split
  · rename_i p hfull
    exact .inl ⟨p, hfull, phase?_finish (by exact h) _⟩
  · exact .inr ⟨_, phase?_finish (by exact h) _⟩
  · exact .inr ⟨_, phase?_finish (by exact h) _⟩

end Phases

section Keeping

variable {L : Type} [Link L] [FarEnd L]

/-- One state leads to another in which the framer stands where it stood, nothing
was read, no old ticket gained anything, and the calls outside `ns` are where
they were or have nothing to do with a reply. -/
structure Keeps (ns : Set ℕ) (s s' : Session L) : Prop where
  framer : s'.framer = s.framer
  settings : s'.settings = s.settings
  reading : s'.readsOn = true →
    s.readsOn = true ∧ FarEnd.incoming s'.link = FarEnd.incoming s.link
  wire : Link.wire s.link <+: Link.wire s'.link
  rendezvous : s.rendezvous.Fades s'.rendezvous
  turns : ∀ n ∉ ns, s'.Begun n → s.Begun n
  phases : ∀ n ∉ ns, CallPhase.Calms (s.phase? n) (s'.phase? n)

variable {ns : Set ℕ} {s s' s'' : Session L}

theorem Keeps.refl (s : Session L) : Keeps ns s s :=
  ⟨rfl, rfl, fun h => ⟨h, rfl⟩, List.prefix_rfl, .refl _, fun _ _ h => h, fun _ _ => .inl rfl⟩

theorem Keeps.trans (h : Keeps ns s s') (k : Keeps ns s' s'') : Keeps ns s s'' where
  framer := k.framer.trans h.framer
  settings := k.settings.trans h.settings
  reading hr := by
    obtain ⟨hr', hi'⟩ := k.reading hr
    obtain ⟨hr, hi⟩ := h.reading hr'
    exact ⟨hr, hi'.trans hi⟩
  wire := h.wire.trans k.wire
  rendezvous := h.rendezvous.trans k.rendezvous
  turns n hn hb := h.turns n hn (k.turns n hn hb)
  phases n hn := (h.phases n hn).trans (k.phases n hn)

theorem keeps_link {l : L} (h : Onward FarEnd.incoming s.link l) :
    Keeps ns s { s with link := l } :=
  { Keeps.refl s with
    reading := fun hr => ⟨hr, h.incoming⟩
    wire := h.wire }

theorem keeps_rendezvous {m : Rendezvous} (h : s.rendezvous.Fades m) :
    Keeps ns s { s with rendezvous := m } :=
  { Keeps.refl s with rendezvous := h }

theorem keeps_outlet {w : Outlet}
    (h : ∀ e ∈ w.line, e.begun = true → e ∈ s.outlet.line ∨ ∀ n, e.agent = .call n → n ∈ ns) :
    Keeps ns s { s with outlet := w } :=
  { Keeps.refl s with
    turns := by
      rintro n hn ⟨e, he, ha, hb⟩
      rcases h e he hb with hl | hm
      · exact ⟨e, hl, ha, hb⟩
      · exact absurd (hm n ha) hn }

theorem keeps_enter (a : Agent) (o : Outgoing) :
    Keeps ns s { s with outlet := s.outlet.enter a o } :=
  keeps_outlet fun _ he hb => .inl (Outlet.mem_of_begun_enter he hb)

theorem keeps_setPhase {n : ℕ} {φ : CallPhase}
    (h : n ∈ ns ∨ CallPhase.Calms (s.phase? n) (some φ)) : Keeps ns s (s.setPhase n φ) :=
  { Keeps.refl s with
    phases := by
      intro m hm
      by_cases hnm : n = m
      · subst hnm
        rcases s.phase?_setPhase n φ with hp | hp <;> rw [hp]
        · exact h.resolve_left hm
        · exact .inl rfl
      · exact .inl (s.phase?_setPhase_ne hnm φ) }

theorem keeps_count (s : Session L) (c : Counter) : Keeps ns s (s.count c) :=
  { Keeps.refl s with }

theorem keeps_commandLine (s : Session L) (line : List ℕ) :
    Keeps ns s { s with commandLine := line } := { Keeps.refl s with }

theorem keeps_closeIfForgotten (s : Session L) : Keeps ns s s.closeIfForgotten := by
  unfold closeIfForgotten
  split
  · exact .refl s
  · exact (keeps_link (FarEnd.close s.link)).trans (keeps_rendezvous s.rendezvous.fades_close)

/-- A call that ends without a packet has to do with replies no longer. -/
theorem keeps_finish {n : ℕ} {result : Except SessionError Answer}
    (h : n ∈ ns ∨ ∀ p, result ≠ .ok (.packet p)) : Keeps ns s (s.finish n result) := by
  have hphase : n ∈ ns ∨ CallPhase.Calms
      (({ s with commandLine := s.commandLine.erase n } : Session L).phase? n)
      (some (.ended result)) := by
    refine h.imp_right fun hr => .inr (.inr ⟨nofun, ?_⟩)
    rcases result with e | (p | r | d | _)
    · exact id
    · exact absurd rfl (hr p)
    · exact id
    · exact id
    · exact id
  exact ((keeps_commandLine s _).trans (keeps_setPhase hphase)).trans (keeps_closeIfForgotten _)

/-! ### The reading agent -/

/-- The byte that a read has come to. -/
def byteRead (r : L × Progress UInt8) : Option UInt8 :=
  match r.2 with
  | some (.ok b) => some b
  | _ => none

/-- The byte that the next move of the reading agent takes. -/
def nextByte (s : Session L) : Option UInt8 :=
  match s.reader with
  | .idle => byteRead (Link.beginRead s.link .reader)
  | .reading => byteRead (Link.resumeRead s.link .reader)
  | _ => none

/-- The end of the loop keeps everything, whatever the failed operation left. -/
theorem keeps_endReader {w : Outlet} {l : L} (result : Except SessionError Unit)
    (hl : Link.wire s.link <+: Link.wire l)
    (hw : ∀ e ∈ w.line, e.begun = true → e ∈ s.outlet.line ∨ e.agent = .reader) :
    Keeps ns s (({ s with outlet := w, link := l } : Session L).endReader result) := by
  have hturns : ∀ n, (∃ e ∈ w.line, e.agent = .call n ∧ e.begun = true) → s.Begun n := by
    rintro n ⟨e, he, ha, hb⟩
    rcases hw e he hb with hl | hr
    · exact ⟨e, hl, ha, hb⟩
    · exact absurd (ha.symm.trans hr) nofun
  have hs := (FarEnd.beginShutdown l .reader).wire
  simp only [endReader]
  split <;> rename_i heq <;> rw [heq] at hs
  all_goals
    exact { Keeps.refl s with
      reading := fun hr => absurd hr Bool.false_ne_true
      wire := hl.trans hs
      rendezvous := s.rendezvous.fades_close
      turns := fun n _ hb => hturns n hb }

theorem keeps_failReader {w : Outlet} {l : L} (e : LinkError)
    (hl : Link.wire s.link <+: Link.wire l)
    (hw : ∀ e ∈ w.line, e.begun = true → e ∈ s.outlet.line ∨ e.agent = .reader) :
    Keeps ns s (({ s with outlet := w, link := l } : Session L).failReader e) :=
  keeps_endReader _ hl hw

/-- A write of the reading agent reads nothing. -/
theorem keeps_readerWrite {w : Outlet} {l : L} (hs : s.readsOn = true)
    (hl : Onward FarEnd.incoming s.link l)
    (hw : ∀ e ∈ w.line, e.begun = true → e ∈ s.outlet.line ∨ e.agent = .reader)
    (r : ReaderPhase) (c : Counters) :
    Keeps ns s { s with outlet := w, link := l, reader := r, counters := c } :=
  { Keeps.refl s with
    reading := fun _ => ⟨hs, hl.incoming⟩
    wire := hl.wire
    turns := by
      rintro n - ⟨e, he, ha, hb⟩
      rcases hw e he hb with hm | hr
      · exact ⟨e, hm, ha, hb⟩
      · exact absurd (ha.symm.trans hr) nofun }

theorem keeps_afterRead {r : L × Progress UInt8} (hs : s.readsOn = true)
    (hr : Reads FarEnd.incoming s.link r) (hb : byteRead r = none) :
    Keeps ns s (s.afterRead r) := by
  obtain ⟨l, _ | (e | b)⟩ := r
  · exact keeps_readerWrite hs ⟨hr.waits rfl, hr.wire⟩ (fun _ he _ => .inl he) .reading s.counters
  · exact keeps_failReader e hr.wire fun _ he _ => .inl he
  · cases hb

theorem keeps_afterAck {w : Outlet} {l : L} {p : Progress Written} (hs : s.readsOn = true)
    (hl : Onward FarEnd.incoming s.link l)
    (hw : ∀ e ∈ w.line, e.begun = true → e ∈ s.outlet.line ∨ e.agent = .reader) :
    Keeps ns s (s.afterAck (w, l, p)) := by
  obtain _ | (e | _) := p
  · exact keeps_readerWrite hs hl hw s.reader s.counters
  · exact keeps_failReader e hl.wire hw
  · exact keeps_readerWrite hs hl hw .idle _

theorem keeps_afterResend {w : Outlet} {l : L} {p : Progress Written} (hs : s.readsOn = true)
    (hl : Onward FarEnd.incoming s.link l)
    (hw : ∀ e ∈ w.line, e.begun = true → e ∈ s.outlet.line ∨ e.agent = .reader) :
    Keeps ns s (s.afterResend (w, l, p)) := by
  obtain _ | (e | (_ | _)) := p
  · exact keeps_readerWrite hs hl hw s.reader s.counters
  · exact keeps_failReader e hl.wire hw
  · exact keeps_readerWrite hs hl hw .idle _
  · exact keeps_readerWrite hs hl hw .idle s.counters

/-- A move of the reading agent that reads no byte keeps everything. -/
theorem keeps_moveReader (hr : s.readerReady = true) (hb : s.nextByte = none) :
    Keeps ns s s.moveReader := by
  unfold readerReady at hr
  unfold nextByte at hb
  unfold moveReader
  cases hreader : s.reader with
  | idle =>
    simp only [hreader] at hb ⊢
    exact keeps_afterRead (by rw [readsOn, hreader]) (FarEnd.beginRead s.link .reader) hb
  | reading =>
    simp only [hreader] at hb ⊢
    exact keeps_afterRead (by rw [readsOn, hreader]) (FarEnd.resumeRead s.link .reader) hb
  | acking =>
    simp only [hreader] at hr ⊢
    obtain ⟨hl, hw⟩ := Outlet.move_onward hr
    exact keeps_afterAck (by rw [readsOn, hreader]) hl hw
  | resending =>
    simp only [hreader] at hr ⊢
    obtain ⟨hl, hw⟩ := Outlet.move_onward hr
    exact keeps_afterResend (by rw [readsOn, hreader]) hl hw
  | closing result =>
    have hl := FarEnd.resumeShutdown s.link .reader
    simp only
    split <;> rename_i heq <;> rw [heq] at hl
    · exact hreader ▸ keeps_link hl
    · exact { Keeps.refl s with
        reading := fun hr => absurd hr Bool.false_ne_true
        wire := hl.wire }
  | ended result => exact .refl s

/-- A move of the reading agent that reads a byte acts on that byte. -/
theorem moveReader_byte {b : UInt8} (hb : s.nextByte = some b) :
    s.readsOn = true ∧ ∃ l, s.moveReader = ({ s with link := l } : Session L).takeByte b ∧
      FarEnd.incoming s.link = b :: FarEnd.incoming l ∧ Link.wire s.link <+: Link.wire l := by
  have hread : ∀ r : L × Progress UInt8, Reads FarEnd.incoming s.link r → byteRead r = some b →
      ∃ l, s.afterRead r = ({ s with link := l } : Session L).takeByte b ∧
        FarEnd.incoming s.link = b :: FarEnd.incoming l ∧ Link.wire s.link <+: Link.wire l := by
    rintro ⟨l, _ | (e | c)⟩ hr hc
    · cases hc
    · cases hc
    · cases hc
      exact ⟨l, rfl, hr.takes b rfl, hr.wire⟩
  unfold nextByte at hb
  split at hb
  · rename_i hreader
    have hm : s.moveReader = s.afterRead (Link.beginRead s.link .reader) := by
      simp only [moveReader, hreader]
    rw [hm]
    exact ⟨by rw [readsOn, hreader], hread _ (FarEnd.beginRead s.link .reader) hb⟩
  · rename_i hreader
    have hm : s.moveReader = s.afterRead (Link.resumeRead s.link .reader) := by
      simp only [moveReader, hreader]
    rw [hm]
    exact ⟨by rw [readsOn, hreader], hread _ (FarEnd.resumeRead s.link .reader) hb⟩
  · cases hb

/-! ### Calls -/

theorem keeps_join (s : Session L) (n : ℕ) : Keeps ns s (s.join n) := by
  unfold join
  split
  · have hjoined : Keeps ns s { s with joinable := false } := { Keeps.refl s with }
    exact hjoined.trans (keeps_setPhase (.inr (.inr (.inr ⟨id, id⟩))))
  · exact keeps_finish (.inr nofun)

theorem keeps_windDown (s : Session L) (n : ℕ) : Keeps ns s (s.windDown n) := by
  have hclose : Keeps ns s { s with rendezvous := s.rendezvous.close } :=
    keeps_rendezvous s.rendezvous.fades_close
  have hl := FarEnd.beginShutdown s.link (.call n)
  simp only [windDown]
  split <;> rename_i heq <;> rw [heq] at hl
  · exact (hclose.trans (keeps_link hl)).trans (keeps_setPhase (.inr (.inr (.inr ⟨id, id⟩))))
  · exact (hclose.trans (keeps_link hl)).trans (keeps_join _ n)

theorem keeps_moveShutdown (s : Session L) (n : ℕ) : Keeps ns s (s.moveShutdown n) := by
  unfold moveShutdown
  split
  · have hl := FarEnd.resumeShutdown s.link (.call n)
    split <;> rename_i heq <;> rw [heq] at hl
    · exact keeps_link hl
    · exact (keeps_link hl).trans (keeps_join _ n)
  · have hcancel := FarEnd.cancel s.link (.call n)
    have hclose := FarEnd.close (Link.cancel s.link (.call n))
    have hl : Onward FarEnd.incoming s.link (Link.close (Link.cancel s.link (.call n))) :=
      ⟨hclose.incoming.trans hcancel.incoming, hcancel.wire.trans hclose.wire⟩
    exact (keeps_link hl).trans (keeps_join _ n)

/-- A claim touches no other call. -/
theorem keeps_claim (s : Session L) (n : ℕ) (command payload : String) :
    Keeps {n} s (s.claim n command payload) := by
  unfold claim
  split <;> rename_i m heq
  · rw [Rendezvous.claim_eq_none heq]
    exact keeps_finish (.inl rfl)
  · obtain ⟨hfades, -, -⟩ := Rendezvous.claim_eq_some heq
    exact ((keeps_rendezvous hfades).trans (keeps_enter _ _)).trans (keeps_setPhase (.inl rfl))

theorem keeps_afterSend {n : ℕ} {w : Outlet} {l : L} {p : Progress Written} (ticket : ℕ)
    (hl : Onward FarEnd.incoming s.link l)
    (hw : ∀ e ∈ w.line, e.begun = true → e ∈ s.outlet.line ∨ e.agent = .call n) :
    Keeps {n} s (s.afterSend n ticket (w, l, p)) := by
  have hwrite : Keeps {n} s { s with outlet := w, link := l } := by
    refine (keeps_link hl).trans (keeps_outlet fun e he hb => (hw e he hb).imp_right ?_)
    intro ha m hm
    rw [ha] at hm
    cases hm
    rfl
  obtain _ | (e | _) := p
  · exact hwrite
  · exact (hwrite.trans (keeps_rendezvous ((s.rendezvous.fades_withdraw ticket).trans
      (Rendezvous.fades_abandon _ ticket)))).trans (keeps_finish (.inl rfl))
  · exact (hwrite.trans (keeps_count _ .commandsSent)).trans (keeps_setPhase (.inl rfl))

theorem keeps_collect (s : Session L) (n ticket : ℕ) (ask : Ask) :
    Keeps {n} s (s.collect n ticket ask) := by
  unfold collect
  split
  · exact (keeps_rendezvous (s.rendezvous.fades_abandon ticket)).trans (keeps_finish (.inl rfl))
  · exact (keeps_rendezvous (s.rendezvous.fades_abandon ticket)).trans (keeps_finish (.inl rfl))
  · exact ((keeps_count s .timeouts).trans (keeps_rendezvous
      ((s.rendezvous.fades_withdraw ticket).trans
        (Rendezvous.fades_abandon _ ticket)))).trans (keeps_finish (.inl rfl))

/-- A move of a call that has nothing to do with a reply keeps everything. -/
theorem keeps_moveCall {n : ℕ} (hq : s.phase? n ≠ some .queued)
    (hs : ∀ t, s.phase? n ≠ some (.sending t)) (ha : ∀ t d, s.phase? n ≠ some (.awaiting t d)) :
    Keeps ns s (s.moveCall n) := by
  unfold moveCall
  split
  · exact .refl s
  · rename_i c hc
    have hp : s.phase? n = some c.phase := phase?_of_call hc
    rw [hp] at hq hs ha
    cases hphase : c.phase with
    | issued =>
      rw [hphase] at hp
      simp only
      split
      · exact (keeps_commandLine s _).trans
          (keeps_setPhase (.inr (.inr (.inl ⟨hp ▸ trivial, trivial⟩))))
      · exact keeps_windDown s n
    | queued => exact absurd (congrArg some hphase) hq
    | sending t => exact absurd (congrArg some hphase) (hs t)
    | awaiting t d => exact absurd (congrArg some hphase) (ha t d)
    | shutting d => exact keeps_moveShutdown s n
    | joining d => exact keeps_finish (.inr nofun)
    | ended r => exact .refl s
    | aborted => exact .refl s

/-! ### What is done from outside -/

theorem keeps_issue (s : Session L) (ask : Ask) : Keeps ns s (s.issue ask) :=
  { Keeps.refl s with
    phases := by
      intro m _
      rcases lt_trichotomy m s.calls.length with h | rfl | h
      · left
        simp only [phase?, issue, List.getElem?_append_left h]
      · right; left
        simp [phase?, issue, CallPhase.Early]
      · left
        have hlen : (s.issue ask).calls.length ≤ m := by
          simp only [issue, List.length_append, List.length_singleton]
          omega
        simp only [phase?, List.getElem?_eq_none hlen, List.getElem?_eq_none h.le] }

theorem keeps_withdraw (s : Session L) (n : ℕ) (φ : CallPhase) : Keeps ns s (s.withdraw n φ) := by
  cases φ with
  | sending t =>
    have hl : Onward FarEnd.incoming s.link (s.outlet.leave s.link (.call n)).2 := by
      simp only [Outlet.leave]
      split
      · exact FarEnd.cancel s.link (.call n)
      · exact ⟨rfl, List.prefix_rfl⟩
    have hw : Keeps ns s { s with
        outlet := (s.outlet.leave s.link (.call n)).1
        link := (s.outlet.leave s.link (.call n)).2 } :=
      (keeps_link hl).trans (keeps_outlet fun e he _ => .inl (List.mem_filter.mp he).1)
    exact hw.trans (keeps_rendezvous (s.rendezvous.fades_abandon t))
  | awaiting t d => exact keeps_rendezvous (s.rendezvous.fades_abandon t)
  | shutting d => exact keeps_link (FarEnd.cancel s.link (.call n))
  | _ => exact .refl s

theorem keeps_abort (s : Session L) (n : ℕ) : Keeps ns s (s.abort n) := by
  unfold abort
  split
  · exact .refl s
  · rename_i c _
    split
    · have hgone : Keeps ns s { s.withdraw n c.phase with
          commandLine := (s.withdraw n c.phase).commandLine.erase n } :=
        (keeps_withdraw s n c.phase).trans (keeps_commandLine _ _)
      exact (hgone.trans (keeps_setPhase (.inr (.inr (.inr ⟨id, id⟩))))).trans
        (keeps_closeIfForgotten _)
    · exact .refl s

theorem keeps_letGo (s : Session L) : Keeps ns s s.letGo := by
  have hheld : Keeps ns s { s with held := false } := { Keeps.refl s with }
  exact hheld.trans (keeps_closeIfForgotten _)

end Keeping

end Session

end ProbeLink
