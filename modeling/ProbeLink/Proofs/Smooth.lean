/-
# A session on a link in working order

Commands are sent for packets, nobody gives up or ends the session, and the link below
works. Then what a move can be is said once (`Session.Smooth`): a byte is read or waited
for, a write goes on or is over, or a call gets one phase further. Whoever wants to write
stands in the line before the link, once (`Outlet.Serves`), and behind the finished
writes only the first in line has put anything on the wire (`Session.Afloat`).

Every such move takes something from what is still to be done (`Session.Smooth.ahead_lt`),
so the session comes to rest; and at rest nobody writes, and every call in line waits for
a reply (`Session.Afloat.rest`).

Key definitions: `Outlet.Serves`, `Session.wants`, `Session.Afloat`, `Session.Smooth`,
`Session.ahead`.
Key theorems: `Session.Afloat.smooth`, `Session.Smooth.afloat`, `Session.Smooth.ahead_lt`.
-/
import ProbeLink.Proofs.Steady
import ProbeLink.Proofs.Turns

namespace ProbeLink

/-! ### Who stands in line -/

namespace Outlet

/-- Whoever wants to write stands in line, once. -/
structure Serves (line : List Entry) (wants : Agent → Option Outgoing) : Prop where
  once : (line.map Entry.agent).Nodup
  wants : ∀ a o, wants a = some o ↔ ∃ e ∈ line, e.agent = a ∧ e.outgoing = o

variable {line r : List Entry} {wants wants' : Agent → Option Outgoing} {a : Agent} {o : Outgoing}
  {begun : Bool}

/-- The first in line wants what it stands there for. -/
theorem Serves.head (h : Serves (⟨a, o, begun⟩ :: r) wants) : wants a = some o :=
  (h.wants a o).mpr ⟨_, List.mem_cons_self, rfl, rfl⟩

/-- Somebody who wants to write now joins the line. -/
theorem Serves.enter (h : Serves line wants) (hnone : wants a = none) (ha : wants' a = some o)
    (hother : ∀ b ≠ a, wants' b = wants b) : Serves (line ++ [⟨a, o, false⟩]) wants' := by
  have hout : ∀ e ∈ line, e.agent ≠ a := by
    rintro e he rfl
    have hsome := (h.wants e.agent e.outgoing).mpr ⟨e, he, rfl, rfl⟩
    rw [hnone] at hsome
    cases hsome
  refine ⟨?_, fun b p => ?_⟩
  · rw [List.map_append, List.nodup_append]
    refine ⟨h.once, List.nodup_singleton _, fun b hb c hc hbc => ?_⟩
    obtain ⟨e, he, rfl⟩ := List.mem_map.mp hb
    exact hout e he (hbc.trans (List.mem_singleton.mp hc))
  · by_cases hb : b = a
    · subst hb
      rw [ha]
      constructor
      · rintro ⟨⟩
        exact ⟨_, List.mem_append_right _ List.mem_cons_self, rfl, rfl⟩
      · rintro ⟨e, he, hea, rfl⟩
        rcases List.mem_append.mp he with he | he
        · exact absurd hea (hout e he)
        · rw [List.mem_singleton.mp he]
    · rw [hother b hb, h.wants]
      constructor
      · rintro ⟨e, he, hep⟩
        exact ⟨e, List.mem_append_left _ he, hep⟩
      · rintro ⟨e, he, hea, hep⟩
        rcases List.mem_append.mp he with he | he
        · exact ⟨e, he, hea, hep⟩
        · rw [List.mem_singleton.mp he] at hea
          exact absurd hea.symm hb

/-- The turn of the first in line comes. -/
theorem Serves.begin (h : Serves (⟨a, o, begun⟩ :: r) wants) :
    Serves (⟨a, o, true⟩ :: r) wants := by
  refine ⟨h.once, fun b p => (h.wants b p).trans ?_⟩
  simp only [List.mem_cons, exists_eq_or_imp]

/-- The first in line is through and wants nothing more. -/
theorem Serves.leave (h : Serves (⟨a, o, begun⟩ :: r) wants) (ha : wants' a = none)
    (hother : ∀ b ≠ a, wants' b = wants b) : Serves r wants' := by
  obtain ⟨hout, honce⟩ := List.nodup_cons.mp h.once
  refine ⟨honce, fun b p => ?_⟩
  by_cases hb : b = a
  · subst hb
    rw [ha]
    refine iff_of_false nofun ?_
    rintro ⟨e, he, hea, -⟩
    exact hout (List.mem_map.mpr ⟨e, he, hea⟩)
  · rw [hother b hb, h.wants]
    constructor
    · rintro ⟨e, he, hea, hep⟩
      rcases List.mem_cons.mp he with rfl | he
      · exact absurd hea.symm hb
      · exact ⟨e, he, hea, hep⟩
    · rintro ⟨e, he, hep⟩
      exact ⟨e, List.mem_cons_of_mem _ he, hep⟩

end Outlet

/-- The call asks for a packet and does not have to do with the end of the session. -/
def Call.Plain (c : Call) : Prop :=
  (∃ command payload, c.ask = .packet command payload) ∧ match c.phase with
    | .shutting _ | .joining _ | .aborted => False
    | _ => True

/-! ### How much is still to be done -/

/-- More than the moves of a call still to be made, its writing apart. -/
def CallPhase.ahead (F : ℕ) : CallPhase → ℕ
  | .issued => 2 * F + 8
  | .queued => 2 * F + 7
  | .sending _ => 2
  | .awaiting _ _ => 1
  | _ => 0

/-- More than the moves still to be made before the reading agent waits, its writing apart. -/
def ReaderPhase.ahead : ReaderPhase → ℕ
  | .idle => 1
  | .acking | .resending => 2
  | _ => 0

/-- More than the moves for which writes of at most `F` bytes wait that have not begun. -/
def Outlet.ahead (F : ℕ) (line : List Entry) : ℕ :=
  (line.map fun e => if e.begun then 0 else 2 * F + 4).sum

theorem Outlet.ahead_enter (F : ℕ) (w : Outlet) (a : Agent) (o : Outgoing) :
    ahead F (w.enter a o).line = ahead F w.line + (2 * F + 4) := by
  simp [ahead, enter]

theorem Outlet.ahead_cons (F : ℕ) (e : Entry) (r : List Entry) :
    ahead F (e :: r) = (if e.begun then 0 else 2 * F + 4) + ahead F r := rfl

/-- A sum changes by what changes in one place. -/
theorem sum_modify {α : Type} (f : α → ℕ) (g : α → α) : ∀ {cs : List α} {n : ℕ} {c : α},
    cs[n]? = some c → ((cs.modify n g).map f).sum + f c = (cs.map f).sum + f (g c)
  | [], _, _, h => by cases h
  | d :: cs, 0, c, h => by
    obtain rfl : d = c := Option.some.inj h
    simp only [List.modify_zero_cons, List.map_cons, List.sum_cons]
    omega
  | d :: cs, n + 1, c, h => by
    have ih := sum_modify f g (show cs[n]? = some c from h)
    simp only [List.modify_succ_cons, List.map_cons, List.sum_cons]
    omega

namespace Session

section States

variable {L : Type} {s s' : Session L}

/-- What an agent wants to write. -/
def wants (s : Session L) : Agent → Option Outgoing
  | .reader => match s.reader with
    | .acking => some .ack
    | .resending => some .again
    | _ => none
  | .call n => match s.phase? n with
    | some (.sending _) => (s.frame? n).map .frame
    | _ => none
  | _ => none

/-- The reading agent waits for a byte. -/
def isReading (s : Session L) : Bool :=
  match s.reader with
  | .reading => true
  | _ => false

/-- Calls that ask for the same write the same. -/
theorem frame?_congr (h : s'.calls.map Call.ask = s.calls.map Call.ask) (n : ℕ) :
    s'.frame? n = s.frame? n := by
  have hframe : ∀ s : Session L, s.frame? n
      = (s.calls.map Call.ask)[n]?.bind fun a => a.body?.map fun b => commandFrame b.1 b.2 := by
    intro s
    rw [frame?, List.getElem?_map]
    cases s.calls[n]? <;> rfl
  rw [hframe, hframe, h]

/-- A frame that somebody wants to write is that of a call with a ticket. -/
theorem wants_frame {a : Agent} {bytes : Bytes} (h : s.wants a = some (.frame bytes)) :
    ∃ n, a = .call n ∧ s.frame? n = some bytes := by
  unfold wants at h
  split at h
  · split at h <;> cases h
  · rename_i n
    split at h
    · obtain ⟨b, hb, hbytes⟩ := Option.map_eq_some_iff.mp h
      cases hbytes
      exact ⟨n, rfl, hb⟩
    · cases h
  · cases h

/-- A call writes its frame and nothing else. -/
theorem wants_call {n : ℕ} {o : Outgoing} (h : s.wants (.call n) = some o) :
    ∃ bytes, o = .frame bytes ∧ s.frame? n = some bytes := by
  simp only [wants] at h
  split at h
  · obtain ⟨bytes, hframe, rfl⟩ := Option.map_eq_some_iff.mp h
    exact ⟨bytes, rfl, hframe⟩
  · cases h

/-- A call that gets into another phase changes nothing for the others. -/
theorem wants_setPhase_ne (s : Session L) (n : ℕ) (φ : CallPhase) {a : Agent} (ha : a ≠ .call n) :
    (s.setPhase n φ).wants a = s.wants a := by
  cases a with
  | call k =>
    have hk : n ≠ k := fun hk => ha (hk ▸ rfl)
    simp only [wants, phase?_setPhase_ne s hk, frame?_congr (asks_setPhase s n φ)]
  | _ => rfl

theorem wants_setPhase_self {n : ℕ} {o : CallPhase} (ho : s.phase? n = some o) (φ : CallPhase) :
    (s.setPhase n φ).wants (.call n) = match φ with
      | .sending _ => (s.frame? n).map .frame
      | _ => none := by
  simp only [wants, phase?_setPhase_self ho, frame?_congr (asks_setPhase s n φ)]
  cases φ <;> rfl

/-- A call that does not write gets into another phase and does not write there. -/
theorem wants_setPhase_none {n : ℕ} {o φ : CallPhase} (ho : s.phase? n = some o)
    (hnone : s.wants (.call n) = none) (hφ : ∀ t, φ ≠ .sending t) (a : Agent) :
    (s.setPhase n φ).wants a = s.wants a := by
  by_cases hn : a = .call n
  · rw [hn, hnone, wants_setPhase_self ho]
    cases φ with
    | sending t => exact absurd rfl (hφ t)
    | _ => rfl
  · exact wants_setPhase_ne s n φ hn

/-- A call that is issued does not write yet. -/
theorem wants_issue (s : Session L) (ask : Ask) : (s.issue ask).wants = s.wants := by
  funext a
  cases a with
  | call n =>
    by_cases hn : n = s.calls.length
    · have hnone : s.phase? n = none := by
        rw [phase?, List.getElem?_eq_none (Nat.le_of_eq hn.symm), Option.map_none]
      simp only [wants, hnone, Turns.phase?_issue, if_pos hn]
    · simp only [wants, Turns.phase?_issue, if_neg hn, frame?_issue_ne s ask hn]
  | _ => rfl

theorem plain_setPhase (n : ℕ) {φ : CallPhase} (h : ∀ c ∈ s.calls, c.Plain)
    (hφ : match φ with | .shutting _ | .joining _ | .aborted => False | _ => True) :
    ∀ c ∈ (s.setPhase n φ).calls, c.Plain := by
  intro c hc
  obtain ⟨k, hk⟩ := List.mem_iff_getElem?.mp hc
  simp only [setPhase, List.getElem?_modify] at hk
  obtain ⟨c', hc', rfl⟩ := Option.map_eq_some_iff.mp hk
  have hplain := h c' (List.mem_of_getElem? hc')
  split
  · exact ⟨hplain.1, hφ⟩
  · exact hplain

/-- What a byte leaves alone. -/
theorem takeByte_keeps (s : Session L) (b : UInt8) :
    (s.takeByte b).held = s.held ∧ (s.takeByte b).now = s.now ∧
      (s.takeByte b).rendezvous.closed = s.rendezvous.closed := by
  unfold takeByte
  split
  · exact ⟨rfl, rfl, rfl⟩
  · rename_i f p _
    cases hk : p.kind with
    | reply =>
      rw [route_reply _ hk]
      exact ⟨rfl, rfl, s.rendezvous.closed_offer p⟩
    | notification =>
      refine ⟨?_, ?_, ?_⟩ <;> simp only [route, hk, count]
  · exact ⟨rfl, rfl, rfl⟩
  · exact ⟨rfl, rfl, rfl⟩

end States

section Held

variable {L : Type} [Link L] {s : Session L}

/-- Somebody outside holds the session, so it goes on when a call ends. -/
theorem finish_of_held (hs : s.held = true) (n : ℕ) (result : Except SessionError Answer) :
    s.finish n result
      = ({ s with commandLine := s.commandLine.erase n } : Session L).setPhase n (.ended result) := by
  have hheld : (({ s with commandLine := s.commandLine.erase n } : Session L).setPhase n
      (.ended result)).held = true := hs
  rw [finish, closeIfForgotten, hheld, Bool.true_or, if_pos rfl]

/-- The end of a wait, whichever it is. -/
theorem collect_of_held (hs : s.held = true) (n t : ℕ) (ask : Ask) :
    ∃ m c result, s.collect n t ask = ({ s with
        rendezvous := m
        counters := c
        commandLine := s.commandLine.erase n } : Session L).setPhase n (.ended result) ∧
      m.closed = s.rendezvous.closed := by
  unfold collect
  split
  · exact ⟨_, _, _, finish_of_held (by exact hs) n _, rfl⟩
  · exact ⟨_, _, _, finish_of_held (by exact hs) n _, rfl⟩
  · exact ⟨_, _, _, finish_of_held (by exact hs) n _, s.rendezvous.closed_withdraw t⟩

/-- Whoever writes reads nothing. -/
theorem nextByte_of_wants {o : Outgoing} (h : s.wants .reader = some o) : s.nextByte = none := by
  unfold Session.wants at h
  unfold nextByte
  cases hreader : s.reader with
  | acking | resending => rfl
  | _ => simp [hreader] at h

end Held

section Working

variable {L : Type} [Link L] [Steady L]

/-- The session is in use, and `base` is on the wire for the writes that are over. -/
structure Afloat (s : Session L) (base : Bytes) : Prop where
  below : ∃ put, s.outlet.Below s.link s.isReading base put
  serves : Outlet.Serves s.outlet.line s.wants
  readsOn : s.readsOn = true
  opened : s.rendezvous.closed = false
  held : s.held = true
  plain : ∀ c ∈ s.calls, c.Plain

/-- What the first in line leaves below when it has moved. -/
structure Writes (s : Session L) (e : Outlet.Entry) (r : List Outlet.Entry) (w : Outlet) (l : L)
    (base : Bytes) : Prop where
  line : s.outlet.line = e :: r
  incoming : FarEnd.incoming l = FarEnd.incoming s.link
  labour : Steady.labour l < Steady.labour s.link
    + if e.begun then 0 else 2 * (s.outlet.bytes e).length + 3
  below : ∃ put, w.Below l s.isReading base put

/-- What a move can be, and what is on the wire afterwards for the writes that are over. -/
inductive Smooth (s : Session L) (base : Bytes) : Agent → Session L → Bytes → Prop where
  | waits {l : L} (reader : s.reader = .idle) (next : s.nextByte = none)
      (incoming : FarEnd.incoming l = FarEnd.incoming s.link)
      (labour : Steady.labour l ≤ Steady.labour s.link)
      (below : ∃ put, s.outlet.Below l true base put) :
      Smooth s base .reader { s with link := l, reader := .reading } base
  | reads {l : L} {b : UInt8} (reader : s.wants .reader = none) (next : s.nextByte = some b)
      (incoming : FarEnd.incoming s.link = b :: FarEnd.incoming l)
      (labour : Steady.labour l ≤ Steady.labour s.link)
      (below : ∃ put, s.outlet.Below l false base put) :
      Smooth s base .reader (({ s with link := l } : Session L).takeByte b) base
  | helps {a : Agent} {l : L} (helper : a ≠ .reader ∧ ∀ n, a ≠ .call n)
      (incoming : FarEnd.incoming l = FarEnd.incoming s.link)
      (labour : Steady.labour l < Steady.labour s.link)
      (below : ∃ put, s.outlet.Below l s.isReading base put) :
      Smooth s base a { s with link := l } base
  | writes {a : Agent} {o : Outgoing} {begun : Bool} {r : List Outlet.Entry} {w : Outlet} {l : L}
      (write : s.Writes ⟨a, o, begun⟩ r w l base) (line : w.line = ⟨a, o, true⟩ :: r) :
      Smooth s base a { s with outlet := w, link := l } base
  | acked {begun : Bool} {r : List Outlet.Entry} {w : Outlet} {l : L} (reader : s.reader = .acking)
      (write : s.Writes ⟨.reader, .ack, begun⟩ r w l (base ++ [ackByte])) (line : w.line = r) :
      Smooth s base .reader { (s.count .acksSent) with outlet := w, link := l, reader := .idle }
        (base ++ [ackByte])
  | resent {begun : Bool} {r : List Outlet.Entry} {w : Outlet} {l : L}
      (reader : s.reader = .resending)
      (write : s.Writes ⟨.reader, .again, begun⟩ r w l (base ++ s.outlet.last.getD []))
      (line : w.line = r) :
      Smooth s base .reader { (s.count .retransmits) with outlet := w, link := l, reader := .idle }
        (base ++ s.outlet.last.getD [])
  | spared {begun : Bool} {r : List Outlet.Entry} {w : Outlet} {l : L}
      (reader : s.reader = .resending) (write : s.Writes ⟨.reader, .again, begun⟩ r w l base)
      (line : w.line = r) :
      Smooth s base .reader { s with outlet := w, link := l, reader := .idle } base
  | asks {n : ℕ} (phase : s.phase? n = some .issued) :
      Smooth s base (.call n)
        (({ s with commandLine := s.commandLine ++ [n] } : Session L).setPhase n .queued) base
  | claims {n t : ℕ} {bytes : Bytes} {m : Rendezvous} (phase : s.phase? n = some .queued)
      (frame : s.frame? n = some bytes) (claim : s.rendezvous.claim = (m, some t)) :
      Smooth s base (.call n) (({ s with
        rendezvous := m
        outlet := s.outlet.enter (.call n) (.frame bytes) } : Session L).setPhase n (.sending t)) base
  | sent {n t : ℕ} {bytes : Bytes} {begun : Bool} {r : List Outlet.Entry} {w : Outlet} {l : L}
      (phase : s.phase? n = some (.sending t)) (frame : s.frame? n = some bytes)
      (write : s.Writes ⟨.call n, .frame bytes, begun⟩ r w l (base ++ bytes)) (line : w.line = r) :
      Smooth s base (.call n) ((({ s with outlet := w, link := l } : Session L).count
        .commandsSent).setPhase n (.awaiting t (s.now + s.settings.replyTimeoutMs))) (base ++ bytes)
  | collects {n t d : ℕ} {command payload : String}
      (call : s.calls[n]? = some ⟨.packet command payload, .awaiting t d⟩)
      (ready : s.rendezvous.channel t ≠ .opened ∨ d ≤ s.now) :
      Smooth s base (.call n) (s.collect n t (.packet command payload)) base

variable {s s' : Session L} {base base' : Bytes} {a : Agent}

/-- An agent that may write is the first in line, and its write goes on, or is over, or there
was nothing to write. -/
theorem Afloat.write (h : s.Afloat base) (hr : s.outlet.ready s.link a = true)
    (ha : a = .reader → s.isReading = false) :
    ∃ o begun r w l p base', s.wants a = some o ∧ s.outlet.move s.link a = (w, l, p) ∧
      s.Writes ⟨a, o, begun⟩ r w l base' ∧
      (p = none ∧ base' = base ∧ w.line = ⟨a, o, true⟩ :: r ∨
        p = some (.ok .sent) ∧ base' = base ++ s.outlet.bytes ⟨a, o, begun⟩ ∧ w.line = r ∨
        p = some (.ok .nothing) ∧ base' = base ∧ o = .again ∧ w.line = r) := by
  obtain ⟨⟨a, o, begun⟩, r, hline, rfl⟩ := Outlet.ready_agent hr
  obtain ⟨put, hbelow⟩ := h.below
  obtain ⟨hmoved, hlabour⟩ := hbelow.move hline h.serves.once hr ha
  have hin := (Outlet.move_onward hr).1.incoming
  have hwants : s.wants a = some o := by
    have hserves := h.serves
    rw [hline] at hserves
    exact hserves.head
  simp only at hmoved hlabour hin ⊢
  generalize s.outlet.move s.link a = q at hmoved hlabour hin
  cases hmoved with
  | on hl hb =>
    exact ⟨o, begun, r, _, _, _, base, hwants, rfl, ⟨hline, hin, hlabour, _, hb⟩,
      .inl ⟨rfl, rfl, hl⟩⟩
  | through hl hb =>
    exact ⟨o, begun, r, _, _, _, _, hwants, rfl, ⟨hline, hin, hlabour, _, hb⟩,
      .inr (.inl ⟨rfl, rfl, hl⟩)⟩
  | nothing hl ho hb =>
    exact ⟨o, begun, r, _, _, _, base, hwants, rfl, ⟨hline, hin, hlabour, _, hb⟩,
      .inr (.inr ⟨rfl, rfl, ho, hl⟩)⟩

/-- A read finds a byte or goes on waiting. -/
theorem Afloat.read (h : s.Afloat base) (hr : s.readerReady = true)
    (hwants : s.wants .reader = none) :
    ∃ base', s.Smooth base .reader s.moveReader base' := by
  obtain ⟨put, hbelow⟩ := h.below
  -- whoever writes is not the reading agent
  have hout : ∀ e, s.outlet.line.head? = some e → e.agent ≠ .reader := by
    intro e he ha
    have hsome := (h.serves.wants .reader e.outgoing).mpr ⟨e, List.mem_of_mem_head? he, ha, rfl⟩
    rw [hwants] at hsome
    cases hsome
  cases hreader : s.reader with
  | idle =>
    have hreads := FarEnd.beginRead s.link .reader
    have hworks := fun u (hu : Steady.works s.link false u) => Steady.begins_read hu
    have hidle : s.isReading = false := by rw [isReading, hreader]
    rw [hidle] at hbelow
    obtain ⟨u, hu, -⟩ := hbelow.works
    have hmove : s.moveReader = s.afterRead (Link.beginRead s.link .reader) := by
      simp only [moveReader, hreader]
    have hnext : s.nextByte = byteRead (Link.beginRead s.link .reader) := by
      simp only [nextByte, hreader]
    rw [hmove]
    generalize Link.beginRead s.link .reader = q at hreads hworks hnext
    obtain ⟨l, p⟩ := q
    obtain ⟨hwire, hlabour, ⟨b, rfl, -⟩ | ⟨rfl, -⟩⟩ := hworks u hu
    · refine ⟨base, .reads hwants hnext (hreads.takes b rfl) hlabour ⟨put, ?_⟩⟩
      refine hbelow.link hwire fun u _ hu => ?_
      obtain ⟨-, -, ⟨b', -, hw⟩ | ⟨hno, -⟩⟩ := hworks u hu
      · exact hw
      · cases hno
    · refine ⟨base, .waits hreader hnext (hreads.waits rfl) hlabour ⟨put, ?_⟩⟩
      refine hbelow.link hwire fun u _ hu => ?_
      obtain ⟨-, -, ⟨b', hno, -⟩ | ⟨-, hw⟩⟩ := hworks u hu
      · cases hno
      · exact hw
  | reading =>
    have hready : Link.ready s.link .reader = true := by simpa only [readerReady, hreader] using hr
    have hreads := FarEnd.resumeRead s.link .reader
    have hworks := fun u (hu : Steady.works s.link true u) hne => Steady.resumes_read hu hne hready
    have hwaits : s.isReading = true := by rw [isReading, hreader]
    rw [hwaits] at hbelow
    obtain ⟨u, hu, hwrites⟩ := hbelow.works
    have hne : ∀ u : Option (Agent × Bytes),
        (∀ a rest, u = some (a, rest) → ∃ e, s.outlet.line.head? = some e ∧ e.agent = a) →
        ∀ rest, u ≠ some (.reader, rest) := by
      intro u hwrites rest hu
      obtain ⟨e, he, ha⟩ := hwrites .reader rest hu
      exact hout e he ha
    have hmove : s.moveReader = s.afterRead (Link.resumeRead s.link .reader) := by
      simp only [moveReader, hreader]
    have hnext : s.nextByte = byteRead (Link.resumeRead s.link .reader) := by
      simp only [nextByte, hreader]
    rw [hmove]
    generalize Link.resumeRead s.link .reader = q at hreads hworks hnext
    obtain ⟨l, p⟩ := q
    obtain ⟨hwire, hlabour, b, rfl, -⟩ := hworks u hu (hne u hwrites)
    refine ⟨base, .reads hwants hnext (hreads.takes b rfl) hlabour ⟨put, ?_⟩⟩
    refine hbelow.link hwire fun u hwrites hu => ?_
    obtain ⟨-, -, -, -, hw⟩ := hworks u hu (hne u hwrites)
    exact hw
  | acking | resending => simp [wants, hreader] at hwants
  | closing | ended =>
    have hon := h.readsOn
    simp [Session.readsOn, hreader] at hon

/-- **What a move of the reading agent can be.** -/
theorem Afloat.smooth_reader (h : s.Afloat base) (hr : s.readerReady = true) :
    ∃ base', s.Smooth base .reader s.moveReader base' := by
  cases hreader : s.reader with
  | idle | reading => exact h.read hr (by simp only [Session.wants, hreader])
  | acking =>
    have hready : s.outlet.ready s.link .reader = true := by
      simpa only [readerReady, hreader] using hr
    have hidle : s.isReading = false := by rw [isReading, hreader]
    obtain ⟨o, begun, r, w, l, p, base', hwants, hmove, hwrite, hcases⟩ :=
      h.write hready fun _ => hidle
    obtain rfl : .ack = o := by simpa only [Session.wants, hreader, Option.some.injEq] using hwants
    have hafter : s.moveReader = s.afterAck (w, l, p) := by
      simp only [moveReader, hreader, hmove]
    rw [hafter]
    rcases hcases with ⟨rfl, rfl, hl⟩ | ⟨rfl, rfl, hl⟩ | ⟨-, -, ho, -⟩
    · exact ⟨_, .writes hwrite hl⟩
    · exact ⟨_, .acked hreader hwrite hl⟩
    · cases ho
  | resending =>
    have hready : s.outlet.ready s.link .reader = true := by
      simpa only [readerReady, hreader] using hr
    have hidle : s.isReading = false := by rw [isReading, hreader]
    obtain ⟨o, begun, r, w, l, p, base', hwants, hmove, hwrite, hcases⟩ :=
      h.write hready fun _ => hidle
    obtain rfl : .again = o := by
      simpa only [Session.wants, hreader, Option.some.injEq] using hwants
    have hafter : s.moveReader = s.afterResend (w, l, p) := by
      simp only [moveReader, hreader, hmove]
    rw [hafter]
    rcases hcases with ⟨rfl, rfl, hl⟩ | ⟨rfl, rfl, hl⟩ | ⟨rfl, rfl, -, hl⟩
    · exact ⟨_, .writes hwrite hl⟩
    · exact ⟨_, .resent hreader hwrite hl⟩
    · exact ⟨_, .spared hreader hwrite hl⟩
  | closing | ended =>
    have hon := h.readsOn
    simp [Session.readsOn, hreader] at hon

/-- **What a move of a call can be.** -/
theorem Afloat.smooth_call (h : s.Afloat base) {n : ℕ} (hr : s.callReady n = true) :
    ∃ base', s.Smooth base (.call n) (s.moveCall n) base' := by
  unfold callReady at hr
  cases hc : s.calls[n]? with
  | none => simp only [hc, Bool.false_eq_true] at hr
  | some c =>
    obtain ⟨⟨command, payload, hask⟩, hplain⟩ := h.plain c (List.mem_of_getElem? hc)
    have hp : s.phase? n = some c.phase := phase?_of_call hc
    have hframe : s.frame? n = some (commandFrame command payload) := by
      simp only [frame?, hc, hask, Ask.body?, Option.bind_some, Option.map_some]
    obtain ⟨ask, phase⟩ := c
    obtain rfl := hask
    simp only [hc] at hr
    simp only [moveCall, hc, Ask.body?]
    cases phase with
    | issued => exact ⟨base, .asks hp⟩
    | queued =>
      cases hclaim : s.rendezvous.claim with
      | mk m ticket =>
        cases ticket with
        | none =>
          rw [s.rendezvous.claim_of_open h.opened] at hclaim
          cases hclaim
        | some t =>
          simp only [claim, hclaim]
          exact ⟨base, .claims hp hframe hclaim⟩
    | sending t =>
      obtain ⟨o, begun, r, w, l, p, base', hwants, hmove, hwrite, hcases⟩ :=
        h.write hr (by rintro ⟨⟩)
      obtain rfl : .frame (commandFrame command payload) = o := by
        simpa only [Session.wants, hp, hframe, Option.map_some, Option.some.injEq] using hwants
      simp only [hmove]
      rcases hcases with ⟨rfl, rfl, hl⟩ | ⟨rfl, rfl, hl⟩ | ⟨-, -, ho, -⟩
      · exact ⟨_, .writes hwrite hl⟩
      · exact ⟨_, .sent hp hframe hwrite hl⟩
      · cases ho
    | awaiting t d =>
      simp only [Bool.or_eq_true, bne_iff_ne, decide_eq_true_eq] at hr
      exact ⟨base, .collects hc hr⟩
    | shutting | joining | aborted => exact hplain.elim
    | ended => cases hr

/-- **What a move can be** in a session that is afloat. -/
theorem Afloat.smooth (h : s.Afloat base) (hr : Interplay.ready s a = true) :
    ∃ base', s.Smooth base a (Interplay.move s a) base' := by
  cases a with
  | reader => exact h.smooth_reader hr
  | call n => exact h.smooth_call hr
  | release | porter | chance | farWriter | farReader =>
    obtain ⟨put, hbelow⟩ := h.below
    obtain ⟨hafter, hlabour⟩ := hbelow.helps hr
    exact ⟨base, .helps ⟨nofun, nofun⟩ (FarEnd.helperMove s.link _).incoming hlabour hafter⟩

/-! ### A move keeps the session afloat -/

/-- A move takes the next byte off the link, or no byte at all. -/
theorem Smooth.reads_or (hs : s.Smooth base a s' base') (h : s.Afloat base) :
    (∃ l b, a = .reader ∧ s.wants .reader = none ∧ s.nextByte = some b ∧
      FarEnd.incoming s.link = b :: FarEnd.incoming l ∧
      s' = ({ s with link := l } : Session L).takeByte b ∧ base' = base) ∨
    (a = .reader → s.nextByte = none) := by
  cases hs with
  | waits reader next incoming labour below => exact .inr fun _ => next
  | @reads l b reader next incoming labour below =>
    exact .inl ⟨l, b, rfl, reader, next, incoming, rfl, rfl⟩
  | helps helper incoming labour below => exact .inr fun ha => absurd ha helper.1
  | @writes a o begun r w l write line =>
    right
    rintro rfl
    have hserves := h.serves
    rw [write.line] at hserves
    exact nextByte_of_wants hserves.head
  | acked reader write line => exact .inr fun _ => by simp only [nextByte, reader]
  | resent reader write line => exact .inr fun _ => by simp only [nextByte, reader]
  | spared reader write line => exact .inr fun _ => by simp only [nextByte, reader]
  | asks | claims | sent | collects => exact .inr nofun

/-- A write of the reading agent is over, and it goes on reading. -/
theorem Afloat.resume (h : s.Afloat base) {begun : Bool} {o : Outgoing} {r : List Outlet.Entry}
    {w : Outlet} {l : L} (hidle : s.isReading = false)
    (hwrite : s.Writes ⟨.reader, o, begun⟩ r w l base') (hl : w.line = r) (c : Counters) :
    ({ s with outlet := w, link := l, counters := c, reader := .idle } : Session L).Afloat
      base' := by
  have hserves := h.serves
  rw [hwrite.line] at hserves
  refine ⟨?_, ?_, rfl, h.opened, h.held, h.plain⟩
  · have hbelow := hwrite.below
    rwa [hidle] at hbelow
  · refine hl ▸ hserves.leave rfl fun b hb => ?_
    cases b with
    | reader => exact absurd rfl hb
    | _ => rfl

/-- A call that wants to write no more gets into another phase. -/
theorem Afloat.setPhase (h : s.Afloat base) {n : ℕ} {o φ : CallPhase} (ho : s.phase? n = some o)
    (hno : ∀ t, o ≠ .sending t)
    (hφ : match φ with | .sending _ | .shutting _ | .joining _ | .aborted => False | _ => True) :
    (s.setPhase n φ).Afloat base := by
  have hwants : (s.setPhase n φ).wants = s.wants := by
    funext b
    by_cases hb : b = .call n
    · subst hb
      rw [wants_setPhase_self ho]
      simp only [Session.wants, ho]
      cases o with
      | sending t => exact absurd rfl (hno t)
      | _ => cases φ <;> first | rfl | exact hφ.elim
    · exact wants_setPhase_ne s n φ hb
  refine ⟨h.below, ?_, h.readsOn, h.opened, h.held, plain_setPhase n h.plain ?_⟩
  · show Outlet.Serves s.outlet.line (s.setPhase n φ).wants
    rw [hwants]
    exact h.serves
  · cases φ <;> trivial

/-- A byte is read, and what it calls for is written next. -/
theorem Afloat.takeByte (h : s.Afloat base) {l : L} (hreader : s.wants .reader = none)
    (hbelow : ∃ put, s.outlet.Below l false base put) (b : UInt8) :
    (({ s with link := l } : Session L).takeByte b).Afloat base := by
  obtain ⟨hheld, -, hclosed⟩ := takeByte_keeps ({ s with link := l } : Session L) b
  obtain ⟨-, -, hlink, hon, -⟩ := takeByte_facts ({ s with link := l } : Session L) b
  have hcalls := calls_takeByte ({ s with link := l } : Session L) b
  obtain ⟨put, hbelow⟩ := hbelow
  have hother : ∀ a, a ≠ .reader →
      (({ s with link := l } : Session L).takeByte b).wants a = s.wants a := by
    intro a ha
    cases a with
    | reader => exact absurd rfl ha
    | call n => simp only [Session.wants, phase?, frame?, hcalls]
    | _ => rfl
  refine ⟨⟨put, ?_⟩, ?_, hon, hclosed.trans h.opened, hheld.trans h.held,
    fun c hc => h.plain c (hcalls ▸ hc)⟩
  · rw [hlink]
    rcases takeByte_writes ({ s with link := l } : Session L) b with
      ⟨hw, hnext⟩ | ⟨o, hw, ⟨-, hnext⟩ | ⟨-, hnext⟩⟩ <;> rw [hw, isReading, hnext]
    · exact hbelow
    · exact hbelow.enter .reader o
    · exact hbelow.enter .reader o
  · rcases takeByte_writes ({ s with link := l } : Session L) b with
      ⟨hw, hnext⟩ | ⟨o, hw, ho⟩
    · rw [hw]
      refine Eq.subst (motive := Outlet.Serves s.outlet.line) ?_ h.serves
      funext a
      by_cases ha : a = .reader
      · subst ha
        rw [hreader]
        simp only [Session.wants, hnext]
      · exact (hother a ha).symm
    · rw [hw]
      refine h.serves.enter hreader ?_ hother
      rcases ho with ⟨rfl, hnext⟩ | ⟨rfl, hnext⟩ <;> simp only [Session.wants, hnext]

/-- **A move keeps the session afloat.** -/
theorem Smooth.afloat (hs : s.Smooth base a s' base') (h : s.Afloat base) : s'.Afloat base' := by
  cases hs with
  | waits reader next incoming labour below =>
    refine ⟨below, ?_, rfl, h.opened, h.held, h.plain⟩
    have hserves : s.wants = ({ s with reader := .reading } : Session L).wants := by
      funext b
      cases b with
      | reader => simp only [Session.wants, reader]
      | _ => rfl
    exact hserves ▸ h.serves
  | @reads l b reader next incoming labour below => exact h.takeByte reader below b
  | helps helper incoming labour below =>
    exact ⟨below, h.serves, h.readsOn, h.opened, h.held, h.plain⟩
  | writes write line =>
    refine ⟨write.below, ?_, h.readsOn, h.opened, h.held, h.plain⟩
    have hserves := h.serves
    rw [write.line] at hserves
    exact line ▸ hserves.begin
  | acked reader write line => exact h.resume (by rw [isReading, reader]) write line _
  | resent reader write line => exact h.resume (by rw [isReading, reader]) write line _
  | spared reader write line => exact h.resume (by rw [isReading, reader]) write line _
  | @asks n phase =>
    have hline : ({ s with commandLine := s.commandLine ++ [n] } : Session L).Afloat base :=
      ⟨h.below, h.serves, h.readsOn, h.opened, h.held, h.plain⟩
    exact hline.setPhase phase (by rintro _ ⟨⟩) trivial
  | @claims n t bytes m phase frame claim =>
    obtain ⟨put, hbelow⟩ := h.below
    have hopen : m.closed = false := by
      rw [s.rendezvous.claim_of_open h.opened] at claim
      cases claim
      exact s.rendezvous.closed_clear.trans h.opened
    refine ⟨⟨put, hbelow.enter (.call n) (.frame bytes)⟩, ?_, h.readsOn, hopen, h.held,
      plain_setPhase n h.plain trivial⟩
    refine h.serves.enter (a := .call n) (o := .frame bytes) ?_ ?_ fun b hb => ?_
    · simp only [Session.wants, phase]
    · rw [wants_setPhase_self (by exact phase)]
      exact congrArg (Option.map Outgoing.frame) frame
    · exact wants_setPhase_ne _ n (.sending t) hb
  | @sent n t bytes begun r w l phase frame write line =>
    have hserves := h.serves
    rw [write.line] at hserves
    refine ⟨write.below, ?_, h.readsOn, h.opened, h.held, plain_setPhase n h.plain trivial⟩
    refine line ▸ hserves.leave ?_ fun b hb => ?_
    · rw [wants_setPhase_self (by exact phase)]
    · exact wants_setPhase_ne _ n _ hb
  | @collects n t d command payload call ready =>
    obtain ⟨m, c, result, hcollect, hclosed⟩ :=
      collect_of_held h.held n t (.packet command payload)
    have hp : s.phase? n = some (.awaiting t d) := by rw [phase?, call]; rfl
    have hleft : ({ s with
        rendezvous := m
        counters := c
        commandLine := s.commandLine.erase n } : Session L).Afloat base :=
      ⟨h.below, h.serves, h.readsOn, hclosed.trans h.opened, h.held, h.plain⟩
    rw [hcollect]
    exact hleft.setPhase (o := .awaiting t d) hp (by rintro _ ⟨⟩) trivial

/-! ### What is still to be done -/

/-- No frame and no repetition is longer than `F`. -/
structure Bounded (s : Session L) (F : ℕ) : Prop where
  pos : 0 < F
  frames : ∀ n bytes, s.frame? n = some bytes → bytes.length ≤ F
  last : (s.outlet.last.getD []).length ≤ F

/-- More than the moves still to be made before the session comes to rest, when nothing that
is written is longer than `F`. A byte that is read can make somebody write. -/
def ahead (F : ℕ) (s : Session L) : ℕ :=
  Steady.labour s.link + (2 * F + 7) * (FarEnd.incoming s.link).length + s.reader.ahead
    + (s.calls.map fun c => c.phase.ahead F).sum + Outlet.ahead F s.outlet.line

theorem ahead_setPhase (F : ℕ) {n : ℕ} {o : CallPhase} (ho : s.phase? n = some o)
    (φ : CallPhase) : (s.setPhase n φ).ahead F + o.ahead F = s.ahead F + φ.ahead F := by
  obtain ⟨c, hc, rfl⟩ := Option.map_eq_some_iff.mp ho
  have hsum : ((s.setPhase n φ).calls.map fun c => c.phase.ahead F).sum + c.phase.ahead F
      = (s.calls.map fun c => c.phase.ahead F).sum + φ.ahead F :=
    sum_modify (fun c : Call => c.phase.ahead F) (fun c => { c with phase := φ }) hc
  simp only [setPhase] at hsum
  simp only [ahead, setPhase]
  omega

variable {F : ℕ}

/-- Behind the first in line nobody's turn has come. -/
theorem Writes.behind (h : s.Afloat base) {e : Outlet.Entry} {r : List Outlet.Entry} {w : Outlet}
    {l : L} (hw : s.Writes e r w l base') : ∀ e ∈ r, e.begun = false := by
  obtain ⟨put, hbelow⟩ := h.below
  exact fun e he => hbelow.behind e (by rw [hw.line]; exact he)

/-- A part of a write takes more than it brings. -/
theorem Writes.labour_lt (h : s.Afloat base) (hF : s.Bounded F) {o : Outgoing} {begun : Bool}
    {r : List Outlet.Entry} {w : Outlet} {l : L} (hw : s.Writes ⟨a, o, begun⟩ r w l base') :
    Steady.labour l + Outlet.ahead F r
      < Steady.labour s.link + Outlet.ahead F s.outlet.line := by
  have hbytes : (s.outlet.bytes ⟨a, o, begun⟩).length ≤ F := by
    have hwants := h.serves
    rw [hw.line] at hwants
    cases o with
    | frame bytes =>
      obtain ⟨n, -, hf⟩ := wants_frame hwants.head
      exact hF.frames n bytes hf
    | ack => exact hF.pos
    | again => exact hF.last
  have hlabour := hw.labour
  rw [hw.line, Outlet.ahead_cons]
  cases begun with
  | true =>
    simp only [if_true] at hlabour ⊢
    omega
  | false =>
    simp only [Bool.false_eq_true, if_false] at hlabour ⊢
    omega

/-- **A move takes something from what is still to be done.** -/
theorem Smooth.ahead_lt (hs : s.Smooth base a s' base') (h : s.Afloat base) (hF : s.Bounded F) :
    s'.ahead F < s.ahead F := by
  cases hs with
  | waits reader next incoming labour below =>
    simp only [ahead, reader, incoming, ReaderPhase.ahead]
    omega
  | @reads l b reader next incoming labour below =>
    obtain ⟨-, -, hlink, -⟩ := takeByte_facts ({ s with link := l } : Session L) b
    have hcalls := calls_takeByte ({ s with link := l } : Session L) b
    have hlength : (2 * F + 7) * (FarEnd.incoming s.link).length
        = (2 * F + 7) * (FarEnd.incoming l).length + (2 * F + 7) := by
      rw [incoming, List.length_cons, Nat.mul_succ]
    rw [ahead, ahead, hlink, hcalls, hlength]
    rcases takeByte_writes ({ s with link := l } : Session L) b with
      ⟨hw, hreader⟩ | ⟨o, hw, ⟨-, hreader⟩ | ⟨-, hreader⟩⟩ <;> rw [hw, hreader]
    · simp only [ReaderPhase.ahead]
      omega
    · simp only [ReaderPhase.ahead, Outlet.ahead_enter]
      omega
    · simp only [ReaderPhase.ahead, Outlet.ahead_enter]
      omega
  | helps helper incoming labour below =>
    simp only [ahead, incoming]
    omega
  | writes write line =>
    have hlt := write.labour_lt h hF
    simp only [ahead, write.incoming, line, Outlet.ahead_cons, if_true]
    omega
  | acked reader write line =>
    have hlt := write.labour_lt h hF
    simp only [ahead, write.incoming, line, reader, ReaderPhase.ahead, count]
    omega
  | resent reader write line =>
    have hlt := write.labour_lt h hF
    simp only [ahead, write.incoming, line, reader, ReaderPhase.ahead, count]
    omega
  | spared reader write line =>
    have hlt := write.labour_lt h hF
    simp only [ahead, write.incoming, line, reader, ReaderPhase.ahead]
    omega
  | @asks n phase =>
    have hset := ahead_setPhase F
      (s := ({ s with commandLine := s.commandLine ++ [n] } : Session L)) phase .queued
    have hsame : ({ s with commandLine := s.commandLine ++ [n] } : Session L).ahead F = s.ahead F :=
      rfl
    simp only [CallPhase.ahead] at hset
    omega
  | @claims n t bytes m phase frame claim =>
    have hset := ahead_setPhase F (s := ({ s with
      rendezvous := m
      outlet := s.outlet.enter (.call n) (.frame bytes) } : Session L)) phase (.sending t)
    have hmore : ({ s with
        rendezvous := m
        outlet := s.outlet.enter (.call n) (.frame bytes) } : Session L).ahead F
        = s.ahead F + (2 * F + 4) := by
      simp only [ahead, Outlet.ahead_enter]
      omega
    simp only [CallPhase.ahead] at hset
    omega
  | @sent n t bytes begun r w l phase frame write line =>
    have hlt := write.labour_lt h hF
    have hset := ahead_setPhase F
      (s := (({ s with outlet := w, link := l } : Session L).count .commandsSent)) phase
      (.awaiting t (s.now + s.settings.replyTimeoutMs))
    have hless : (({ s with outlet := w, link := l } : Session L).count .commandsSent).ahead F
        < s.ahead F := by
      simp only [ahead, write.incoming, line, count]
      omega
    simp only [CallPhase.ahead] at hset
    omega
  | @collects n t d command payload call ready =>
    obtain ⟨m, c, result, hcollect, -⟩ := collect_of_held h.held n t (.packet command payload)
    have hp : s.phase? n = some (.awaiting t d) := by rw [phase?, call]; rfl
    have hset := ahead_setPhase F (s := ({ s with
      rendezvous := m
      counters := c
      commandLine := s.commandLine.erase n } : Session L)) hp (.ended result)
    have hsame : ({ s with
        rendezvous := m
        counters := c
        commandLine := s.commandLine.erase n } : Session L).ahead F = s.ahead F := rfl
    rw [hcollect]
    simp only [CallPhase.ahead] at hset
    omega

/-! ### At rest -/

/-- Whoever is the first in line can write, unless the link is still at work. -/
theorem Afloat.first_ready (h : s.Afloat base) (hstill : Still s.link) {e : Outlet.Entry}
    {r : List Outlet.Entry} (hline : s.outlet.line = e :: r) :
    Interplay.ready s e.agent = true := by
  obtain ⟨a, o, begun⟩ := e
  have hready : s.outlet.ready s.link a = true := by
    cases begun with
    | false => simp [Outlet.ready, hline]
    | true =>
      obtain ⟨put, hbelow⟩ := h.below
      obtain ⟨rest, -, hworks⟩ := hbelow.busy _ (by rw [hline]; rfl) rfl
      simp [Outlet.ready, hline, Steady.write_ready hworks hstill]
  have hserves := h.serves
  rw [hline] at hserves
  have hwants := hserves.head
  cases a with
  | reader =>
    show s.readerReady = true
    cases hreader : s.reader with
    | acking | resending => simpa only [readerReady, hreader] using hready
    | _ => simp [Session.wants, hreader] at hwants
  | call n =>
    show s.callReady n = true
    cases hc : s.calls[n]? with
    | none => simp [Session.wants, phase?, hc] at hwants
    | some c =>
      obtain ⟨ask, phase⟩ := c
      cases phase with
      | sending t => simpa only [callReady, hc] using hready
      | _ => simp [Session.wants, phase?, hc] at hwants
  | _ => simp [Session.wants] at hwants

/-- **At rest** everything that was sent is read, all writes are over, and the target has got
them. -/
theorem Afloat.rest (h : s.Afloat base) (hrest : Interplay.AtRest s) :
    s.outlet.line = [] ∧ s.reader = .reading ∧ FarEnd.incoming s.link = [] ∧
      Link.delivered s.link = base := by
  have hstill : Still s.link :=
    ⟨hrest .release, hrest .porter, hrest .chance, hrest .farWriter, hrest .farReader⟩
  obtain ⟨put, hbelow⟩ := h.below
  have hline : s.outlet.line = [] := by
    cases hw : s.outlet.line with
    | nil => rfl
    | cons e r =>
      have hmoves := h.first_ready hstill hw
      rw [hrest e.agent] at hmoves
      cases hmoves
  obtain ⟨rfl, hworks⟩ := hbelow.idle (by rw [hline]; rintro _ ⟨⟩)
  have hreader : s.reader = .reading := by
    have hnone : s.wants .reader = none := by
      refine Option.eq_none_iff_forall_ne_some.mpr fun o ho => ?_
      obtain ⟨e, he, -⟩ := (h.serves.wants .reader o).mp ho
      rw [hline] at he
      cases he
    have hwait : s.readerReady = false := hrest .reader
    have hon := h.readsOn
    cases hreader : s.reader with
    | reading => rfl
    | idle => simp [readerReady, hreader] at hwait
    | acking | resending => simp [Session.wants, hreader] at hnone
    | closing | ended => simp [Session.readsOn, hreader] at hon
  have hreads : s.isReading = true := by rw [isReading, hreader]
  have hwait : Link.ready s.link .reader = false := by
    have hwait : s.readerReady = false := hrest .reader
    simpa only [readerReady, hreader] using hwait
  rw [hreads] at hworks
  refine ⟨hline, hreader, Steady.all_read hworks (by rintro _ ⟨⟩) hstill hwait, ?_⟩
  rw [Steady.all_delivered hworks hstill, hbelow.wire, List.append_nil]

end Working

end Session

end ProbeLink
