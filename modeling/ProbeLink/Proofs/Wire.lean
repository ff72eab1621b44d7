/-
# What the target gets on a pipe

A session on a pipe of any capacity, with anything done on this side of the link, calls
being given up included, and anything done by the far end (`Session.Doing`). Everything in
the pipe is a whole command frame or an acknowledgement, or was torn when a call was given
up in the middle of its frame; behind that stands a beginning of what is being written
(`Session.Laid`, kept by everything).

So what the target has got is a beginning of such pieces one after the other
(`Session.delivered_whole`). If a call is given up while a part of its frame is in the pipe,
whatever is written next starts inside that frame (`Session.ack_inside_frame`).

Key definitions: `Session.Doing`, `Session.tears`, `Session.tornBy`, `Session.Laid`.
Key theorems: `Session.Laid.act`, `Session.Laid.throughout`, `Session.delivered_whole`.
-/
import ProbeLink.Proofs.Holders
import ProbeLink.Proofs.Places

namespace ProbeLink

namespace StreamLink

/-! ### Operations that write nothing -/

variable (l : StreamLink Pipe) (a : Agent)

/-- A byte that is taken out comes from what was read ahead, or out of the pipe. -/
theorem draw_writes_nothing : ∃ p buffered, l.draw.1 = { l with port := p, buffered } ∧
    Port.taken p = Port.taken l.port ∧ p.gone = l.port.gone := by
  unfold draw
  split
  · exact ⟨l.port, _, rfl, rfl, rfl⟩
  · split <;> rename_i hr <;> obtain rfl := congrArg Prod.fst hr <;>
      exact ⟨(l.port.read).1, _, rfl, rfl, rfl⟩

/-- A read that is moved on is over. -/
theorem resumeRead_writes_nothing : ∃ p buffered, (l.resumeRead a).1
      = { l with readers := l.readers.erase a, port := p, buffered, flagFirst := false } ∧
    Port.taken p = Port.taken l.port ∧ p.gone = l.port.gone ∧ (l.resumeRead a).2 ≠ none := by
  unfold resumeRead
  dsimp only
  split
  · exact ⟨l.port, l.buffered, rfl, rfl, rfl, nofun⟩
  · obtain ⟨p, buffered, hlink, htaken, hgone⟩ := draw_writes_nothing
      { l with readers := l.readers.erase a, flagFirst := false }
    exact ⟨p, buffered, hlink, htaken, hgone, nofun⟩

/-- Whoever shuts the write half down when its turn has come is through. -/
theorem resumeShutdown_writes_nothing : ∃ p half, l.resumeShutdown a
      = (({ l with port := p, half } : StreamLink Pipe).leave a, some (.ok ())) ∧
    Port.taken p = Port.taken l.port ∧ p.gone = l.port.gone := by
  unfold resumeShutdown
  split
  · exact ⟨l.port.shutdown, .gone, rfl, rfl, rfl⟩
  · exact ⟨l.port, l.half, rfl, rfl, rfl⟩

theorem close_writes_nothing : ∃ isClosed half, l.close = { l with isClosed, half } := by
  unfold close release
  simp only
  repeat' split
  all_goals first | exact ⟨_, _, rfl⟩

theorem writing_beginShutdown : (l.beginShutdown a).1.writing = l.writing := by
  simp only [beginShutdown, writing, List.filterMap_append]
  exact List.append_nil _

theorem shutdown_beginShutdown {b : Agent}
    (h : (b, .shutdown) ∈ (l.beginShutdown a).1.writers) : (b, .shutdown) ∈ l.writers ∨ b = a := by
  rcases List.mem_append.mp h with hb | hb
  · exact .inl hb
  · exact .inr (congrArg Prod.fst (List.mem_singleton.mp hb))

end StreamLink

namespace Session

/-! ### What everybody wants -/

section States

variable {L : Type} {s s' : Session L} {a : Agent} {o : Outgoing}

/-- The agent waits for the link to be shut down. -/
def Shuts (s : Session L) : Agent → Prop
  | .reader => match s.reader with
    | .closing _ => True
    | _ => False
  | .call n => match s.phase? n with
    | some (.shutting _) => True
    | _ => False
  | _ => False

/-- An acknowledgement, or the whole frame of a call. -/
def Utters (s : Session L) (bytes : Bytes) : Prop :=
  bytes = [ackByte] ∨ ∃ n, s.frame? n = some bytes

/-- Whoever wants to write does not wait for the link to be shut down. -/
theorem not_shuts_of_wants (h : s.wants a = some o) : ¬s.Shuts a := by
  intro hs
  cases a with
  | reader =>
    simp only [Shuts] at hs
    simp only [wants] at h
    split at hs
    · rename_i hreader
      simp [hreader] at h
    · exact hs
  | call n =>
    simp only [Shuts] at hs
    simp only [wants] at h
    split at hs
    · rename_i hphase
      simp [hphase] at h
    · exact hs
  | release | porter | chance | farWriter | farReader => exact hs

/-- Whoever wants to write does not read. -/
theorem not_reading_of_wants (h : s.wants a = some o) (ha : a = .reader) : s.isReading = false := by
  subst ha
  unfold wants at h
  unfold isReading
  split
  · rename_i hreader
    simp [hreader] at h
  · rfl

theorem wants_of_calls (h : s'.calls = s.calls) (ha : a ≠ .reader) : s'.wants a = s.wants a := by
  cases a with
  | reader => exact absurd rfl ha
  | call n => simp only [wants, phase?, frame?, h]
  | release | porter | chance | farWriter | farReader => rfl

/-- The reading agent wanted to write nothing, and still does not. -/
theorem wants_unread (hcalls : s'.calls = s.calls) (hnone : s.wants .reader = none)
    (hnone' : s'.wants .reader = none) (a : Agent) : s'.wants a = s.wants a := by
  by_cases ha : a = .reader
  · rw [ha, hnone, hnone']
  · exact wants_of_calls hcalls ha

/-- At rest nobody who wants to write can move. -/
theorem outlet_not_ready [Link L] (hrest : Interplay.AtRest s) (hwants : s.wants a = some o) :
    s.outlet.ready s.link a = false := by
  cases a with
  | reader =>
    have hreader : s.readerReady = false := hrest .reader
    simp only [wants] at hwants
    unfold readerReady at hreader
    split at hwants
    · rename_i hacking
      rwa [hacking] at hreader
    · rename_i hresending
      rwa [hresending] at hreader
    · cases hwants
  | call n =>
    have hcall : s.callReady n = false := hrest (.call n)
    simp only [wants] at hwants
    split at hwants
    · rename_i t hphase
      obtain ⟨ask, hc, -⟩ := phase?_eq_some hphase
      simpa only [callReady, hc] using hcall
    · cases hwants
  | release | porter | chance | farWriter | farReader => cases hwants

theorem shuts_of_calls (h : s'.calls = s.calls) (ha : a ≠ .reader) (hs : s.Shuts a) :
    s'.Shuts a := by
  cases a with
  | reader => exact absurd rfl ha
  | call n => simpa only [Shuts, phase?, h] using hs
  | release | porter | chance | farWriter | farReader => exact hs

theorem shuts_setPhase_ne (s : Session L) (n : ℕ) (φ : CallPhase) (ha : a ≠ .call n)
    (hs : s.Shuts a) : (s.setPhase n φ).Shuts a := by
  cases a with
  | call k =>
    have hk : n ≠ k := fun hk => ha (hk ▸ rfl)
    simpa only [Shuts, phase?_setPhase_ne s hk] using hs
  | reader | release | porter | chance | farWriter | farReader => exact hs

/-- What may stand in the pipe: what is uttered whole, and what was torn. -/
def Stands (s : Session L) (torn : List Bytes) (bytes : Bytes) : Prop :=
  s.Utters bytes ∨ bytes ∈ torn

theorem stands_of_asks {torn : List Bytes} (h : s'.calls.map Call.ask = s.calls.map Call.ask)
    (bytes : Bytes) (hs : s.Stands torn bytes) : s'.Stands torn bytes := by
  refine Or.imp_left (Or.imp_right ?_) hs
  rintro ⟨n, hn⟩
  exact ⟨n, (frame?_congr h n).trans hn⟩

/-- Everything that somebody wants to write is said. -/
theorem spoken (s : Session L) (torn : List Bytes) : Outlet.Spoken s.wants (s.Stands torn) where
  ack := .inl (.inl rfl)
  frame a bytes h := by
    obtain ⟨n, -, hframe⟩ := wants_frame h
    exact .inl (.inr ⟨n, hframe⟩)

end States

/-! ### What is in the pipe -/

/-- Everything in the pipe is a whole frame or an acknowledgement, or torn, and behind that
stands a beginning of what is being written. -/
def Laid (s : Session (StreamLink Pipe)) (torn : List Bytes) : Prop :=
  s.outlet.Laid s.link s.isReading s.Shuts s.wants (s.Stands torn)

variable {s : Session (StreamLink Pipe)} {torn : List Bytes}

theorem Laid.readers (h : s.Laid torn) : s.link.readers = if s.isReading then [.reader] else [] :=
  Outlet.Laid.readers h

theorem Laid.shutting (h : s.Laid torn) (a : Agent) (ha : (a, .shutdown) ∈ s.link.writers) :
    s.Shuts a := Outlet.Laid.shutting h a ha

/-- No call reads. -/
theorem Laid.readers_erase (h : s.Laid torn) (n : ℕ) :
    s.link.readers.erase (.call n) = s.link.readers := by
  rw [h.readers]
  split <;> rfl

/-- A session that goes with its last call closes the link and writes nothing. -/
theorem Laid.closeIfForgotten (h : s.Laid torn) : s.closeIfForgotten.Laid torn := by
  unfold Session.closeIfForgotten
  split
  · exact h
  · obtain ⟨isClosed, half, hclose⟩ := s.link.close_writes_nothing
    have hclosed : s.outlet.Laid (Link.close s.link) s.isReading s.Shuts s.wants
        (s.Stands torn) := by
      show s.outlet.Laid s.link.close _ _ _ _
      rw [hclose]
      exact Outlet.Laid.link h rfl id rfl h.readers h.shutting
    exact hclosed

/-- A call that does not write gets into another phase and does not write there. -/
theorem laid_setPhase {l : StreamLink Pipe} {shuts : Agent → Prop} {n : ℕ} {o φ : CallPhase}
    (h : s.outlet.Laid l s.isReading shuts s.wants (s.Stands torn))
    (ho : s.phase? n = some o) (hnone : s.wants (.call n) = none) (hφ : ∀ t, φ ≠ .sending t)
    (hshuts : ∀ a, (a, .shutdown) ∈ l.writers → (s.setPhase n φ).Shuts a) :
    (({ s with link := l } : Session (StreamLink Pipe)).setPhase n φ).Laid torn := by
  have hlaid : s.outlet.Laid l s.isReading (s.setPhase n φ).Shuts s.wants (s.Stands torn) :=
    h.link rfl id rfl h.readers hshuts
  exact hlaid.agrees (wants_setPhase_none ho hnone hφ) (fun _ => id)
    (stands_of_asks (asks_setPhase s n φ))

/-- A call that neither writes nor shuts the link down gets into another such phase. -/
theorem Laid.setPhase (h : s.Laid torn) {n : ℕ} {o φ : CallPhase} (ho : s.phase? n = some o)
    (hnone : s.wants (.call n) = none) (hφ : ∀ t, φ ≠ .sending t)
    (hseat : (.call n, .shutdown) ∉ s.link.writers) : (s.setPhase n φ).Laid torn := by
  refine laid_setPhase (l := s.link) h ho hnone hφ fun a ha => ?_
  have hn : a ≠ .call n := by
    rintro rfl
    exact hseat ha
  exact shuts_setPhase_ne s n φ hn (h.shutting a ha)

/-- A call that neither writes nor shuts the link down ends. -/
theorem Laid.finish (h : s.Laid torn) {n : ℕ} {o : CallPhase} (ho : s.phase? n = some o)
    (hnone : s.wants (.call n) = none) (hseat : (.call n, .shutdown) ∉ s.link.writers)
    (result : Except SessionError Answer) : (s.finish n result).Laid torn := by
  have hended : (s.setPhase n (.ended result)).Laid torn := h.setPhase ho hnone nofun hseat
  exact Laid.closeIfForgotten (s := ({ s with
    commandLine := s.commandLine.erase n } : Session (StreamLink Pipe)).setPhase n (.ended result))
    hended

/-- Whoever has done with the link waits for the reading agent, or leaves. -/
theorem Laid.join (h : s.Laid torn) {n : ℕ} {o : CallPhase} (ho : s.phase? n = some o)
    (hnone : s.wants (.call n) = none) (hseat : (.call n, .shutdown) ∉ s.link.writers) :
    (s.join n).Laid torn := by
  unfold Session.join
  split
  · have hjoins : (s.setPhase n (.joining (s.now + windDownMs))).Laid torn :=
      h.setPhase ho hnone nofun hseat
    exact hjoins
  · exact h.finish ho hnone hseat _

/-- Somebody who does not write leaves the line for the write half. -/
theorem Laid.drop (h : s.Laid torn) {a : Agent} (hnone : s.wants a = none) {l : StreamLink Pipe}
    (htaken : Port.taken l.port = Port.taken s.link.port) (hgone : l.port.gone = s.link.port.gone)
    (hreaders : l.readers = s.link.readers)
    (hwriters : l.writers = (s.link.leave a).writers) :
    (s.outlet.Laid l s.isReading s.Shuts s.wants (s.Stands torn)) ∧
      ∀ b, (b, .shutdown) ∈ l.writers → b ≠ a := by
  have hwriting : l.writing = s.link.writing := by
    rw [StreamLink.writing, hwriters, ← StreamLink.writing, StreamLink.writing_leave]
    exact Outlet.Laid.writing_others h hnone
  have hlaid : s.outlet.Laid l s.isReading s.Shuts s.wants (s.Stands torn) := by
    refine Outlet.Laid.link h htaken hgone.trans hwriting (hreaders.trans h.readers)
      fun b hb => ?_
    rw [hwriters] at hb
    exact h.shutting b (StreamLink.shutdown_leave hb).2
  refine ⟨hlaid, fun b hb => ?_⟩
  rw [hwriters] at hb
  exact (StreamLink.shutdown_leave hb).1

/-- The reading agent, which writes no more, begins to shut the link down. -/
theorem laid_endReader {result : Except SessionError Unit}
    (h : s.outlet.Laid s.link false s.Shuts (s.endReader result).wants (s.Stands torn)) :
    (s.endReader result).Laid torn := by
  have hlaid : s.outlet.Laid (s.link.beginShutdown .reader).1 false (s.endReader result).Shuts
      (s.endReader result).wants (s.Stands torn) := by
    refine h.link rfl id (s.link.writing_beginShutdown .reader) h.readers fun a ha => ?_
    have hself : (s.endReader result).Shuts .reader := trivial
    rcases s.link.shutdown_beginShutdown .reader ha with hold | rfl
    · by_cases hr : a = .reader
      · exact hr ▸ hself
      · exact shuts_of_calls (s := s) rfl hr (h.shutting a hold)
    · exact hself
  exact hlaid

theorem shuts_unread {s' : Session (StreamLink Pipe)} (hcalls : s'.calls = s.calls)
    (hno : ¬s.Shuts .reader) (a : Agent) (hs : s.Shuts a) : s'.Shuts a := by
  by_cases ha : a = .reader
  · exact absurd (ha ▸ hs) hno
  · exact shuts_of_calls hcalls ha hs

/-! ### The reading agent -/

/-- A byte is read, and what it calls for is written next. -/
theorem laid_takeByte {l : StreamLink Pipe}
    (h : s.outlet.Laid l false s.Shuts s.wants (s.Stands torn))
    (hnone : s.wants .reader = none) (hno : ¬s.Shuts .reader) (b : UInt8) :
    (({ s with link := l } : Session (StreamLink Pipe)).takeByte b).Laid torn := by
  obtain ⟨-, -, hlink, -⟩ := takeByte_facts ({ s with link := l } : Session (StreamLink Pipe)) b
  have hcalls := calls_takeByte ({ s with link := l } : Session (StreamLink Pipe)) b
  have hcases := takeByte_writes ({ s with link := l } : Session (StreamLink Pipe)) b
  generalize ({ s with link := l } : Session (StreamLink Pipe)).takeByte b = s' at *
  have hasks : s'.calls.map Call.ask = s.calls.map Call.ask := congrArg _ hcalls
  have hsaid : ∀ p, s.Stands torn p → s'.Stands torn p := stands_of_asks hasks
  have hshuts := shuts_unread hcalls hno
  unfold Laid
  rw [hlink]
  rcases hcases with ⟨hw, hnext⟩ | ⟨o, hw, hnext⟩
  · have hreads : s'.isReading = false := by rw [isReading, hnext]
    rw [hw, hreads]
    refine h.agrees (wants_unread hcalls hnone ?_) hshuts hsaid
    simp only [wants, hnext]
  · have hreads : s'.isReading = false := by
      rcases hnext with ⟨-, hnext⟩ | ⟨-, hnext⟩ <;> rw [isReading, hnext]
    have hwants : s'.wants .reader = some o := by
      rcases hnext with ⟨rfl, hnext⟩ | ⟨rfl, hnext⟩ <;> simp only [wants, hnext]
    rw [hw, hreads]
    refine (h.enter hnone hwants fun a ha => ?_).agrees (fun _ => rfl) hshuts hsaid
    exact wants_of_calls hcalls ha

/-- What a move of a read leaves. -/
theorem laid_afterRead {r : StreamLink Pipe × Progress UInt8}
    (h : s.outlet.Laid r.1 r.2.isNone s.Shuts s.wants (s.Stands torn))
    (hnone : s.wants .reader = none) (hno : ¬s.Shuts .reader) : (s.afterRead r).Laid torn := by
  obtain ⟨l, _ | (e | b)⟩ := r
  · exact h.agrees (wants_unread (s := s) rfl hnone rfl) (shuts_unread rfl hno) fun _ => id
  · refine laid_endReader (s := { s with link := l }) ?_
    exact h.agrees (wants_unread (s := s) rfl hnone rfl) (fun _ => id) fun _ => id
  · exact laid_takeByte h hnone hno b

/-- What a move of a write of the reading agent leaves. -/
theorem laid_readerWrite {q : Outlet × StreamLink Pipe × Progress Written}
    (h : Outlet.Speaks false s.Shuts s.wants (s.Stands torn) .reader q)
    (hreads : s.isReading = false) (hno : ¬s.Shuts .reader) :
    (s.afterAck q).Laid torn ∧ (s.afterResend q).Laid torn := by
  cases h with
  | @on v l laid =>
    have hon : ({ s with outlet := v, link := l } : Session (StreamLink Pipe)).Laid torn := by
      unfold Laid
      rw [show ({ s with outlet := v, link := l } : Session (StreamLink Pipe)).isReading = false
        from hreads]
      exact laid
    exact ⟨hon, hon⟩
  | @ends v l p laid _ =>
    have hidle : ∀ c, ({ s with
        outlet := v
        link := l
        counters := c
        reader := .idle } : Session (StreamLink Pipe)).Laid torn := by
      intro c
      refine (laid _ rfl fun b hb => ?_).agrees (fun _ => rfl) (shuts_unread rfl hno) fun _ => id
      exact wants_of_calls (s := s) rfl hb
    cases p with
    | ok written =>
      cases written with
      | sent => exact ⟨hidle _, hidle _⟩
      | nothing => exact ⟨hidle _, hidle _⟩
    | error e =>
      have hends : (({ s with outlet := v, link := l } : Session (StreamLink Pipe)).failReader
          e).Laid torn := by
        refine laid_endReader (s := { s with outlet := v, link := l }) ?_
        exact laid _ rfl fun b hb => wants_of_calls (s := s) rfl hb
      exact ⟨hends, hends⟩

/-- **A move of the reading agent** leaves nothing torn. -/
theorem Laid.moveReader (h : s.Laid torn) (hr : s.readerReady = true) :
    s.moveReader.Laid torn := by
  have hwrite : ∀ o, s.wants .reader = some o → s.outlet.ready s.link .reader = true →
      (s.afterAck (s.outlet.move s.link .reader)).Laid torn ∧
        (s.afterResend (s.outlet.move s.link .reader)).Laid torn := by
    intro o hwants hready
    have hreads := not_reading_of_wants hwants rfl
    have hspeaks := Outlet.Laid.move h (s.spoken torn) hready (fun _ => hreads)
      (not_shuts_of_wants hwants)
    rw [hreads] at hspeaks
    exact laid_readerWrite hspeaks hreads (not_shuts_of_wants hwants)
  unfold Session.moveReader
  unfold readerReady at hr
  cases hreader : s.reader with
  | idle =>
    have hno : ¬s.Shuts .reader := by simp only [Shuts, hreader, not_false_eq_true]
    have hidle : s.isReading = false := by rw [isReading, hreader]
    refine laid_afterRead ?_ (by simp only [wants, hreader]) hno
    simp only [Link.beginRead, StreamLink.beginRead]
    split
    · exact Outlet.Laid.link h rfl id rfl (h.readers.trans (by rw [hidle]; rfl)) h.shutting
    · refine Outlet.Laid.link h rfl id rfl ?_ h.shutting
      show s.link.readers ++ [.reader] = [.reader]
      rw [h.readers, hidle]
      rfl
  | reading =>
    have hno : ¬s.Shuts .reader := by simp only [Shuts, hreader, not_false_eq_true]
    have hwaits : s.isReading = true := by rw [isReading, hreader]
    refine laid_afterRead ?_ (by simp only [wants, hreader]) hno
    obtain ⟨p, buffered, hlink, htaken, hgone, hover⟩ :=
      s.link.resumeRead_writes_nothing .reader
    have hsome : (Link.resumeRead s.link .reader).2.isNone = false :=
      Option.isNone_eq_false_iff.mpr (Option.isSome_iff_ne_none.mpr hover)
    rw [hsome]
    show s.outlet.Laid (s.link.resumeRead .reader).1 _ _ _ _
    rw [hlink]
    refine Outlet.Laid.link h htaken hgone.trans rfl ?_ h.shutting
    show s.link.readers.erase .reader = []
    rw [h.readers, hwaits]
    rfl
  | acking =>
    simp only [hreader] at hr
    exact (hwrite .ack (by simp only [wants, hreader]) hr).1
  | resending =>
    simp only [hreader] at hr
    exact (hwrite .again (by simp only [wants, hreader]) hr).2
  | closing result =>
    have hnone : s.wants .reader = none := by simp only [wants, hreader]
    obtain ⟨p, half, hlink, htaken, hgone⟩ := s.link.resumeShutdown_writes_nothing .reader
    obtain ⟨hlaid, hleft⟩ := h.drop hnone htaken hgone rfl
      (l := ({ s.link with port := p, half } : StreamLink Pipe).leave .reader) rfl
    simp only [Link.resumeShutdown, hlink]
    have hidle : s.isReading = false := by rw [isReading, hreader]
    rw [hidle] at hlaid
    refine (hlaid.link rfl id rfl hlaid.readers fun a ha => ?_).agrees
      (wants_unread (s := s) rfl hnone rfl) (fun _ => id) fun _ => id
    exact shuts_of_calls (s := s) rfl (hleft a ha) (hlaid.shutting a ha)
  | ended result => exact h

/-! ### Calls -/

/-- A call whose frame is written, or was not, gets into another phase. -/
theorem laid_written {v : Outlet} {l : StreamLink Pipe} {n : ℕ} {o φ : CallPhase}
    (h : ∀ wants', wants' (.call n) = none → (∀ b ≠ .call n, wants' b = s.wants b) →
      v.Laid l s.isReading s.Shuts wants' (s.Stands torn))
    (ho : s.phase? n = some o) (hno : ¬s.Shuts (.call n)) (hφ : ∀ t, φ ≠ .sending t) :
    (({ s with outlet := v, link := l } : Session (StreamLink Pipe)).setPhase n φ).Laid torn := by
  have hwants : (s.setPhase n φ).wants (.call n) = none := by
    rw [wants_setPhase_self ho]
    cases φ with
    | sending t => exact absurd rfl (hφ t)
    | _ => rfl
  refine (h _ hwants fun b hb => wants_setPhase_ne s n φ hb).agrees (fun _ => rfl)
    (fun a ha => ?_) (stands_of_asks (asks_setPhase s n φ))
  have hn : a ≠ .call n := by
    rintro rfl
    exact hno ha
  exact shuts_setPhase_ne s n φ hn ha

/-- The end of the session begins: the call gets in line to shut the link down. -/
theorem Laid.windDown (h : s.Laid torn) {n : ℕ} {o : CallPhase} (ho : s.phase? n = some o)
    (hnone : s.wants (.call n) = none) : (s.windDown n).Laid torn := by
  have hlaid : s.outlet.Laid (s.link.beginShutdown (.call n)).1 s.isReading
      (fun a => s.Shuts a ∨ a = .call n) s.wants (s.Stands torn) := by
    refine Outlet.Laid.link h rfl id (s.link.writing_beginShutdown (.call n)) h.readers
      fun a ha => ?_
    exact (s.link.shutdown_beginShutdown (.call n) ha).imp_left (h.shutting a)
  have hshuts : (s.setPhase n (.shutting (s.now + windDownMs))).Shuts (.call n) := by
    simp only [Shuts, phase?_setPhase_self ho]
  refine laid_setPhase hlaid ho hnone nofun fun a ha => ?_
  by_cases hn : a = .call n
  · exact hn ▸ hshuts
  · rcases s.link.shutdown_beginShutdown (.call n) ha with hold | hn'
    · exact shuts_setPhase_ne s n _ hn (h.shutting a hold)
    · exact absurd hn' hn

/-- A call claims the next reply and gets in line to write its frame. -/
theorem Laid.claim (h : s.Laid torn) {n : ℕ} {o : CallPhase} {command payload : String}
    (ho : s.phase? n = some o) (hnone : s.wants (.call n) = none)
    (hno : ¬s.Shuts (.call n)) (hframe : s.frame? n = some (commandFrame command payload)) :
    (s.claim n command payload).Laid torn := by
  unfold Session.claim
  split
  · rename_i m _
    exact Laid.finish (s := ({ s with rendezvous := m } : Session (StreamLink Pipe))) h ho hnone
      (fun ha => hno (h.shutting _ ha)) _
  · rename_i m t _
    have hwants : (s.setPhase n (.sending t)).wants (.call n)
        = some (.frame (commandFrame command payload)) := by
      rw [wants_setPhase_self ho, hframe]
      rfl
    refine (Outlet.Laid.enter h hnone hwants fun b hb =>
      wants_setPhase_ne s n (.sending t) hb).agrees (fun _ => rfl) (fun a ha => ?_)
        (stands_of_asks (asks_setPhase s n (.sending t)))
    have hn : a ≠ .call n := by
      rintro rfl
      exact hno ha
    exact shuts_setPhase_ne s n _ hn ha

/-- What a move of the write of a call leaves. -/
theorem Laid.afterSend (h : s.Laid torn) {n t : ℕ} (ho : s.phase? n = some (.sending t))
    (hr : s.outlet.ready s.link (.call n) = true) :
    (s.afterSend n t (s.outlet.move s.link (.call n))).Laid torn := by
  have hno : ¬s.Shuts (.call n) := by simp only [Shuts, ho, not_false_eq_true]
  have hspeaks := Outlet.Laid.move h (s.spoken torn) hr nofun hno
  generalize s.outlet.move s.link (.call n) = q at hspeaks
  cases hspeaks with
  | on laid => exact laid
  | @ends w l p laid _ =>
    have hwritten : ∀ φ : CallPhase, (∀ t, φ ≠ .sending t) →
        (({ s with outlet := w, link := l } : Session (StreamLink Pipe)).setPhase n φ).Laid torn :=
      fun φ => laid_written laid ho hno
    cases p with
    | ok written => exact hwritten _ nofun
    | error e =>
      exact Laid.closeIfForgotten (s := ({ s with
        outlet := w
        link := l
        rendezvous := (s.rendezvous.withdraw t).abandon t
        commandLine := s.commandLine.erase n } : Session (StreamLink Pipe)).setPhase n
          (.ended (.error (if e.isClosed then .closed else .link e)))) (hwritten _ nofun)

/-- The wait of a call for its reply ends. -/
theorem Laid.collect (h : s.Laid torn) {n t d : ℕ} (ho : s.phase? n = some (.awaiting t d))
    (ask : Ask) : (s.collect n t ask).Laid torn := by
  have hnone : s.wants (.call n) = none := by simp only [wants, ho]
  have hno : ¬s.Shuts (.call n) := by simp only [Shuts, ho, not_false_eq_true]
  have hends : ∀ (m : Rendezvous) (c : Counters) (result : Except SessionError Answer),
      (({ s with rendezvous := m, counters := c } : Session (StreamLink Pipe)).finish n
        result).Laid torn := fun m c result =>
    Laid.finish (s := ({ s with rendezvous := m, counters := c } : Session (StreamLink Pipe)))
      h ho hnone (fun ha => hno (h.shutting _ ha)) result
  unfold Session.collect
  split
  · exact hends _ _ _
  · exact hends _ _ _
  · exact hends _ _ _

/-- A call that waits for the link to be shut down is through, or has waited long enough. -/
theorem Laid.moveShutdown (h : s.Laid torn) {n d : ℕ} (ho : s.phase? n = some (.shutting d)) :
    (s.moveShutdown n).Laid torn := by
  have hnone : s.wants (.call n) = none := by simp only [wants, ho]
  have hjoins : ∀ l : StreamLink Pipe, Port.taken l.port = Port.taken s.link.port →
      l.port.gone = s.link.port.gone → l.readers = s.link.readers →
      l.writers = (s.link.leave (.call n)).writers →
      (({ s with link := l } : Session (StreamLink Pipe)).join n).Laid torn := by
    intro l htaken hgone hreaders hwriters
    obtain ⟨hlaid, hleft⟩ := h.drop hnone htaken hgone hreaders hwriters
    exact Laid.join (s := ({ s with link := l } : Session (StreamLink Pipe))) hlaid ho hnone
      fun ha => hleft _ ha rfl
  unfold Session.moveShutdown
  split
  · obtain ⟨p, half, hlink, htaken, hgone⟩ := s.link.resumeShutdown_writes_nothing (.call n)
    simp only [Link.resumeShutdown, hlink]
    exact hjoins _ htaken hgone rfl rfl
  · obtain ⟨isClosed, half, hclose⟩ := (s.link.cancel (.call n)).close_writes_nothing
    have hclosed : Link.close (Link.cancel s.link (.call n))
        = { s.link.cancel (.call n) with isClosed, half } := hclose
    rw [hclosed]
    refine hjoins _ rfl rfl ?_ rfl
    exact h.readers_erase n

/-- **A move of a call** leaves nothing torn. -/
theorem Laid.moveCall (h : s.Laid torn) {n : ℕ} (hr : s.callReady n = true) :
    (s.moveCall n).Laid torn := by
  unfold callReady at hr
  cases hc : s.calls[n]? with
  | none => simp only [hc, Bool.false_eq_true] at hr
  | some c =>
    have hp : s.phase? n = some c.phase := phase?_of_call hc
    obtain ⟨ask, phase⟩ := c
    simp only [hc] at hr
    simp only [Session.moveCall, hc]
    cases phase with
    | issued =>
      have hnone : s.wants (.call n) = none := by simp only [wants, hp]
      have hno : ¬s.Shuts (.call n) := by simp only [Shuts, hp, not_false_eq_true]
      cases hb : ask.body? with
      | none => exact h.windDown hp hnone
      | some body =>
        exact Laid.setPhase (s := ({ s with
          commandLine := s.commandLine ++ [n] } : Session (StreamLink Pipe))) h hp hnone
          (by rintro _ ⟨⟩) fun ha => hno (h.shutting _ ha)
    | queued =>
      have hnone : s.wants (.call n) = none := by simp only [wants, hp]
      have hno : ¬s.Shuts (.call n) := by simp only [Shuts, hp, not_false_eq_true]
      cases hb : ask.body? with
      | none => exact h
      | some body =>
        obtain ⟨command, payload⟩ := body
        have hframe : s.frame? n = some (commandFrame command payload) := by
          simp only [frame?, hc, hb, Option.bind_some, Option.map_some]
        exact h.claim hp hnone hno hframe
    | sending t => exact h.afterSend hp hr
    | awaiting t d => exact h.collect hp ask
    | shutting d => exact h.moveShutdown hp
    | joining d =>
      have hno : ¬s.Shuts (.call n) := by simp only [Shuts, hp, not_false_eq_true]
      exact h.finish hp (by simp only [wants, hp]) (fun ha => hno (h.shutting _ ha)) _
    | ended r => exact h
    | aborted => exact h

/-! ### What happens from outside -/

/-- What can happen on either side of a pipe. -/
inductive Doing where
  | own (e : Event)
  | far (d : Pipe.Doing)
  deriving DecidableEq

/-- One thing happens. -/
def does (s : Session (StreamLink Pipe)) : Doing → Session (StreamLink Pipe)
  | .own e => s.act e
  | .far d => { s with link := { s.link with port := s.link.port.does d } }

/-- The part of a call's frame that stays in the pipe when the call is given up while that
part, and not all, of it is there. -/
def tears (s : Session (StreamLink Pipe)) : Doing → List Bytes
  | .own (.abort n) => (s.outlet.torn s.link (.call n)).toList
  | _ => []

/-- A beginning of the frame of a call, neither nothing nor all of it. -/
def Part (s : Session (StreamLink Pipe)) (p : Bytes) : Prop :=
  ∃ n frame, s.frame? n = some frame ∧ p <+: frame ∧ p ≠ [] ∧ p ≠ frame

theorem Laid.tears_part (h : s.Laid torn) {d : Doing} {p : Bytes} (hp : p ∈ s.tears d) :
    s.Part p := by
  unfold tears at hp
  split at hp
  · rename_i n
    obtain ⟨e, he, hagent, hpart⟩ := Outlet.torn_part (Option.mem_toList.mp hp)
    have hwants := ((Outlet.Laid.serves h).wants (.call n) e.outgoing).mpr ⟨e, he, hagent, rfl⟩
    obtain ⟨bytes, ho, hbytes⟩ := wants_call hwants
    have hsame : s.outlet.bytes e = bytes := by rw [Outlet.bytes, ho]
    exact ⟨n, _, hsame ▸ hbytes, hpart⟩
  · cases hp

/-- More may be torn. -/
theorem Laid.mono (h : s.Laid torn) {torn' : List Bytes} (hsub : ∀ p ∈ torn, p ∈ torn') :
    s.Laid torn' :=
  Outlet.Laid.agrees h (fun _ => rfl) (fun _ => id) fun p => Or.imp_right (hsub p)

/-- **A call is given up.** It can leave its frame torn. -/
theorem Laid.abort (h : s.Laid torn) (n : ℕ) :
    (s.abort n).Laid (torn ++ s.tears (.own (.abort n))) := by
  have hmore : s.Laid (torn ++ s.tears (.own (.abort n))) :=
    h.mono fun p => List.mem_append_left _
  unfold Session.abort
  cases hc : s.calls[n]? with
  | none => exact hmore
  | some c =>
    have hp : s.phase? n = some c.phase := phase?_of_call hc
    simp only
    split
    · refine Laid.closeIfForgotten ?_
      obtain ⟨ask, phase⟩ := c
      have hquiet : s.wants (.call n) = none → ¬s.Shuts (.call n) →
          (s.setPhase n .aborted).Laid (torn ++ s.tears (.own (.abort n))) := fun hnone hno =>
        hmore.setPhase hp hnone nofun fun ha => hno (h.shutting _ ha)
      cases phase with
      | sending t =>
        have hno : ¬s.Shuts (.call n) := by simp only [Shuts, hp, not_false_eq_true]
        refine laid_written (o := .sending t) (fun wants' hnone hother => ?_) hp hno nofun
        exact Outlet.Laid.leave h (s.spoken torn) nofun hnone hother
          (fun p => Or.imp_right (List.mem_append_left _))
          fun p htorn => .inr (List.mem_append_right _ (Option.mem_toList.mpr htorn))
      | shutting d =>
        have hnone : s.wants (.call n) = none := by simp only [wants, hp]
        obtain ⟨hlaid, hleft⟩ := hmore.drop hnone (l := s.link.cancel (.call n)) rfl rfl
          (h.readers_erase n) rfl
        refine laid_setPhase hlaid hp hnone nofun fun a ha => ?_
        exact shuts_setPhase_ne s n _ (hleft a ha) (hlaid.shutting a ha)
      | issued | queued | awaiting | joining =>
        exact hquiet (by simp only [wants, hp]) (by simp only [Shuts, hp, not_false_eq_true])
      | ended | aborted => contradiction
    · exact hmore

/-- The far end, which writes nothing here. -/
theorem Laid.port (h : s.Laid torn) {p : Pipe} (htaken : Port.taken p = Port.taken s.link.port)
    (hgone : s.link.port.gone = true → p.gone = true) :
    ({ s with link := { s.link with port := p } } : Session (StreamLink Pipe)).Laid torn :=
  Outlet.Laid.link h htaken hgone rfl h.readers h.shutting

/-- A call that is issued does not write yet. -/
theorem Laid.issue (h : s.Laid torn) (ask : Ask) : (s.issue ask).Laid torn := by
  have hsaid : ∀ p, s.Utters p → (s.issue ask).Utters p := by
    rintro p (hack | ⟨n, hn⟩)
    · exact .inl hack
    · refine .inr ⟨n, (s.frame?_issue_ne ask ?_).trans hn⟩
      rintro rfl
      rw [frame?, List.getElem?_eq_none le_rfl] at hn
      cases hn
  refine Outlet.Laid.agrees h (congrFun (s.wants_issue ask)) (fun a ha => ?_) fun p =>
    Or.imp_left (hsaid p)
  cases a with
  | call n =>
    simp only [Shuts] at ha ⊢
    cases ho : s.phase? n with
    | none =>
      rw [ho] at ha
      exact ha.elim
    | some o => rwa [Turns.phase?_issue_old ho, ← ho]
  | reader | release | porter | chance | farWriter | farReader => exact ha

/-- **Whatever happens on this side** leaves torn only what is given up in the middle. -/
theorem Laid.act (h : s.Laid torn) (e : Event) :
    (s.act e).Laid (torn ++ s.tears (.own e)) := by
  have hnothing : ∀ {s' : Session (StreamLink Pipe)}, s'.Laid torn → s'.Laid (torn ++ []) := by
    intro s' hs
    rwa [List.append_nil]
  cases e with
  | move a =>
    refine hnothing ?_
    simp only [Session.act]
    split
    · rename_i hr
      cases a with
      | reader => exact h.moveReader hr
      | call n => exact h.moveCall hr
      | release | chance => exact Outlet.Laid.link h rfl id rfl h.readers h.shutting
      | porter | farWriter | farReader =>
        obtain ⟨htaken, hgone⟩ := s.link.port.taken_helperMove _
        exact h.port htaken hgone.trans
    · exact h
  | issue ask => exact hnothing (h.issue ask)
  | abort n => exact h.abort n
  | letGo => exact hnothing (Laid.closeIfForgotten (s := { s with held := false }) h)
  | advance ms | takeQueue | queue q => exact hnothing h

/-- **Whatever happens on either side** leaves torn only what is given up in the middle. -/
theorem Laid.does (h : s.Laid torn) (d : Doing) : (s.does d).Laid (torn ++ s.tears d) := by
  cases d with
  | own e => exact h.act e
  | far d =>
    obtain ⟨htaken, hgone⟩ := s.link.port.taken_does d
    have hnow := h.port htaken hgone
    rwa [← List.append_nil torn] at hnow

/-! ### All that happens -/

/-- One thing happens after the other. -/
def throughout (s : Session (StreamLink Pipe)) (ds : List Doing) : Session (StreamLink Pipe) :=
  ds.foldl does s

/-- All parts of frames that stay in the pipe because their calls are given up. -/
def tornBy (s : Session (StreamLink Pipe)) : List Doing → List Bytes
  | [] => []
  | d :: ds => s.tears d ++ (s.does d).tornBy ds

/-- A new session on a new pipe. -/
def onPipe (capacity : ℕ) (settings : SessionSettings) : Session (StreamLink Pipe) :=
  start { port := { capacity } } settings

/-- The frame of a call stays what it is. -/
theorem frame?_does (s : Session (StreamLink Pipe)) (d : Doing) {n : ℕ} {bytes : Bytes}
    (h : s.frame? n = some bytes) : (s.does d).frame? n = some bytes := by
  cases d with
  | far d => exact h
  | own e =>
    obtain ⟨c, hc, hbytes⟩ := Option.bind_eq_some_iff.mp h
    have hask : s.ask? n = some c.ask := ask?_of_call hc
    obtain ⟨c', hc', hsame⟩ := Option.map_eq_some_iff.mp (ask?_act e hask)
    rw [does, frame?, hc', Option.bind_some, hsame]
    exact hbytes

theorem Part.throughout {p : Bytes} (h : s.Part p) (ds : List Doing) :
    (s.throughout ds).Part p := by
  induction ds generalizing s with
  | nil => exact h
  | cons d ds ih =>
    obtain ⟨n, frame, hframe, hpart⟩ := h
    exact ih ⟨n, frame, s.frame?_does d hframe, hpart⟩

theorem laid_onPipe (capacity : ℕ) (settings : SessionSettings) :
    (onPipe capacity settings).Laid [] where
  serves := ⟨List.nodup_nil, fun a o => iff_of_false (by cases a <;> nofun) nofun⟩
  last _ := nofun
  places := by
    refine ⟨[], [], ?_, nofun, [ackByte], .inl (.inl rfl), List.nil_prefix⟩
    exact ⟨rfl, nofun, rfl, nofun, fun _ => ⟨rfl, .inr rfl⟩, nofun⟩

/-- **All that happens** leaves torn only what is given up in the middle. -/
theorem Laid.throughout (h : s.Laid torn) (ds : List Doing) :
    (s.throughout ds).Laid (torn ++ s.tornBy ds) := by
  induction ds generalizing s torn with
  | nil =>
    rw [tornBy, List.append_nil]
    exact h
  | cons d ds ih =>
    have hrest := ih (h.does d)
    rw [List.append_assoc] at hrest
    exact hrest

/-- Every torn part is the beginning of a frame. -/
theorem Laid.tornBy_part (h : s.Laid torn) (ds : List Doing) {p : Bytes} (hp : p ∈ s.tornBy ds) :
    (s.throughout ds).Part p := by
  induction ds generalizing s torn with
  | nil => cases hp
  | cons d ds ih =>
    rcases List.mem_append.mp hp with hp | hp
    · obtain ⟨n, frame, hframe, hpart⟩ := h.tears_part hp
      have hnow : (s.does d).Part p := ⟨n, frame, s.frame?_does d hframe, hpart⟩
      exact hnow.throughout ds
    · exact ih (h.does d) hp

/-- **What the target has got** of a session on a pipe of any capacity, whatever happens on
both sides, is a beginning of acknowledgements, whole frames of calls and torn parts of
frames, one after the other. A part is torn when a call is given up while that part, and not
all, of its frame is in the pipe; if that never happens, nothing starts inside a frame. -/
theorem delivered_whole (capacity : ℕ) (settings : SessionSettings) (ds : List Doing) :
    ∃ pieces : List Bytes,
      (∀ p ∈ pieces, p = [ackByte] ∨
        (∃ n, ((onPipe capacity settings).throughout ds).frame? n = some p) ∨
        p ∈ (onPipe capacity settings).tornBy ds ∧
          ((onPipe capacity settings).throughout ds).Part p) ∧
      Link.delivered ((onPipe capacity settings).throughout ds).link <+: pieces.flatten := by
  have hstart := laid_onPipe capacity settings
  have hlaid := hstart.throughout ds
  rw [List.nil_append] at hlaid
  obtain ⟨pieces, put, hplaces, hpieces, whole, hwhole, hput⟩ := Outlet.Laid.places hlaid
  refine ⟨pieces ++ [whole], fun p hp => ?_, ?_⟩
  · have hstands : ((onPipe capacity settings).throughout ds).Stands
        ((onPipe capacity settings).tornBy ds) p := by
      rcases List.mem_append.mp hp with hp | hp
      · exact hpieces p hp
      · exact List.mem_singleton.mp hp ▸ hwhole
    rcases hstands with (hack | hframe) | htorn
    · exact .inl hack
    · exact .inr (.inl hframe)
    · exact .inr (.inr ⟨htorn, hstart.tornBy_part ds htorn⟩)
  · have hread : Link.delivered ((onPipe capacity settings).throughout ds).link
        <+: Port.taken ((onPipe capacity settings).throughout ds).link.port :=
      List.prefix_append _ _
    rw [hplaces.taken] at hread
    rw [List.flatten_append, List.flatten_singleton]
    exact hread.trans ((List.prefix_append_right_inj _).mpr hput)

/-! ### A call given up in the middle of its frame -/

/-- A frame of five bytes is written to a pipe that holds four, the call is given up, and a
reply comes that is acknowledged as soon as the target has read what is in the pipe. -/
def givenUp : Session (StreamLink Pipe) :=
  (onPipe 4 {}).throughout (.own (.issue (.packet "a" "")) ::
    List.replicate 5 (.own (.move (.call 0))) ++ [.own (.abort 0),
      .far (.offer (Packet.sealed .reply []).encode), .own (.move .farWriter)]
    ++ List.replicate 10 (.own (.move .reader)) ++ .far (.read 4) ::
    List.replicate 2 (.own (.move .reader)) ++ [.far (.read 1)])

/-- The acknowledgement starts inside the unfinished frame, so what the target has got is no
beginning of whole frames and acknowledgements. -/
theorem ack_inside_frame :
    Link.delivered givenUp.link = (commandFrame "a" "").take 4 ++ [ackByte] ∧
      ¬∃ pieces : List Bytes,
        (∀ p ∈ pieces, p = [ackByte] ∨ ∃ n, givenUp.frame? n = some p) ∧
          Link.delivered givenUp.link <+: pieces.flatten := by
  have hgot : Link.delivered givenUp.link = (commandFrame "a" "").take 4 ++ [ackByte] := by rfl
  refine ⟨hgot, ?_⟩
  rintro ⟨pieces, hpieces, hpart⟩
  have hframe : ∀ n p, givenUp.frame? n = some p → p = commandFrame "a" "" := by
    intro n p hp
    cases n with
    | zero => exact (Option.some.inj hp).symm
    | succ n => cases hp
  have hbytes : commandFrame "a" "" = [0x24, 0x61, 0x23, 0x36, 0x31] := by rfl
  rw [hgot, hbytes] at hpart
  cases pieces with
  | nil => exact absurd hpart (by decide)
  | cons p ps =>
    rw [List.flatten_cons] at hpart
    -- neither an acknowledgement nor the frame begins like that
    rcases hpieces p List.mem_cons_self with rfl | ⟨n, hn⟩
    · simp [ackByte, List.cons_prefix_cons] at hpart
    · rw [hframe n p hn, hbytes] at hpart
      simp [ackByte, List.cons_prefix_cons] at hpart

end Session

end ProbeLink
