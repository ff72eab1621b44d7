/-
# Out-of-band traffic changes nothing between commands and replies

Two streams go through the reading agent. The second is the first with acknowledgements and
notifications put in wherever the framer is outside a frame (`Interspersed`). Of what the framer
says about them all but the notifications is the same (`Interspersed.heard_feed`), and so is all
that is told from it: what is written, who gets which reply and which replies nobody takes, how
the loop ends, and every counter but that of notifications. Whether anybody still takes the
notifications makes no difference either.

What is handed over is told move by move (`Session.Hands`); that it is what the framer's verdicts
say follows from what is left to be handed over getting less by just that much.

Key definitions: `Interspersed`, `heard`, `Session.delivers`, `Session.Hands`, `Rendezvous.offered`.
Key theorems: `Interspersed.heard_feed`, `Session.Hands.log_eq`, `Session.asides_pass`.
-/
import ProbeLink.Proofs.Keeping

namespace ProbeLink

/-! ### Asides -/

/-- The segment is an acknowledgement or a notification. -/
def Segment.IsAside : Segment → Prop
  | .ack => True
  | .frame p => p.kind = .notification
  | _ => False

/-- The second stream is the first with asides put in where the framer is outside a frame. -/
inductive Interspersed : Framer → Bytes → Bytes → Prop where
  | nil (f : Framer) : Interspersed f [] []
  | byte {f : Framer} {s s' : Bytes} (b : UInt8) :
      Interspersed (f.push b).1 s s' → Interspersed f (b :: s) (b :: s')
  | aside {f : Framer} {s s' : Bytes} {g : Segment} : f.isIdle = true → g.IsAside → g.Fits f.max →
      Interspersed f s s' → Interspersed f s (g.bytes ++ s')

/-- What is said but for the notifications. -/
def heard (out : List Frame) : List Frame := out.filter fun o => o.notification?.isNone

theorem heard_append (out out' : List Frame) : heard (out ++ out') = heard out ++ heard out' :=
  List.filter_append ..

/-- An aside says nothing that is heard. -/
theorem Segment.IsAside.heard_output {g : Segment} (hg : g.IsAside) (m : ℕ) :
    heard (g.output m).toList = [] := by
  cases g with
  | ack => rfl
  | frame p =>
    have hkind : p.kind = .notification := hg
    simp [heard, output, hkind]
  | nak | stray b | tooLong kind body => exact hg.elim

/-- **Asides are not heard.** -/
theorem Interspersed.heard_feed {f : Framer} {s s' : Bytes} (h : Interspersed f s s') :
    heard (f.feed s') = heard (f.feed s) := by
  induction h with
  | nil f => rfl
  | @byte f s s' b _ ih =>
    have hcons : ∀ r, heard (f.feed (b :: r)) =
        heard (f.feed [b]) ++ heard ((f.push b).1.feed r) := by
      intro r
      rw [← heard_append, ← List.singleton_append, Framer.feed_append]
      rfl
    rw [hcons s', hcons s, ih]
  | @aside f s s' g hidle hg hfits _ ih =>
    obtain ⟨m, rfl⟩ : ∃ m, f = Framer.fresh m := ⟨_, Framer.eq_fresh hidle⟩
    rw [Framer.feed_segment_append (m := m) hfits, heard_append, hg.heard_output, List.nil_append, ih]

/-! ### What is told from what is heard -/

section Heard

variable (out : List Frame)

theorem replies_heard : (heard out).filterMap Frame.reply? = out.filterMap Frame.reply? := by
  rw [heard, List.filterMap_filter]
  congr 1
  funext o
  cases o with
  | packet p =>
    obtain ⟨kind, payload, first, second⟩ := p
    cases kind <;> rfl
  | nak | error e => rfl

theorem naks_heard : (heard out).countP Frame.isNak = out.countP Frame.isNak := by
  rw [heard, List.countP_filter]
  congr 1
  funext o
  cases o <;> simp

theorem errors_heard : (heard out).countP Frame.isError = out.countP Frame.isError := by
  rw [heard, List.countP_filter]
  congr 1
  funext o
  cases o <;> simp

/-- A notification makes the reading agent write nothing. -/
theorem responses_heard (last : Option Bytes) :
    (heard out).flatMap (fun o => response last (some o)) =
      out.flatMap fun o => response last (some o) := by
  induction out with
  | nil => rfl
  | cons o out ih =>
    by_cases ho : o.notification?.isNone = true
    · have hkept : heard (o :: out) = o :: heard out := List.filter_cons_of_pos ho
      rw [hkept, List.flatMap_cons, List.flatMap_cons, ih]
    · have hquiet : response last (some o) = [] := by
        cases o with
        | packet p =>
          obtain ⟨kind, payload, first, second⟩ := p
          cases kind with
          | reply => exact absurd rfl ho
          | notification => rfl
        | nak | error e => exact absurd rfl ho
      have hgone : heard (o :: out) = heard out := List.filter_cons_of_neg ho
      rw [hgone, List.flatMap_cons, hquiet, List.nil_append, ih]

/-- Two streams of which the same is heard say the same but for notifications. -/
theorem told_of_heard {out out' : List Frame} (h : heard out' = heard out) (last : Option Bytes) :
    out'.filterMap Frame.reply? = out.filterMap Frame.reply? ∧
      out'.countP Frame.isNak = out.countP Frame.isNak ∧
      out'.countP Frame.isError = out.countP Frame.isError ∧
      (out'.flatMap fun o => response last (some o)) =
        out.flatMap fun o => response last (some o) := by
  refine ⟨?_, ?_, ?_, ?_⟩
  · rw [← replies_heard, h, replies_heard]
  · rw [← naks_heard, h, naks_heard]
  · rw [← errors_heard, h, errors_heard]
  · rw [← responses_heard, h, responses_heard]

end Heard

/-- What was written, in the order in which it was. -/
def ScriptLink.writes (l : ScriptLink) : List Bytes :=
  l.history.filterMap fun
    | .wrote bytes => some bytes
    | _ => none

/-- The writes that bytes bring about are told from what they complete. -/
theorem writes_readTrace (last : Option Bytes) (f : Framer) (input : Bytes) :
    (readTrace last (input.zip (f.verdicts input))).filterMap (fun
      | .wrote bytes => some bytes
      | _ => none) = (f.feed input).flatMap fun o => response last (some o) := by
  induction input generalizing f with
  | nil => rfl
  | cons b r ih =>
    have hhead : ∀ ws : List Bytes, (ws.map ScriptLink.Event.wrote).filterMap (fun
        | .wrote bytes => some bytes
        | _ => none) = ws := by
      intro ws
      rw [List.filterMap_map]
      exact List.filterMap_some
    rw [Framer.verdicts, List.zip_cons_cons, readTrace, List.flatMap_cons, List.cons_append,
      List.filterMap_cons_none rfl, List.filterMap_append, hhead]
    rw [← readTrace, ih, Framer.feed]
    cases (f.push b).2 with
    | none => rfl
    | some out => rw [List.flatMap_cons]

/-! ### What is handed over -/

/-- Packets that are handed over one after the other, each with whether somebody took it. -/
def Rendezvous.offered (m : Rendezvous) : List Packet → List (Packet × Bool)
  | [] => []
  | p :: ps => (p, (m.offer p).2) :: (m.offer p).1.offered ps

theorem Rendezvous.offered_append (m : Rendezvous) (ps qs : List Packet) :
    m.offered (ps ++ qs) = m.offered ps ++ (m.offerAll ps).1.offered qs := by
  induction ps generalizing m with
  | nil => rfl
  | cons p ps ih => simp only [List.cons_append, offered, offerAll, ih]

theorem ReaderRun.eq_of_one {L : Type} [Link L] {s t : Session L} (h : ReaderRun 1 s t) :
    t = s.moveReader := by
  cases h with
  | move _ hrest => cases hrest; rfl

namespace Session

section Handing

variable {L : Type} [Link L]

/-- What is handed over when a read comes to something. -/
def deliversOn (s : Session L) : Progress UInt8 → List (Packet × Bool)
  | some (.ok b) => s.rendezvous.offered ((s.framer.push b).2.toList.filterMap Frame.reply?)
  | _ => []

/-- What a move hands over, each reply with whether somebody took it. -/
def delivers (s : Session L) : Agent → List (Packet × Bool)
  | .reader =>
    match s.reader with
    | .idle => s.deliversOn (Link.beginRead s.link .reader).2
    | .reading => s.deliversOn (Link.resumeRead s.link .reader).2
    | _ => []
  | _ => []

/-- Moves that lead from one session to another, with all that they hand over. -/
inductive Hands (s : Session L) : List (Packet × Bool) → Session L → Prop where
  | refl : Hands s [] s
  | tail {log : List (Packet × Bool)} {w : Session L} (a : Agent) :
      Hands s log w → Interplay.ready w a = true →
      Hands s (log ++ w.delivers a) (Interplay.move w a)

/-- Every run hands something over, if only nothing. -/
theorem hands_of_moves {s w : Session L} (h : Interplay.Moves s w) : ∃ log, Hands s log w := by
  induction h with
  | refl => exact ⟨[], .refl⟩
  | tail a _ hr ih =>
    obtain ⟨log, hlog⟩ := ih
    exact ⟨_, hlog.tail a hr⟩

theorem Hands.moves {s w : Session L} {log : List (Packet × Bool)} (h : Hands s log w) :
    Interplay.Moves s w := by
  induction h with
  | refl => exact .refl s
  | tail a _ hr ih => exact .tail a ih hr

end Handing

/-! ### What is left to be handed over -/

/-- Nobody disturbs the reading agent, and the bytes of `rest` are still to come. -/
structure Undisturbed (s : Session ScriptLink) (rest : Bytes) (e : LinkError) : Prop where
  calls : s.calls = []
  link : s.link.Sound
  inbox : s.link.inbox = rest.map .byte ++ [.fault e]
  stage : ∃ w : Outlet, w.line = [] ∧
    (s.reader = .idle ∧ s.outlet = w ∨ s.reader = .acking ∧ s.outlet = w.enter .reader .ack ∨
      s.reader = .resending ∧ s.outlet = w.enter .reader .again)

/-- What the bytes of `rest` will hand over. -/
def left (s : Session ScriptLink) (rest : Bytes) : List (Packet × Bool) :=
  s.rendezvous.offered ((s.framer.feed rest).filterMap Frame.reply?)

namespace Undisturbed

variable {s : Session ScriptLink} {rest : Bytes} {e : LinkError}

/-- What a move does to an agent that is not disturbed: what it hands over is no longer left. -/
theorem move (h : s.Undisturbed rest e) :
    s.readerReady = true ∧
      ((∃ rest', s.moveReader.Undisturbed rest' e ∧
          s.left rest = s.delivers .reader ++ s.moveReader.left rest') ∨
        (s.moveReader.readerReady = false ∧ s.moveReader.calls = [] ∧
          s.left rest = s.delivers .reader)) := by
  obtain ⟨hcalls, hlink, hinbox, w, hw, ⟨hidle, rfl⟩ | ⟨hacking, ho⟩ | ⟨hagain, ho⟩⟩ := h
  · have hheard : s.Hearing rest e := ⟨hidle, hw, hlink.isOpen, hinbox⟩
    refine ⟨hheard.ready, ?_⟩
    cases rest with
    | nil =>
      right
      have hend : s.moveReader = s.hungUp e := hheard.run_end.eq_of_one.symm
      have hnone : s.delivers .reader = [] := by
        simp only [delivers, hidle, ScriptLink.beginRead_fault hlink.isOpen .reader hinbox,
          deliversOn]
      rw [hend, hnone]
      exact ⟨rfl, hcalls, rfl⟩
    | cons b r =>
      left
      have hmove := hheard.move_byte
      obtain ⟨hframer, -, htook, -, hrendezvous, -⟩ :=
        takeByte_facts ({ s with link := s.link.took b }) b
      refine ⟨r, ⟨(calls_moveReader s).trans hcalls, ?_, ?_, s.outlet, hw, ?_⟩, ?_⟩
      · rw [hmove, htook]
        exact ⟨hlink.isOpen, hlink.noFault⟩
      · rw [hmove, htook]
        simp [ScriptLink.took, hinbox]
      · rw [hmove]
        rcases takeByte_writes ({ s with link := s.link.took b } : Session ScriptLink) b with
          ⟨hline, hnext⟩ | ⟨o, hline, ⟨rfl, hnext⟩ | ⟨rfl, hnext⟩⟩
        · exact .inl ⟨hnext, hline⟩
        · exact .inr (.inl ⟨hnext, hline⟩)
        · exact .inr (.inr ⟨hnext, hline⟩)
      · have hread : s.delivers .reader =
            s.rendezvous.offered ((s.framer.push b).2.toList.filterMap Frame.reply?) := by
          simp only [delivers, hidle, ScriptLink.beginRead_byte hlink.isOpen .reader hinbox,
            deliversOn]
        have hfeed : s.framer.feed (b :: r) = (s.framer.push b).2.toList ++
            (s.framer.push b).1.feed r := by
          rw [Framer.feed]
          cases (s.framer.push b).2 <;> rfl
        rw [hread, left, left, hmove, hframer, hrendezvous, hfeed, List.filterMap_append,
          Rendezvous.offered_append]
  · obtain ⟨hready, hmove⟩ := moveReader_acking hacking hw ho ⟨hlink.isOpen, by rw [hlink.noFault]⟩
    refine ⟨hready, .inl ⟨rest, ?_, ?_⟩⟩
    · rw [hmove]
      exact ⟨hcalls, ⟨hlink.isOpen, hlink.noFault⟩, hinbox, w, hw, .inl ⟨rfl, rfl⟩⟩
    · simp only [delivers, hacking, hmove, left, count, List.nil_append]
  · obtain ⟨hready, hmove⟩ :=
      moveReader_resending hagain hw ho fun _ => ⟨hlink.isOpen, by rw [hlink.noFault]⟩
    refine ⟨hready, .inl ⟨rest, ?_, ?_⟩⟩
    · rw [hmove]
      cases w.last with
      | none => exact ⟨hcalls, hlink, hinbox, w, hw, .inl ⟨rfl, rfl⟩⟩
      | some bytes =>
        exact ⟨hcalls, ⟨hlink.isOpen, hlink.noFault⟩, hinbox, w, hw, .inl ⟨rfl, rfl⟩⟩
    · have hsame : s.moveReader.left rest = s.left rest := by
        rw [hmove]
        cases w.last <;> rfl
      simp only [delivers, hagain, hsame, List.nil_append]

end Undisturbed

/-- **What a run hands over** is what was left at its start: when it comes to rest nothing is. -/
theorem Hands.log_eq {s w : Session ScriptLink} {rest : Bytes} {e : LinkError}
    {log : List (Packet × Bool)} (hs : s.Undisturbed rest e) (h : Hands s log w)
    (hrest : Interplay.AtRest w) : log = s.left rest := by
  have hinv : (∃ r, w.Undisturbed r e ∧ s.left rest = log ++ w.left r) ∨
      (w.readerReady = false ∧ w.calls = [] ∧ s.left rest = log) := by
    clear hrest
    induction h with
    | refl => exact .inl ⟨rest, hs, rfl⟩
    | @tail log w a _ hr ih =>
      obtain ⟨r, hw, hlog⟩ | ⟨hover, hcalls, -⟩ := ih
      · obtain rfl := eq_reader_of_ready hw.calls (fun _ => rfl) hr
        obtain ⟨r', hw', hleft⟩ | ⟨hover, hcalls, hleft⟩ := hw.move.2
        · exact .inl ⟨r', hw', by rw [hlog, hleft, List.append_assoc]; rfl⟩
        · exact .inr ⟨hover, hcalls, by rw [hlog, hleft]⟩
      · obtain rfl := eq_reader_of_ready hcalls (fun _ => rfl) hr
        exact absurd (hover.symm.trans hr) (by decide)
  obtain ⟨r, hw, -⟩ | ⟨-, -, hlog⟩ := hinv
  · exact absurd ((hrest .reader).symm.trans hw.move.1) (by decide)
  · exact hlog.symm

section Listening

variable {settings : SessionSettings} {shutdownFault : Option LinkError} {sent : Option Bytes}
  {waiting consumer : Bool} {input : Bytes} {e : LinkError}

theorem undisturbed_listening (settings : SessionSettings) (shutdownFault : Option LinkError)
    (sent : Option Bytes) (waiting consumer : Bool) (input : Bytes) (e : LinkError) :
    (listening settings shutdownFault sent waiting consumer input e).Undisturbed input e := by
  rw [listening_eq]
  exact ⟨rfl, ⟨rfl, rfl⟩, rfl, _, rfl, .inl ⟨rfl, rfl⟩⟩

/-- What has been written at the end: the frame sent first, and then what the bytes brought
about. -/
theorem writes_listening :
    (((listening settings shutdownFault sent waiting consumer input e).caughtUp
      input).hungUp e).link.writes =
      sent.toList ++ ((Framer.fresh settings.maxFrameLen).feed input).flatMap fun o =>
        response sent (some o) := by
  have hhistory := (readThrough_listening settings shutdownFault sent waiting consumer input
    e).history
  rw [ScriptLink.writes, hhistory, List.filterMap_append, List.filterMap_append,
    writes_readTrace, List.filterMap_map]
  cases sent <;> simp

end Listening

/-- **Out-of-band traffic passes by.** Two reading agents start alike, but for who takes the
notifications, and no write fails. If the second stream is the first with acknowledgements and
notifications put in between frames, both fair schedules come to rest, and in whatever two
schedules come to rest the same replies are handed over with the same outcomes, the same is
written, the loops end with the same result, whoever waited has the same, and all counters but
that of notifications are the same. -/
theorem asides_pass (settings : SessionSettings) (shutdownFault : Option LinkError)
    (sent : Option Bytes) (waiting consumer consumer' : Bool) {input input' : Bytes}
    (h : Interspersed (Framer.fresh settings.maxFrameLen) input input') (e : LinkError) :
    let s := listening settings shutdownFault sent waiting consumer input e
    let s' := listening settings shutdownFault sent waiting consumer' input' e
    Interplay.AtRest (Interplay.settle s) ∧ Interplay.AtRest (Interplay.settle s') ∧
      ∀ log log' w w', Hands s log w → Interplay.AtRest w → Hands s' log' w' →
        Interplay.AtRest w' →
        log = s.rendezvous.offered
          (((Framer.fresh settings.maxFrameLen).feed input).filterMap Frame.reply?) ∧
        log' = log ∧ w'.link.writes = w.link.writes ∧
        w.readerEnded = true ∧ w'.reader = w.reader ∧ w'.rendezvous = w.rendezvous ∧
        w'.counters = { w.counters with notifications := w'.counters.notifications } := by
  intro s s'
  have hsettled := atRest_settle_listening settings shutdownFault sent waiting consumer input e
  have hsettled' :=
    atRest_settle_listening settings shutdownFault sent waiting consumer' input' e
  refine ⟨hsettled, hsettled', fun log log' w w' hlog hrest hlog' hrest' => ?_⟩
  obtain ⟨hreplies, hnaks, herrors, hwrites⟩ := told_of_heard h.heard_feed sent
  obtain rfl := eq_of_atRest_listening hlog.moves hrest
  obtain rfl := eq_of_atRest_listening hlog'.moves hrest'
  have hfirst := hlog.log_eq (undisturbed_listening ..) hrest
  have hsecond := hlog'.log_eq (undisturbed_listening ..) hrest'
  simp only [left, listening_eq] at hfirst hsecond
  rw [hreplies, ← hfirst] at hsecond
  refine ⟨?_, hsecond, ?_, rfl, rfl, ?_, ?_⟩
  · simp only [hfirst, s, listening_eq]
  · simp only [writes_listening, hwrites]
  · simp only [hungUp, caughtUp, listening_eq, hreplies]
  · simp only [hungUp, caughtUp, listening_eq, Counters.tally, hreplies, hnaks, herrors]

/-- A reply is handed over alike with nothing and with an acknowledgement in front and a
notification behind it, the second time with nobody to take that. -/
theorem asides_pass_reply :
    let reply := (Packet.sealed .reply [0x4F, 0x4B]).encode
    let input := ackByte :: (reply ++ (⟨.notification, [0x6E], 0x30, 0x30⟩ : Packet).encode)
    Interspersed (Framer.fresh 4) reply input ∧
      (let s := listening { maxFrameLen := 4 } none none true true reply .closed
       let s' := listening { maxFrameLen := 4 } none none true false input .closed
       (Interplay.settle s').rendezvous = (Interplay.settle s).rendezvous ∧
         (Interplay.settle s').link.writes = (Interplay.settle s).link.writes ∧
         (Interplay.settle s').reader = (Interplay.settle s).reader) := by
  intro reply input
  have hnote : Interspersed (Framer.fresh 4) []
      ((Segment.frame ⟨.notification, [0x6E], 0x30, 0x30⟩).bytes ++ []) :=
    .aside rfl rfl ⟨by decide, by decide⟩ (.nil _)
  have hinput : Interspersed (Framer.fresh 4) reply input :=
    .aside (g := .ack) rfl trivial trivial
      (.byte _ (.byte _ (.byte _ (.byte _ (.byte _ (.byte _ hnote))))))
  refine ⟨hinput, ?_⟩
  intro s s'
  obtain ⟨hrest, hrest', hsame⟩ :=
    asides_pass { maxFrameLen := 4 } none none true true false hinput .closed
  obtain ⟨log, hlog⟩ := hands_of_moves (Interplay.moves_settle s)
  obtain ⟨log', hlog'⟩ := hands_of_moves (Interplay.moves_settle s')
  obtain ⟨-, -, hwrites, -, hreader, hrendezvous, -⟩ := hsame log log' _ _ hlog hrest hlog' hrest'
  exact ⟨hrendezvous, hwrites, hreader⟩

end Session

end ProbeLink
