/-
# Calls that ask for more than a packet

What a call makes of its reply has no effect on anything else: a session whose calls ask for
decoded replies or for memory goes as one whose calls ask for the packets that answer the same
commands, up to the results (`Session.move_recast`). So what is known of dialogues about packets
holds of all (`Dialogue.Inquired.recast`).

For memory: a reply with the right checksum gives the bytes that it spells if it spells any, and
no bytes otherwise (`Ask.recalls_answer`). This is so in every session in which a call is handed
the reply; in a dialogue with a target that answers each call is handed its own; and the console
shows all that a call returned (`Dialogue.memory_recalled`).

Key definitions: `Session.recast`, `Dialogue.inquire`, `Dialogue.Inquired`, `Ask.Recalls`,
`Dialogue.Recalled`.
Key theorems: `Session.move_recast`, `Dialogue.Inquired.recast`, `Ask.recalls_answer`,
`Dialogue.memory_recalled`.
-/
import Mathlib.Data.List.Induction
import ProbeLink.Proofs.Answers
import ProbeLink.Proofs.Dump
import ProbeLink.Proofs.Stopping

namespace ProbeLink

/-- What has become of a call for a packet, had it asked for something else. -/
def CallPhase.recast (verify : Bool) (ask : Ask) : CallPhase → CallPhase
  | .ended (.ok (.packet p)) => .ended (ask.answer verify p)
  | o => o

/-- Only what a call that is over has returned is another. -/
theorem CallPhase.recast_or (verify : Bool) (ask : Ask) (o : CallPhase) :
    o.recast verify ask = o ∨ ∃ r r', o = .ended r ∧ o.recast verify ask = .ended r' := by
  unfold recast
  split
  · exact .inr ⟨_, _, rfl, rfl⟩
  · exact .inl rfl

namespace Session

/-! ### The same session with other asks -/

/-- The session as it is if its calls ask for what `asks` says. -/
def recast {L : Type} (asks : ℕ → Ask) (s : Session L) : Session L :=
  { s with calls := s.calls.mapIdx fun n c =>
      ⟨asks n, c.phase.recast s.settings.verifyReplies (asks n)⟩ }

/-- The asks send what the calls send. -/
def Matches {L : Type} (s : Session L) (asks : ℕ → Ask) : Prop :=
  ∀ n ask, s.ask? n = some ask → (asks n).body? = ask.body?

section Recast

variable {L : Type} {s : Session L} {asks : ℕ → Ask} {n : ℕ}

theorem getElem?_recast (s : Session L) (asks : ℕ → Ask) (n : ℕ) :
    (s.recast asks).calls[n]? = s.calls[n]?.map fun c =>
      ⟨asks n, c.phase.recast s.settings.verifyReplies (asks n)⟩ :=
  List.getElem?_mapIdx

theorem length_recast (s : Session L) (asks : ℕ → Ask) :
    (s.recast asks).calls.length = s.calls.length :=
  List.length_mapIdx

theorem phase?_recast (s : Session L) (asks : ℕ → Ask) (n : ℕ) : (s.recast asks).phase? n =
    (s.phase? n).map (CallPhase.recast s.settings.verifyReplies (asks n)) := by
  rw [phase?, getElem?_recast, phase?, Option.map_map, Option.map_map]
  rfl

theorem frame?_recast (h : s.Matches asks) (n : ℕ) : (s.recast asks).frame? n = s.frame? n := by
  rw [frame?, getElem?_recast, frame?]
  cases hc : s.calls[n]? with
  | none => rfl
  | some c =>
    have hbody := h n c.ask (ask?_of_call hc)
    simp only [Option.map_some, Option.bind_some, hbody]

/-- A call is put into a phase alike. -/
theorem setPhase_recast (s : Session L) (asks : ℕ → Ask) (n : ℕ) {o o' : CallPhase}
    (h : o.recast s.settings.verifyReplies (asks n) = o') :
    (s.setPhase n o).recast asks = (s.recast asks).setPhase n o' := by
  have hcalls : ((s.setPhase n o).recast asks).calls = ((s.recast asks).setPhase n o').calls := by
    refine List.ext_getElem? fun k => ?_
    rw [getElem?_recast]
    simp only [setPhase, List.getElem?_modify, getElem?_recast]
    cases s.calls[k]? with
    | none => rfl
    | some c =>
      by_cases hk : n = k
      · subst hk
        simp [h]
      · simp [hk]
  exact congrArg (fun calls => ({ s with calls } : Session L)) hcalls

variable [Link L]

/-- A call ends alike, with another result. -/
theorem finish_recast (hs : s.held = true) (asks : ℕ → Ask) (n : ℕ)
    {r r' : Except SessionError Answer}
    (h : (CallPhase.ended r).recast s.settings.verifyReplies (asks n) = .ended r') :
    (s.finish n r).recast asks = (s.recast asks).finish n r' := by
  rw [finish_of_held hs, finish_of_held (by exact hs)]
  exact setPhase_recast _ asks n h

theorem finish_recast_error (hs : s.held = true) (asks : ℕ → Ask) (n : ℕ) (e : SessionError) :
    (s.finish n (.error e)).recast asks = (s.recast asks).finish n (.error e) :=
  finish_recast hs asks n rfl

theorem claim_recast (hs : s.held = true) (asks : ℕ → Ask) (n : ℕ) (command payload : String) :
    (s.claim n command payload).recast asks = (s.recast asks).claim n command payload := by
  have hsame : (s.recast asks).rendezvous = s.rendezvous := rfl
  simp only [claim, hsame]
  split
  · exact finish_recast_error (by exact hs) asks n _
  · exact setPhase_recast _ asks n rfl

theorem afterSend_recast (hs : s.held = true) (asks : ℕ → Ask) (n t : ℕ)
    (r : Outlet × L × Progress Written) :
    (s.afterSend n t r).recast asks = (s.recast asks).afterSend n t r := by
  obtain ⟨outlet, link, _ | e | o⟩ := r
  · rfl
  · exact finish_recast_error (by exact hs) asks n _
  · exact setPhase_recast _ asks n rfl

/-- A packet that was asked for is returned as it is, and decoded if more was asked for. -/
theorem collect_recast (hs : s.held = true) (asks : ℕ → Ask) (n t : ℕ) (command payload : String) :
    (s.collect n t (.packet command payload)).recast asks =
      (s.recast asks).collect n t (asks n) := by
  have hsame : (s.recast asks).rendezvous = s.rendezvous := rfl
  simp only [collect, hsame]
  split
  · exact finish_recast (by exact hs) asks n rfl
  · exact finish_recast_error (by exact hs) asks n _
  · exact finish_recast_error (by exact hs) asks n _

theorem moveCall_recast (hs : s.held = true) (hplain : ∀ c ∈ s.calls, c.Plain) (h : s.Matches asks)
    (n : ℕ) : (s.moveCall n).recast asks = (s.recast asks).moveCall n := by
  simp only [moveCall, getElem?_recast]
  cases hc : s.calls[n]? with
  | none => rfl
  | some c =>
    obtain ⟨⟨command, payload, hask⟩, hphase⟩ := hplain c (List.mem_of_getElem? hc)
    obtain ⟨ask, phase⟩ := c
    obtain rfl : ask = .packet command payload := hask
    have hbody : (asks n).body? = some (command, payload) := h n _ (ask?_of_call hc)
    have hpacket : (Ask.packet command payload).body? = some (command, payload) := rfl
    simp only [Option.map_some]
    cases phase with
    | issued =>
      simp only [CallPhase.recast, hbody, hpacket]
      exact setPhase_recast _ asks n rfl
    | queued =>
      simp only [CallPhase.recast, hbody, hpacket]
      exact claim_recast hs asks n command payload
    | sending t => exact afterSend_recast hs asks n t _
    | awaiting t d => exact collect_recast hs asks n t command payload
    | ended r =>
      obtain hsame | ⟨-, r', -, hended⟩ :=
        CallPhase.recast_or s.settings.verifyReplies (asks n) (.ended r)
      · rw [hsame]
      · rw [hended]
    | shutting | joining | aborted => exact hphase.elim

/-- The reading agent does not look at the calls. -/
theorem moveReader_recast (s : Session L) (asks : ℕ → Ask) :
    s.moveReader.recast asks = (s.recast asks).moveReader := by
  obtain ⟨d, hm, hcalls, hline, hdropped, htimeouts, hd⟩ := s.moveReader_deed
  obtain ⟨-, -, hsettings⟩ := s.apart_moveReader
  -- the reader moves alike beside any calls: those with other asks, and those there are
  have hother := hd s.rendezvous (s.recast asks).calls s.commandLine s.counters.droppedReplies
    s.counters.timeouts
  have hsame : s.moveReader.recast asks = s.moveReader.beside (d.on s.rendezvous)
      (s.recast asks).calls s.commandLine (s.counters.droppedReplies + d.drops s.rendezvous)
      s.counters.timeouts := by
    rw [← hm, ← hline, ← hdropped, ← htimeouts]
    simp only [recast, beside, hcalls, hsettings]
  exact hsame.trans hother.symm

/-- **Everybody moves alike**, whatever the calls make of their packets. -/
theorem move_recast (hs : s.held = true) (hplain : ∀ c ∈ s.calls, c.Plain) (h : s.Matches asks)
    (a : Agent) :
    (Interplay.move s a).recast asks = Interplay.move (s.recast asks) a := by
  cases a with
  | reader => exact s.moveReader_recast asks
  | call n => exact moveCall_recast hs hplain h n
  | _ => rfl

theorem ready_recast (s : Session L) (asks : ℕ → Ask) (a : Agent) :
    Interplay.ready (s.recast asks) a = Interplay.ready s a := by
  cases a with
  | call n =>
    show (s.recast asks).callReady n = s.callReady n
    simp only [callReady, getElem?_recast]
    cases hc : s.calls[n]? with
    | none => rfl
    | some c =>
      obtain hsame | ⟨r, r', hended, hended'⟩ :=
        CallPhase.recast_or s.settings.verifyReplies (asks n) c.phase
      · simp only [Option.map_some, hsame]
        rfl
      · simp only [Option.map_some, hended']
        rw [hended]
  | _ => rfl

theorem atRest_recast (s : Session L) (asks : ℕ → Ask) :
    Interplay.AtRest (s.recast asks) ↔ Interplay.AtRest s :=
  forall_congr' fun a => by rw [ready_recast]

/-- A move issues no call. -/
theorem ask?_move (s : Session L) (a : Agent) (n : ℕ) : (Interplay.move s a).ask? n = s.ask? n := by
  cases a with
  | reader => exact ask?_of_asks (congrArg _ s.calls_moveReader) n
  | call k => exact ask?_of_asks (asks_moveCall s k) n
  | _ => rfl

omit [Link L]

/-- What is not told by results is told by all calls alike. -/
theorem map_recast {β : Type} {f : Call → β} (s : Session L) (asks : ℕ → Ask)
    (hf : ∀ n c, f ⟨asks n, c.phase.recast s.settings.verifyReplies (asks n)⟩ = f c) :
    (s.recast asks).calls.map f = s.calls.map f := by
  refine List.ext_getElem? fun n => ?_
  rw [List.getElem?_map, List.getElem?_map, getElem?_recast, Option.map_map]
  exact congrArg (fun g : Call → β => s.calls[n]?.map g) (funext (hf n))

theorem all_recast {f : Call → Bool} (s : Session L) (asks : ℕ → Ask)
    (hf : ∀ n c, f ⟨asks n, c.phase.recast s.settings.verifyReplies (asks n)⟩ = f c) :
    (s.recast asks).calls.all f = s.calls.all f := by
  have hall := congrArg (fun l : List Bool => l.all id) (map_recast s asks hf)
  rwa [List.all_map, List.all_map] at hall

theorem hasLiveCall_recast (s : Session L) (asks : ℕ → Ask) :
    (s.recast asks).hasLiveCall = s.hasLiveCall := by
  have hlive : ∀ (n : ℕ) (c : Call),
      (c.phase.recast s.settings.verifyReplies (asks n)).isLive = c.phase.isLive := by
    intro n c
    obtain hsame | ⟨r, r', hended, hended'⟩ :=
      CallPhase.recast_or s.settings.verifyReplies (asks n) c.phase
    · rw [hsame]
    · rw [hended', hended]
      rfl
  have hmap : (s.recast asks).calls.map (fun c => c.phase.isLive) =
      s.calls.map fun c => c.phase.isLive := map_recast s asks hlive
  have hany := congrArg (fun l : List Bool => l.any id) hmap
  rwa [List.any_map, List.any_map] at hany

theorem turnsToWrite_recast (s : Session L) (asks : ℕ → Ask) (n : ℕ) :
    Exchange.turnsToWrite (s.recast asks) n = Exchange.turnsToWrite s n := by
  simp only [Exchange.turnsToWrite, phase?_recast]
  cases s.phase? n with
  | none => rfl
  | some o =>
    obtain hsame | ⟨r, r', hended, hended'⟩ :=
      CallPhase.recast_or s.settings.verifyReplies (asks n) o
    · simp only [Option.map_some, hsame]
      rfl
    · simp only [Option.map_some, hended']
      rw [hended]

theorem asking_recast (h : s.Matches asks) (a : Agent) :
    (s.recast asks).asking a = s.asking a := by
  cases a with
  | call n =>
    simp only [asking, getElem?_recast]
    cases hc : s.calls[n]? with
    | none => rfl
    | some c =>
      have hbody := h n c.ask (ask?_of_call hc)
      obtain ⟨ask, phase⟩ := c
      obtain hsame | ⟨r, r', rfl, hended'⟩ :=
        CallPhase.recast_or s.settings.verifyReplies (asks n) phase
      · simp only [Option.map_some, hsame]
        cases phase with
        | issued => simp only [hbody]
        | _ => rfl
      · simp only [Option.map_some, hended']
  | _ => rfl

/-- A call with another ask that sends the same is issued alike. -/
theorem issue_recast (s : Session L) (asks : ℕ → Ask) (ask ask' : Ask) :
    (s.issue ask').recast (Function.update asks s.calls.length ask) =
      (s.recast asks).issue ask := by
  have hcalls : ((s.issue ask').recast (Function.update asks s.calls.length ask)).calls =
      ((s.recast asks).issue ask).calls := by
    refine List.ext_getElem? fun n => ?_
    rw [getElem?_recast]
    by_cases hn : n = s.calls.length
    · subst hn
      have hlast : ((s.recast asks).issue ask).calls[s.calls.length]? = some { ask } := by
        rw [← length_recast s asks]
        exact List.getElem?_concat_length
      rw [hlast, Session.issue, List.getElem?_concat_length, Function.update_self]
      rfl
    · rw [getElem?_issue_ne s ask' hn, getElem?_issue_ne _ ask (by rwa [length_recast]),
        getElem?_recast, Function.update_of_ne hn]
      rfl
  exact congrArg (fun calls => ({ s with calls } : Session L)) hcalls

theorem Matches.issue (h : s.Matches asks) {ask ask' : Ask} (hbody : ask.body? = ask'.body?) :
    (s.issue ask').Matches (Function.update asks s.calls.length ask) := by
  intro n other hother
  by_cases hn : n = s.calls.length
  · subst hn
    rw [ask?, Session.issue, List.getElem?_concat_length] at hother
    obtain rfl := Option.some.inj hother
    rw [Function.update_self]
    exact hbody
  · rw [ask?_issue_ne s ask' hn] at hother
    rw [Function.update_of_ne hn]
    exact h n other hother

end Recast

end Session

/-! ### Dialogues in which anything is asked -/

/-- What can happen if more than packets is asked for. -/
inductive Inquiry where
  /-- Anything but the end of the session is asked for, once all calls before are over. -/
  | ask (ask : Ask)
  | event (e : Dialogue.Event)

namespace Dialogue

section World

variable {L : Type} [Link L] [FarEnd L]

/-- One thing happens. What cannot happen changes nothing. -/
def inquire (x : Dialogue L) : Inquiry → Dialogue L
  | .ask ask =>
    if x.session.hasLiveCall = true ∨ ask.body? = none then x
    else { x with toTurns := x.toTurns.step (.issue ask) }
  | .event e => x.step e

end World

/-- Something that can come of a new session on a link in working order, over which nothing
was sent yet. -/
def Inquired {L : Type} [Link L] [Steady L] (x : Dialogue L) : Prop :=
  ∃ (link : L) (settings : SessionSettings) (es : List Inquiry),
    Steady.works link false none ∧ FarEnd.incoming link = [] ∧ Link.wire link = [] ∧
      0 < settings.replyTimeoutMs ∧ x = es.foldl inquire (start link settings)

/-- The dialogue as it is if its calls ask for what `asks` says. -/
def recast {L : Type} (asks : ℕ → Ask) (x : Dialogue L) : Dialogue L :=
  { x with session := x.session.recast asks }

section Recast

variable {L : Type} [Link L] {y : Dialogue L} {asks : ℕ → Ask}

/-- Time is up alike. -/
theorem inTime_recast (y : Dialogue L) (asks : ℕ → Ask) (ms : ℕ) :
    (y.recast asks).InTime ms ↔ y.InTime ms := by
  have hanswered : ∀ n, (y.recast asks).Answered n ↔ y.Answered n := fun n =>
    or_congr Iff.rfl (and_congr_right' (and_congr_right' (y.session.atRest_recast asks)))
  have hdeadline : ∀ n, ((y.recast asks).session.phase? n).bind CallPhase.deadline? =
      (y.session.phase? n).bind CallPhase.deadline? := by
    intro n
    rw [recast, Session.phase?_recast]
    cases y.session.phase? n with
    | none => rfl
    | some o =>
      obtain hsame | ⟨r, r', hended, hended'⟩ :=
        CallPhase.recast_or y.session.settings.verifyReplies (asks n) o
      · simp only [Option.map_some, hsame]
      · rw [Option.map_some, hended', hended]
        rfl
  have hlength : (y.recast asks).session.calls.length = y.session.calls.length :=
    y.session.length_recast asks
  simp only [InTime, hanswered, hdeadline, hlength]
  rfl

/-- A call is made alike. -/
theorem issue_recast (y : Dialogue L) (asks : ℕ → Ask) (ask ask' : Ask) :
    ({ y with toTurns := y.toTurns.step (.issue ask') } : Dialogue L).recast
        (Function.update asks y.session.calls.length ask) =
      { y.recast asks with toTurns := (y.recast asks).toTurns.step (.issue ask) } := by
  have hsession := y.session.issue_recast asks ask ask'
  have hprompt : ((y.recast asks).toTurns.step (.issue ask)).prompt =
      (y.toTurns.step (.issue ask')).prompt := by
    refine congrArg (y.prompt && ·) (Session.all_recast y.session asks fun n c => ?_)
    obtain hsame | ⟨r, r', hended, hended'⟩ :=
      CallPhase.recast_or y.session.settings.verifyReplies (asks n) c.phase
    · simp only [hsame]
    · simp only [hended']
      rw [hended]
  simp only [recast, Turns.step, hsession] at hprompt ⊢
  rw [hprompt]

/-- The target has got the same. -/
theorem received_recast (h : y.session.Matches asks) (n : ℕ) :
    (y.recast asks).Received n ↔ y.Received n := by
  show (∃ w ∈ y.writtenAt n, ∃ bytes ∈ (y.session.recast asks).frame? n, _) ↔ _
  rw [Session.frame?_recast h]
  rfl

variable [FarEnd L]

/-- A move is noted alike. -/
theorem move_recast (hs : y.session.held = true) (hplain : ∀ c ∈ y.session.calls, c.Plain)
    (h : y.session.Matches asks) (a : Agent) :
    (y.recast asks).step (.move a) = (y.step (.move a)).recast asks ∧
      (y.step (.move a)).session.Matches asks := by
  have hready : Interplay.ready (y.recast asks).session a = Interplay.ready y.session a :=
    y.session.ready_recast asks a
  by_cases hr : Interplay.ready y.session a = true
  · have hmove := Session.move_recast hs hplain h a
    have hasking := Session.asking_recast h a
    have hspeaking : Turns.speaking (y.session.recast asks) a = Turns.speaking y.session a := by
      simp only [Turns.speaking, Session.turnsToWrite_recast]
    have hnote : (y.recast asks).noteWrite a = y.noteWrite a := by
      funext n
      simp only [noteWrite, recast, Session.turnsToWrite_recast]
      rfl
    have htaken : (y.recast asks).taken a = y.taken a := by cases a <;> rfl
    rw [step, step, if_pos hr, if_pos (hready.trans hr), hnote, htaken]
    refine ⟨?_, fun n ask hask => h n ask ?_⟩
    · simp only [recast, Turns.step, if_pos hr, y.session.ready_recast asks a, ← hmove, hasking,
        hspeaking]
    · simp only [Turns.step, if_pos hr, Session.ask?_move] at hask
      exact hask
  · rw [step, step, if_neg hr, if_neg fun hr' => hr (hready.symm.trans hr')]
    exact ⟨rfl, h⟩

/-- **Whatever happens but a command** happens alike. -/
theorem step_recast (hs : y.session.held = true) (hplain : ∀ c ∈ y.session.calls, c.Plain)
    (h : y.session.Matches asks) {e : Event}
    (he : ∀ command payload, e ≠ .command command payload) :
    (y.recast asks).step e = (y.step e).recast asks ∧ (y.step e).session.Matches asks := by
  cases e with
  | move a => exact move_recast hs hplain h a
  | command command payload => exact absurd rfl (he command payload)
  | reply p =>
    have hreceived := received_recast h y.answers.length
    by_cases hp : p.kind = .reply ∧ (Segment.frame p).Fits y.session.settings.maxFrameLen ∧
        y.Received y.answers.length
    · rw [step, step, if_pos hp, if_pos ⟨hp.1, hp.2.1, hreceived.mpr hp.2.2⟩]
      exact ⟨rfl, h⟩
    · rw [step, step, if_neg hp, if_neg fun hp' => hp ⟨hp'.1, hp'.2.1, hreceived.mp hp'.2.2⟩]
      exact ⟨rfl, h⟩
  | chatter g =>
    by_cases hg : g.reply? = none ∧ g.Fits y.session.settings.maxFrameLen
    · rw [step, step, if_pos hg, if_pos (by exact hg)]
      exact ⟨rfl, h⟩
    · rw [step, step, if_neg hg, if_neg (by exact hg)]
      exact ⟨rfl, h⟩
  | deliver n => exact ⟨rfl, h⟩
  | advance ms =>
    have htime := inTime_recast y asks ms
    by_cases hms : y.InTime ms
    · rw [step, step, if_pos hms, if_pos (htime.mpr hms)]
      exact ⟨rfl, h⟩
    · rw [step, step, if_neg hms, if_neg (mt htime.mp hms)]
      exact ⟨rfl, h⟩
  | takeQueue => exact ⟨rfl, h⟩
  | receive =>
    have hsame : (y.recast asks).session.notifications = y.session.notifications := rfl
    rw [step, step, hsame]
    rcases y.session.notifications.receive with ⟨q, _ | p | _⟩ <;> exact ⟨rfl, h⟩

end Recast

section Sound

variable {L : Type} [Link L] [Steady L] {x y : Dialogue L} {asks : ℕ → Ask}

/-- **One thing more** happens in the dialogue about packets, too. -/
theorem Sound.inquire (hy : y.Sound) (h : y.session.Matches asks) (e : Inquiry) :
    ∃ (y' : Dialogue L) (asks' : ℕ → Ask), y'.Sound ∧ y'.session.Matches asks' ∧
      (y.recast asks).inquire e = y'.recast asks' := by
  have hask : ∀ ask, ∃ (y' : Dialogue L) (asks' : ℕ → Ask), y'.Sound ∧ y'.session.Matches asks' ∧
      (y.recast asks).inquire (.ask ask) = y'.recast asks' := by
    intro ask
    have hlive := y.session.hasLiveCall_recast asks
    simp only [Dialogue.inquire]
    split
    · exact ⟨y, asks, hy, h, rfl⟩
    · rename_i hfree
      obtain ⟨hidle, hbody⟩ := not_or.mp hfree
      obtain ⟨⟨command, payload⟩, hbody⟩ := Option.ne_none_iff_exists'.mp hbody
      have hidle' : y.session.hasLiveCall = false := hlive ▸ Bool.not_eq_true _ ▸ hidle
      exact ⟨_, _, hy.command hidle' command payload, h.issue hbody,
        (y.issue_recast asks ask _).symm⟩
  cases e with
  | ask ask => exact hask ask
  | event e =>
    obtain ⟨ws, hafloat, -⟩ := hy.traced
    -- a command is an ask for a packet; all else leaves the calls to themselves
    by_cases he : ∃ command payload, e = .command command payload
    · obtain ⟨command, payload, rfl⟩ := he
      have hsame : (y.recast asks).inquire (.event (.command command payload)) =
          (y.recast asks).inquire (.ask (.packet command payload)) := by
        simp [Dialogue.inquire, Dialogue.step, Ask.body?]
      exact hsame ▸ hask _
    · obtain ⟨hstep, hmatches⟩ := step_recast hafloat.held hafloat.plain h
        fun command payload hc => he ⟨command, payload, hc⟩
      exact ⟨_, _, hy.step e, hmatches, hstep⟩

/-- **Whatever is asked**, the dialogue goes as one about packets. -/
theorem Inquired.recast (hx : x.Inquired) : ∃ (y : Dialogue L) (asks : ℕ → Ask), y.Sound ∧
    y.session.Matches asks ∧ x = y.recast asks := by
  obtain ⟨link, settings, es, hworks, hin, hwire, hpatience, rfl⟩ := hx
  -- on what has happened: the dialogue about packets is sound and sends the same all along
  induction es using List.reverseRecOn with
  | nil =>
    exact ⟨start link settings, fun _ => .disconnect, sound_start hworks hin hwire hpatience, nofun,
      rfl⟩
  | append_singleton es e ih =>
    obtain ⟨y, asks, hy, hmatches, hrun⟩ := ih
    rw [List.foldl_append, hrun]
    exact hy.inquire hmatches e

/-- Moves that can be made if more is asked for can be made if packets are. -/
theorem Sound.canMove_recast : ∀ {as : List Agent} {y : Dialogue L}, y.Sound →
    y.session.Matches asks → Interplay.CanMove (y.session.recast asks) as →
    Interplay.CanMove y.session as
  | [], _, _, _, _ => trivial
  | a :: as, y, hy, h, hmoves => by
    obtain ⟨hr, hrest⟩ := hmoves
    obtain ⟨ws, hafloat, -⟩ := hy.traced
    rw [Session.ready_recast] at hr
    rw [← Session.move_recast hafloat.held hafloat.plain h] at hrest
    have hsession : (y.step (.move a)).session = Interplay.move y.session a := by
      simp only [Dialogue.step, Turns.step, if_pos hr]
    obtain ⟨-, hmatches⟩ := move_recast hafloat.held hafloat.plain h a
    refine ⟨hr, ?_⟩
    rw [← hsession] at hrest ⊢
    exact (hy.step (.move a)).canMove_recast hmatches hrest

end Sound

end Dialogue

/-! ### Memory -/

/-- What a call for memory returns for the payload of a reply: the bytes that it spells if it
spells any, and no bytes otherwise. -/
structure Ask.Recalls (payload : Bytes) (r : Except SessionError Answer) : Prop where
  data : ∀ d, d ≠ [] → Hex.IsSpelling payload d → r = .ok (.data d)
  error : (∀ d, d ≠ [] → ¬Hex.IsSpelling payload d) →
    (∃ code, Reply.IsCode payload code ∧ r = .error (.remote code)) ∨
      (∀ code, ¬Reply.IsCode payload code) ∧ r = .error (.unexpected (Reply.parse payload))

/-- **A reply with the right checksum** gives the bytes that it spells, or none. -/
theorem Ask.recalls_answer {p : Packet} (h : p.verify = true) (verify : Bool)
    (addr length : UInt64) : Recalls p.payload ((Ask.memory addr length).answer verify p) := by
  have hcheck : (if verify then p.check else .ok ()) = .ok () := by
    rw [Packet.check, if_pos h, ite_self]
  have hsays := Reply.says_parse p.payload
  have hnil : ∀ {d}, Hex.IsSpelling [] d → d = [] := fun hd => hd.unique Hex.isSpelling_nil
  constructor
  · intro d hd hspelling
    have hsome : p.payload ≠ [] := by
      intro hempty
      exact hd (hnil (hempty ▸ hspelling))
    have hparse := hsays.unique (.data hsome hspelling)
    simp only [answer, decodeReply, hcheck, hparse]
  · intro hnone
    -- bytes are only said by what spells some, and an error code by its own form
    cases hparse : Reply.parse p.payload with
    | error code =>
      rw [hparse] at hsays
      cases hsays with
      | code hcode => exact .inl ⟨code, hcode, by simp only [answer, decodeReply, hcheck, hparse]⟩
    | data d =>
      rw [hparse] at hsays
      cases hsays with
      | data hsome hspelling =>
        refine absurd hspelling (hnone d ?_)
        rintro rfl
        exact hsome (List.eq_nil_of_length_eq_zero hspelling.length)
    | ok | unsupported | text =>
      refine .inr ⟨fun code hcode => ?_, by simp only [answer, decodeReply, hcheck, hparse]⟩
      have hcode' := hsays.unique (.code hcode)
      rw [hparse] at hcode'
      cases hcode'

/-- Whatever else goes on, a call that is handed the reply returns what it spells. -/
theorem Session.moveCall_recalls {L : Type} [Link L] {s : Session L} {n t d : ℕ}
    {addr length : UInt64} {p : Packet}
    (hc : s.calls[n]? = some ⟨.memory addr length, .awaiting t d⟩)
    (hfull : s.rendezvous.channel t = .full p) (h : p.verify = true) :
    s.callReady n = true ∧
      ∃ r, (s.moveCall n).phase? n = some (.ended r) ∧ Ask.Recalls p.payload r := by
  constructor
  · simp only [callReady, hc, hfull]
    rfl
  · refine ⟨_, ?_, Ask.recalls_answer h s.settings.verifyReplies addr length⟩
    simp only [moveCall, hc, collect, hfull]
    exact phase?_finish (by exact phase?_of_call hc) _

/-- The prompt asks the session for memory and waits for the answer. -/
theorem Console.execute_memory {L : Type} [Link L] {c : Console L} {s : Session L}
    (h : c.usable = .ok s) (addr length : UInt64) :
    (c.execute (.memory addr length)).session = some (s.issue (.memory addr length)) ∧
      (c.execute (.memory addr length)).phase = .calling s.calls.length (.memory addr) := by
  simp only [execute, call, h]
  exact ⟨trivial, trivial⟩

namespace Dialogue

section Memory

variable {L : Type} [Link L] [Steady L] {x : Dialogue L}

/-- Each call for memory gets what its own reply spells. -/
structure Recalled (x : Dialogue L) : Prop where
  /-- A call for memory that is over had the answer with its number. -/
  results : ∀ n addr length r, x.session.ask? n = some (.memory addr length) →
    x.session.phase? n = some (.ended r) →
    ∃ p, x.answers[n]? = some p ∧ (p.verify = true → Ask.Recalls p.payload r)
  /-- Left to themselves the agents come to rest. -/
  settles : ∃ bound, ∀ as, Interplay.CanMove x.session as → as.length ≤ bound
  /-- At rest, with nothing held back, every call for memory that was answered is over. -/
  settled : Interplay.AtRest x.session → x.unsent = [] → ∀ n addr length p,
    x.session.ask? n = some (.memory addr length) → x.answers[n]? = some p → p.verify = true →
    ∃ r, x.session.phase? n = some (.ended r) ∧ Ask.Recalls p.payload r

theorem Inquired.recalled (hx : x.Inquired) : x.Recalled := by
  obtain ⟨y, asks, hy, hmatches, rfl⟩ := hx.recast
  have hasks : ∀ n ask, (y.recast asks).session.ask? n = some ask → asks n = ask := by
    intro n ask hask
    obtain ⟨c, hc, rfl⟩ := Option.map_eq_some_iff.mp hask
    rw [Dialogue.recast, Session.getElem?_recast] at hc
    obtain ⟨c', -, rfl⟩ := Option.map_eq_some_iff.mp hc
    rfl
  refine ⟨fun n addr length r hask hr => ?_, ?_, fun hrest hunsent n addr length p hask hp h => ?_⟩
  · obtain ⟨ws, -, -, hstage⟩ := hy.traced
    rw [Dialogue.recast, Session.phase?_recast, Option.map_eq_some_iff] at hr
    obtain ⟨o, ho, hr⟩ := hr
    -- a call that is over now was over before it was recast
    obtain ⟨r', rfl⟩ : ∃ r', o = .ended r' := by
      obtain hsame | ⟨r', -, rfl, -⟩ :=
        CallPhase.recast_or y.session.settings.verifyReplies (asks n) o
      · exact ⟨r, hsame.symm.trans hr⟩
      · exact ⟨r', rfl⟩
    have hn := hstage n
    rw [ho] at hn
    obtain ⟨p, hp, rfl⟩ := hn
    refine ⟨p, getElem?_mono hy.carried.prefixes.1 hp, fun h => ?_⟩
    rw [hasks n _ hask] at hr
    obtain rfl := CallPhase.ended.inj hr
    exact Ask.recalls_answer h _ addr length
  · obtain ⟨F, hpos, hF⟩ := y.session.exists_longest y.session.calls.length
    refine ⟨y.session.ahead F, fun as hmoves => hy.finite hpos (fun n bytes hn => ?_)
      (hy.canMove_recast hmatches hmoves)⟩
    obtain ⟨c, hc, -⟩ := Option.bind_eq_some_iff.mp hn
    exact hF n (List.getElem?_eq_some_iff.mp hc).1 bytes hn
  · have hsettled := hy.rest ((y.session.atRest_recast asks).mp hrest) hunsent
    refine ⟨_, ?_, Ask.recalls_answer h y.session.settings.verifyReplies addr length⟩
    rw [Dialogue.recast, Session.phase?_recast, hsettled.answered n p hp, hasks n _ hask]
    rfl

/-- **Memory comes out as it is.** In a dialogue with a target that answers, every call for memory
that was answered with the right checksum ends, and returns the bytes that the answer to it
spells, or no bytes if it spells none. Whatever else goes on in a session, a call that is handed
such a reply does so with its next move. Memory is asked for at the prompt by such a call, and
what it returns is shown at once, every byte once and in order. -/
theorem memory_recalled (hx : x.Inquired) :
    x.Recalled ∧
    (∀ (s : Session L) (n t d : ℕ) (addr length : UInt64) (p : Packet),
      s.calls[n]? = some ⟨.memory addr length, .awaiting t d⟩ →
      s.rendezvous.channel t = .full p → p.verify = true →
      s.callReady n = true ∧
        ∃ r, (s.moveCall n).phase? n = some (.ended r) ∧ Ask.Recalls p.payload r) ∧
    (∀ (c : Console L) (s : Session L) (addr length : UInt64), c.usable = .ok s →
      (c.execute (.memory addr length)).session = some (s.issue (.memory addr length)) ∧
        (c.execute (.memory addr length)).phase = .calling s.calls.length (.memory addr)) ∧
    (∀ (c : Console L) (s : Session L) (n : ℕ) (addr : UInt64) (data : Bytes), data ≠ [] →
      c.phase = .calling n (.memory addr) → c.session = some s →
      s.phase? n = some (.ended (.ok (.data data))) →
      ∃ lines, c.finishCall.prints = (lines.map fun l => Console.Print.out (l ++ "\n")).reverse
          ++ c.prints ∧
        Console.Display.Shows c.painted addr data lines) := by
  refine ⟨hx.recalled, fun s n t d addr length p hc hfull h => Session.moveCall_recalls hc hfull h,
    fun c s addr length h => Console.execute_memory h addr length,
    fun c s n addr data hdata hphase hs hended => ?_⟩
  exact ⟨_, Console.finishCall_memory hphase hs hended,
    Console.Display.shows_memory c.painted addr hdata⟩

end Memory

/-- Two bytes in digits of both cases. -/
def mixedCase : Packet := .sealed .reply [0x34, 0x61, 0x34, 0x42]

/-- A command is sent, answered in the digits of two bytes, and the answer is read. -/
def answering : List Event :=
  List.replicate 3 (.move (.call 0))
    ++ [.move .porter, .move (.call 0), .reply mixedCase, .deliver 8]
    ++ List.replicate 9 (.move .reader) ++ [.move .porter]
    ++ List.replicate 2 (.move .reader) ++ [.move (.call 0)]

/-- Memory at the top of the address space is asked for. -/
def atTheTop : Dialogue SerialLine :=
  (.ask (.memory 0xFFFFFFFFFFFFFFFF 2) :: answering.map Inquiry.event).foldl inquire (start {} {})

/-- The console that waits for the answer. -/
def waiting : Console SerialLine :=
  { session := some atTheTop.session, phase := .calling 0 (.memory 0xFFFFFFFFFFFFFFFF) }

theorem memory_recalled_atTheTop : atTheTop.Inquired ∧
    atTheTop.session.phase? 0 = some (.ended (.ok (.data [0x4A, 0x4B]))) ∧
    ∃ lines, waiting.finishCall.prints =
        (lines.map fun l => Console.Print.out (l ++ "\n")).reverse ∧
      Console.Display.Shows false 0xFFFFFFFFFFFFFFFF [0x4A, 0x4B] lines := by
  have hx : atTheTop.Inquired := ⟨_, _, _, SerialLine.inOrder_new, rfl, rfl, by decide, rfl⟩
  obtain ⟨hrecalled, -, -, hshown⟩ := memory_recalled hx
  -- the run is short enough to be computed
  have hrest : Interplay.AtRest atTheTop.session := by decide +kernel
  have hunsent : atTheTop.unsent = [] := by decide +kernel
  have hask : atTheTop.session.ask? 0 = some (.memory 0xFFFFFFFFFFFFFFFF 2) := by decide +kernel
  have hanswer : atTheTop.answers[0]? = some mixedCase := by decide +kernel
  obtain ⟨r, hended, hrecalls⟩ := hrecalled.settled hrest hunsent 0 _ _ _ hask hanswer (by decide)
  have hspelling : Hex.IsSpelling mixedCase.payload [0x4A, 0x4B] := Hex.decode_eq_ok_iff.mp rfl
  obtain rfl := hrecalls.data _ (by decide) hspelling
  obtain ⟨lines, hprints, hlines⟩ := hshown waiting _ 0 _ _ (by decide) rfl rfl hended
  exact ⟨hx, hended, lines, hprints.trans (List.append_nil _), hlines⟩

end Dialogue

end ProbeLink
