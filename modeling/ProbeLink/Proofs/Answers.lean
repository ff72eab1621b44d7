/-
# Each call gets its own answer

Whatever can happen in a dialogue keeps everything right (`Dialogue.Sound.step`). Every
sequence of moves comes to an end (`Dialogue.Sound.finite`), and when nobody can move and
everything that was sent is delivered, each call that was answered is over and has its
answer, every reply is acknowledged once, and the notifications are queued in order
(`Dialogue.Sound.rest`). Before that, too, a call that is over has the answer with its
number, and nothing was dropped or timed out (`Dialogue.answered_in_turn`).

Key definitions: `Dialogue.Settled`, `Dialogue.Served`.
Key theorems: `Dialogue.Sound.rest`, `Dialogue.Sound.step`, `Dialogue.answered_in_turn`.
-/
import ProbeLink.Proofs.Dialogue

namespace ProbeLink

namespace Session

/-- A move issues no call and changes no frame. -/
theorem frame?_move {L : Type} [Link L] (s : Session L) (a : Agent) (n : ℕ) :
    (Interplay.move s a).frame? n = s.frame? n := by
  cases a with
  | reader =>
    show s.moveReader.frame? n = s.frame? n
    rw [frame?, calls_moveReader, frame?]
  | call k => exact Turns.frame?_moveCall s k n
  | _ => rfl

/-- Finitely many frames have a longest one. -/
theorem exists_longest {L : Type} (s : Session L) : ∀ k : ℕ, ∃ F, 0 < F ∧
    ∀ n < k, ∀ bytes, s.frame? n = some bytes → bytes.length ≤ F
  | 0 => ⟨1, Nat.one_pos, nofun⟩
  | k + 1 => by
    obtain ⟨F, hpos, hF⟩ := exists_longest s k
    refine ⟨F + ((s.frame? k).getD []).length, by omega, fun n hn bytes hbytes => ?_⟩
    by_cases hk : n = k
    · rw [← hk, hbytes, Option.getD_some]
      omega
    · have hle := hF n (by omega) bytes hbytes
      omega

end Session

namespace Dialogue

open CallPhase

section Sound

variable {L : Type} [Link L] [Steady L] {x y : Dialogue L} {n : ℕ}

/-! ### At rest -/

/-- Everything that was sent is dealt with. -/
structure Settled (x : Dialogue L) : Prop where
  /-- Each call that was answered is over and has the answer with its number. -/
  answered : ∀ n p, x.answers[n]? = some p →
    x.session.phase? n = some (.ended (.ok (.packet p)))
  /-- Only the target is waited for: it has got the frames of all other calls. -/
  waiting : ∀ n < x.session.calls.length, x.answers.length ≤ n → x.Received n
  /-- All replies are counted and acknowledged. -/
  replies : x.session.counters.replies = x.answers.length
  acks : x.session.counters.acksSent = x.answers.length
  /-- On the wire are command frames and one acknowledgement for each reply. -/
  wire : ∃ ws : List Bytes, Link.delivered x.session.link = ws.flatten ∧
    (∀ w ∈ ws, w = [ackByte] ∨ ∃ n, x.session.frame? n = some w) ∧
    ws.count [ackByte] = x.answers.length
  /-- The notifications are in the queue, in the order in which they were sent, behind those
  that were taken from it. -/
  queue : ∃ ps, x.session.notifications.queued = some ps ∧ x.received ++ ps = x.notes

/-- Once everything is read, the framer has said all that was sent. -/
theorem Carried.all (h : x.Carried) (hin : FarEnd.incoming x.session.link = [])
    (hunsent : x.unsent = []) : x.heard = x.answers ∧ x.noted = x.notes := by
  have hall := Framer.feed_segments h.fits
  rw [← h.bytes, hin, hunsent, List.append_nil, List.append_nil] at hall
  have hsaid : x.said = x.sent.filterMap (Segment.output x.session.settings.maxFrameLen) := hall
  rw [heard, noted, hsaid, List.filterMap_filterMap, List.filterMap_filterMap]
  exact ⟨List.filterMap_congr fun g _ => Segment.reply?_eq _ g,
    List.filterMap_congr fun g _ => Segment.notification?_eq _ g⟩

/-- At rest a call is over, or waits for a reply that has not been read. -/
theorem Sound.rest_phase (h : x.Sound) (hrest : Interplay.AtRest x.session) {o : CallPhase}
    (ho : x.session.phase? n = some o) : (∃ r, o = .ended r) ∨
      ∃ t d, o = .awaiting t d ∧ x.heard.length = n := by
  obtain ⟨ws, hafloat, hlogged, hstage⟩ := h.traced
  obtain ⟨hline, -⟩ := hafloat.rest hrest
  have hn := hstage n
  rw [ho] at hn
  obtain ⟨⟨ask, phase⟩, hc, rfl⟩ := Option.map_eq_some_iff.mp ho
  have hready : x.session.callReady n = false := hrest (.call n)
  cases phase with
  | issued => simp [Session.callReady, hc] at hready
  | queued =>
    -- all others are over, so the call is the first in line
    have hmem : n ∈ x.session.commandLine := (h.lined.line n).mpr (by rw [ho]; trivial)
    obtain ⟨k, r, hkr⟩ : ∃ k r, x.session.commandLine = k :: r :=
      List.exists_cons_of_ne_nil (List.ne_nil_of_mem hmem)
    have hk : InLine (x.session.phase? k) :=
      (h.lined.line k).mp (by rw [hkr]; exact List.mem_cons_self)
    obtain rfl : k = n := by
      by_contra hne
      rcases h.sequenced.others ho (by rintro _ ⟨⟩) hne with hnone | ⟨r, hr⟩
      · rw [hnone] at hk
        exact hk
      · rw [hr] at hk
        exact hk
    simp [Session.callReady, hc, hkr] at hready
  | sending t =>
    obtain ⟨⟨command, payload, rfl⟩, -⟩ := hafloat.plain _ (List.mem_of_getElem? hc)
    have hwants : x.session.wants (.call n) = some (.frame (commandFrame command payload)) := by
      simp only [Session.wants, ho, Session.frame?, hc, Ask.body?, Option.bind_some,
        Option.map_some]
    obtain ⟨e, he, -⟩ := (hafloat.serves.wants _ _).mp hwants
    rw [hline] at he
    cases he
  | awaiting t d =>
    refine .inr ⟨t, d, rfl, ?_⟩
    obtain ⟨⟨hl, -⟩ | ⟨-, p, -, hfull⟩, -⟩ := hn
    · exact hl
    · simp [Session.callReady, hc, hfull] at hready
  | ended r => exact .inl ⟨r, rfl⟩
  | shutting | joining | aborted => exact hn.elim

/-- **At rest**, with nothing held back, everything that was sent is dealt with. -/
theorem Sound.rest (h : x.Sound) (hrest : Interplay.AtRest x.session) (hunsent : x.unsent = []) :
    x.Settled := by
  obtain ⟨ws, hafloat, hlogged, hstage⟩ := h.traced
  obtain ⟨hline, hreader, hin, hdelivered⟩ := hafloat.rest hrest
  obtain ⟨hheard, hnoted⟩ := h.carried.all hin hunsent
  have hacks : x.session.counters.acksSent = x.answers.length := by
    have hacked := h.counted.acks
    rwa [Session.acksDue, hreader, Nat.add_zero, hheard] at hacked
  have hover : ∀ n r, x.session.phase? n = some (.ended r) →
      ∃ p, x.answers[n]? = some p ∧ r = .ok (.packet p) := by
    intro n r hr
    have hn := hstage n
    rw [hr] at hn
    rw [← hheard]
    exact hn
  refine ⟨fun n p hp => ?_, fun n hn hle => ?_, ?_, hacks, ⟨ws, hdelivered, hlogged.pieces, ?_⟩, ?_⟩
  · have hlt := (List.getElem?_eq_some_iff.mp hp).1
    have hlate := h.sequenced.asked n hlt
    cases ho : x.session.phase? n with
    | none =>
      rw [ho] at hlate
      exact absurd trivial hlate
    | some o =>
      rcases h.rest_phase hrest ho with ⟨r, rfl⟩ | ⟨t, d, -, hl⟩
      · obtain ⟨q, hq, rfl⟩ := hover n r ho
        obtain rfl : q = p := Option.some.inj (hq.symm.trans hp)
        rfl
      · rw [hheard] at hl
        omega
  · have hsome : ∃ o, x.session.phase? n = some o :=
      ⟨_, by rw [Session.phase?, List.getElem?_eq_getElem hn]; rfl⟩
    obtain ⟨o, ho⟩ := hsome
    rcases h.rest_phase hrest ho with ⟨r, rfl⟩ | ⟨t, d, rfl, -⟩
    · obtain ⟨q, hq, -⟩ := hover n r ho
      have hlt := (List.getElem?_eq_some_iff.mp hq).1
      omega
    · have hn := hstage n
      rw [ho] at hn
      obtain ⟨-, -, w, bytes, hw, hf, hon⟩ := hn
      exact ⟨w, hw, bytes, hf, hdelivered ▸ hon⟩
  · rw [h.counted.replies, hheard]
  · rw [hlogged.acks, hacks]
  · rw [← hnoted]
    exact h.carried.queue

/-! ### Every step keeps it -/

/-- What the target sends it sends to the session. -/
theorem Sound.sends (h : x.Sound) {g : Segment} (hg : g.Fits x.session.settings.maxFrameLen)
    (hasked : ∀ n < (x.sends g).answers.length, ¬Early (x.session.phase? n)) :
    (x.sends g).Sound := by
  have hcarried : (x.sends g).Carried := by
    refine ⟨h.carried.framer, fun g' hg' => ?_, ?_, h.carried.queue⟩
    · rcases List.mem_append.mp hg' with hg' | hg'
      · exact h.carried.fits g' hg'
      · rw [List.mem_singleton.mp hg']
        exact hg
    · have hbytes := h.carried.bytes
      simp only [Dialogue.sends, List.flatMap_append, List.flatMap_singleton, ← hbytes,
        List.append_assoc]
  obtain ⟨ws, hafloat, hlogged, hstage⟩ := h.traced
  exact ⟨h.lined, h.aloud, hcarried, h.counted.of_eq rfl rfl rfl rfl rfl, h.patience,
    ⟨h.sequenced.past, hasked, h.sequenced.begun⟩, ws, hafloat,
    hlogged.keep (fun _ => rfl) rfl rfl fun n o r hr => ⟨r, hr⟩,
    fun n => (hstage n).mono rfl rfl rfl rfl (fun _ _ _ => rfl) List.prefix_rfl⟩

/-- What is delivered comes behind what was delivered before. -/
theorem Sound.deliver (h : x.Sound) (n : ℕ) : (x.step (.deliver n)).Sound := by
  obtain ⟨ws, hafloat, hlogged, hstage⟩ := h.traced
  obtain ⟨put, hbelow⟩ := hafloat.below
  obtain ⟨u, hworks, -⟩ := hbelow.works
  have hin := FarEnd.incoming_send (x.unsent.take n) (Steady.accepts_works hworks)
  refine h.still (h.lined.step (.link _)) (h.aloud.step h.lined (.link _)) ?_
    (h.counted.of_eq rfl rfl rfl rfl rfl) rfl rfl rfl rfl rfl rfl (fun n => .inl rfl) ?_
    (hlogged.keep (fun _ => rfl) rfl rfl fun n o r hr => ⟨r, hr⟩) hstage List.prefix_rfl
  · refine ⟨h.carried.framer, h.carried.fits, ?_, h.carried.queue⟩
    refine Eq.trans ?_ h.carried.bytes
    show x.read ++ FarEnd.incoming (FarEnd.send x.session.link (x.unsent.take n))
      ++ x.unsent.drop n = _
    rw [hin, List.append_assoc, List.append_assoc, List.take_append_drop, List.append_assoc]
  · refine ⟨⟨put, ?_⟩, hafloat.serves, hafloat.readsOn, hafloat.opened, hafloat.held, hafloat.plain⟩
    exact hbelow.link (FarEnd.wire_send _ _) fun u _ hu => Steady.works_send _ hu

/-- Nobody runs out of time before its answer is read. -/
theorem Sound.advance (h : x.Sound) {ms : ℕ} (htime : x.InTime ms) :
    ({ x with toTurns := x.toTurns.step (.advance ms) } : Dialogue L).Sound := by
  obtain ⟨ws, hafloat, hlogged, hstage⟩ := h.traced
  refine ⟨h.lined.step (.advance ms), h.aloud.step h.lined (.advance ms),
    h.carried.of_eq rfl rfl rfl rfl rfl rfl rfl rfl, h.counted.of_eq rfl rfl rfl rfl rfl, h.patience,
    ⟨h.sequenced.past, h.sequenced.asked, h.sequenced.begun⟩, ws,
    ⟨hafloat.below, hafloat.serves, hafloat.readsOn, hafloat.opened, hafloat.held, hafloat.plain⟩,
    ⟨hlogged.pieces, hlogged.acks, hlogged.turn⟩, fun n => ?_⟩
  have hn := hstage n
  show Stage _ _ n (x.session.phase? n)
  cases ho : x.session.phase? n with
  | none => trivial
  | some o =>
    rw [ho] at hn
    cases o with
    | awaiting t d =>
      obtain ⟨hawaits, -, hwritten⟩ := hn
      refine ⟨hawaits, fun hl => ?_, hwritten⟩
      show x.session.now + ms < d
      by_contra hlate
      have hdeadline : d ∈ (x.session.phase? n).bind CallPhase.deadline? := by rw [ho]; rfl
      rcases htime n (Turns.lt_length_of_phase ho) d hdeadline (Nat.le_of_not_lt hlate) with
        hread | ⟨hsent, hunsent, hrest⟩
      · exact absurd hl (Nat.ne_of_gt hread)
      · have hsettled := h.rest hrest hunsent
        have hover := hsettled.answered n _ (List.getElem?_eq_getElem hsent)
        rw [ho] at hover
        cases hover
    | _ => exact hn

/-- Taking the queue, or something from it, changes nothing else. -/
theorem Sound.receive (h : x.Sound) : (x.step .receive).Sound := by
  obtain ⟨ws, hafloat, hlogged, hstage⟩ := h.traced
  obtain ⟨ps, hps, hreceived⟩ := h.carried.queue
  cases ps with
  | nil =>
    have hnothing : x.step .receive = x := by
      simp only [step, Notifications.receive, hps]
      split
      · rename_i hno
        split at hno <;> cases hno
      · rfl
    rw [hnothing]
    exact h
  | cons p ps =>
    have hfirst : x.step .receive = { x with
        toTurns := x.toTurns.step (.queue { x.session.notifications with queued := some ps })
        received := x.received ++ [p] } := by
      simp only [step, Notifications.receive, hps]
    rw [hfirst]
    refine h.still (h.lined.step (.queue _)) (h.aloud.step h.lined (.queue _)) ?_
      (h.counted.of_eq rfl rfl rfl rfl rfl) rfl rfl rfl rfl rfl rfl (fun n => .inl rfl)
      ⟨hafloat.below, hafloat.serves, hafloat.readsOn, hafloat.opened, hafloat.held, hafloat.plain⟩
      (hlogged.keep (fun _ => rfl) rfl rfl fun n o r hr => ⟨r, hr⟩) hstage List.prefix_rfl
    refine ⟨h.carried.framer, h.carried.fits, h.carried.bytes, ps, rfl, ?_⟩
    rw [List.append_assoc]
    exact hreceived

/-- The calls before are over when the next command is sent. -/
theorem Sound.all_past (h : x.Sound) (hlive : x.session.hasLiveCall = false)
    (hn : n < x.session.calls.length) : ∃ r, x.session.phase? n = some (.ended r) := by
  obtain ⟨ws, hafloat, -⟩ := h.traced
  have hc : x.session.calls[n]? = some x.session.calls[n] := List.getElem?_eq_getElem hn
  have hmem := List.mem_of_getElem? hc
  obtain ⟨-, hplain⟩ := hafloat.plain _ hmem
  have hdead : (x.session.calls[n]).phase.isLive = false := by
    have hall := List.any_eq_false.mp hlive _ hmem
    rwa [Bool.not_eq_true] at hall
  rw [Session.phase?, hc, Option.map_some]
  cases hphase : (x.session.calls[n]).phase with
  | ended r => exact ⟨r, rfl⟩
  | aborted =>
    rw [hphase] at hplain
    exact hplain.elim
  | _ =>
    rw [hphase] at hdead
    cases hdead

/-- When all calls are over, each has read its reply, and no more was sent. -/
theorem Sound.heard_length (h : x.Sound) (hlive : x.session.hasLiveCall = false) :
    x.heard.length = x.session.calls.length ∧ x.answers.length = x.session.calls.length := by
  obtain ⟨ws, -, -, hstage⟩ := h.traced
  have hprefix := h.carried.prefixes.1.length_le
  have hanswers : x.answers.length ≤ x.session.calls.length := by
    by_contra hmore
    have hlate := h.sequenced.asked x.session.calls.length (by omega)
    rw [Session.phase?, List.getElem?_eq_none (Nat.le_refl _)] at hlate
    exact hlate trivial
  have hheard : x.session.calls.length ≤ x.heard.length := by
    by_contra hless
    have hlt : x.session.calls.length - 1 < x.session.calls.length := by omega
    obtain ⟨r, hr⟩ := h.all_past hlive hlt
    have hn := hstage (x.session.calls.length - 1)
    rw [hr] at hn
    obtain ⟨p, hp, -⟩ := hn
    have hlast := (List.getElem?_eq_some_iff.mp hp).1
    omega
  omega

/-- **The next command** finds everything read. -/
theorem Sound.command (h : x.Sound) (hlive : x.session.hasLiveCall = false)
    (command payload : String) :
    ({ x with toTurns := x.toTurns.step (.issue (.packet command payload)) } :
      Dialogue L).Sound := by
  obtain ⟨ws, hafloat, hlogged, hstage⟩ := h.traced
  obtain ⟨hheard, hanswers⟩ := h.heard_length hlive
  set ask : Ask := .packet command payload with hask
  have hphase := Turns.phase?_issue x.session ask
  have hold : ∀ n o, x.session.phase? n = some o → (x.session.issue ask).phase? n = some o :=
    fun n o => Turns.phase?_issue_old
  have hframe : ∀ n w, x.session.frame? n = some w → (x.session.issue ask).frame? n = some w := by
    intro n w hw
    rw [Session.frame?_issue_ne _ _ ?_, hw]
    rintro rfl
    rw [Session.frame?, List.getElem?_eq_none (Nat.le_refl _)] at hw
    cases hw
  have hlate : ∀ n, ¬Early (x.session.phase? n) → ¬Early ((x.session.issue ask).phase? n) := by
    intro n hn
    cases ho : x.session.phase? n with
    | none =>
      rw [ho] at hn
      exact absurd trivial hn
    | some o =>
      rw [hold n o ho, ← ho]
      exact hn
  refine ⟨h.lined.step (.issue ask), h.aloud.step h.lined (.issue ask),
    h.carried.of_eq rfl rfl rfl rfl rfl rfl rfl rfl, h.counted.of_eq rfl rfl rfl rfl rfl, h.patience,
    ⟨fun n hn => ?_, fun n hn => hlate n (h.sequenced.asked n hn),
      fun n hn => hlate n (h.sequenced.begun n hn)⟩, ws, ?_, ⟨fun w hw => ?_, hlogged.acks,
      hlogged.turn⟩, fun n => ?_⟩
  · have hlt : n < x.session.calls.length := by
      have hlength : n + 1 < (x.session.calls ++ [({ ask } : Call)]).length := hn
      rw [List.length_append, List.length_singleton] at hlength
      omega
    obtain ⟨r, hr⟩ := h.all_past hlive hlt
    exact ⟨r, hold n _ hr⟩
  · refine ⟨hafloat.below, ?_, hafloat.readsOn, hafloat.opened, hafloat.held, fun c hc => ?_⟩
    · show Outlet.Serves x.session.outlet.line (x.session.issue ask).wants
      rw [Session.wants_issue]
      exact hafloat.serves
    · rcases List.mem_append.mp hc with hc | hc
      · exact hafloat.plain c hc
      · rw [List.mem_singleton.mp hc]
        exact ⟨⟨command, payload, rfl⟩, trivial⟩
  · refine (hlogged.pieces w hw).imp_right ?_
    rintro ⟨n, hn⟩
    exact ⟨n, hframe n w hn⟩
  · show Stage _ _ n ((x.session.issue ask).phase? n)
    rw [hphase]
    split
    · rename_i hn
      exact hheard.trans hn.symm
    · rename_i hn
      exact (hstage n).mono rfl rfl rfl (Session.frame?_issue_ne _ _ hn) (fun _ _ _ => rfl) List.prefix_rfl

/-- **Every step** keeps everything right. -/
theorem Sound.step (h : x.Sound) (e : Event) : (x.step e).Sound := by
  cases e with
  | move a =>
    by_cases hr : Interplay.ready x.session a = true
    · exact h.move hr
    · rw [Dialogue.step, if_neg hr]
      exact h
  | command command payload =>
    simp only [Dialogue.step]
    split
    · exact h
    · rename_i hlive
      exact h.command (Bool.not_eq_true _ ▸ hlive) command payload
  | reply p =>
    simp only [Dialogue.step]
    split
    · rename_i hp
      obtain ⟨hkind, hfits, w, hw, -⟩ := hp
      refine h.sends hfits fun n hn => ?_
      have hanswers : (x.sends (.frame p)).answers = x.answers ++ [p] := by
        simp [answers, Dialogue.sends, Segment.reply?, hkind]
      rw [hanswers, List.length_append, List.length_singleton] at hn
      by_cases hlast : n < x.answers.length
      · exact h.sequenced.asked n hlast
      · obtain rfl : n = x.answers.length := by omega
        exact h.sequenced.begun _ (by rw [hw]; rintro ⟨⟩)
    · exact h
  | chatter g =>
    simp only [Dialogue.step]
    split
    · rename_i hg
      refine h.sends hg.2 fun n hn => h.sequenced.asked n ?_
      have hanswers : (x.sends g).answers = x.answers := by
        simp [answers, Dialogue.sends, hg.1]
      rwa [hanswers] at hn
    · exact h
  | deliver n => exact h.deliver n
  | advance ms =>
    simp only [Dialogue.step]
    split
    · rename_i htime
      exact h.advance htime
    · exact h
  | takeQueue =>
    obtain ⟨ws, hafloat, hlogged, hstage⟩ := h.traced
    exact h.still (h.lined.step .takeQueue) (h.aloud.step h.lined .takeQueue)
      (h.carried.of_eq rfl rfl rfl rfl rfl rfl rfl rfl) (h.counted.of_eq rfl rfl rfl rfl rfl) rfl rfl
      rfl rfl rfl rfl (fun n => .inl rfl)
      ⟨hafloat.below, hafloat.serves, hafloat.readsOn, hafloat.opened, hafloat.held, hafloat.plain⟩
      (hlogged.keep (fun _ => rfl) rfl rfl fun n o r hr => ⟨r, hr⟩) hstage List.prefix_rfl
  | receive => exact h.receive

/-! ### Runs -/

/-- The frame that is kept is one of the frames. -/
theorem Sound.bounded (h : x.Sound) {F : ℕ} (hpos : 0 < F)
    (hF : ∀ n bytes, x.session.frame? n = some bytes → bytes.length ≤ F) : x.session.Bounded F := by
  refine ⟨hpos, hF, ?_⟩
  cases hlast : x.session.outlet.last with
  | none => exact Nat.zero_le F
  | some bytes =>
    obtain ⟨k, -, hk⟩ := Option.bind_eq_some_iff.mp (h.aloud.last.symm.trans hlast)
    exact hF k bytes hk

/-- **Every sequence of moves comes to an end**, after no more moves than are ahead. -/
theorem Sound.finite {F : ℕ} (hpos : 0 < F) : ∀ {as : List Agent} {x : Dialogue L}, x.Sound →
    (∀ n bytes, x.session.frame? n = some bytes → bytes.length ≤ F) →
    Interplay.CanMove x.session as → as.length ≤ x.session.ahead F
  | [], _, _, _, _ => Nat.zero_le _
  | a :: as, x, h, hF, hmoves => by
    obtain ⟨hr, hmoves⟩ := hmoves
    obtain ⟨ws, hafloat, -⟩ := h.traced
    obtain ⟨base, hs⟩ := hafloat.smooth hr
    have hlt := hs.ahead_lt hafloat (h.bounded hpos hF)
    have hsession : (x.step (.move a)).session = Interplay.move x.session a := by
      simp only [Dialogue.step, Turns.step, if_pos hr]
    have hframes : ∀ n bytes, (x.step (.move a)).session.frame? n = some bytes →
        bytes.length ≤ F := by
      intro n bytes hn
      rw [hsession, Session.frame?_move] at hn
      exact hF n bytes hn
    have ih := Sound.finite hpos (h.step (.move a)) hframes (hsession ▸ hmoves)
    rw [hsession] at ih
    rw [List.length_cons]
    omega

theorem sound_start {link : L} {settings : SessionSettings} (hworks : Steady.works link false none)
    (hin : FarEnd.incoming link = []) (hwire : Link.wire link = [])
    (hpatience : 0 < settings.replyTimeoutMs) : (start link settings).Sound where
  lined := Turns.lined_start link settings
  aloud := Turns.aloud_start link settings
  carried := by
    refine ⟨rfl, nofun, ?_, [], rfl, rfl⟩
    show [] ++ FarEnd.incoming link ++ [] = []
    rw [hin]
    rfl
  counted := ⟨rfl, rfl, rfl, rfl⟩
  patience := hpatience
  sequenced := ⟨nofun, nofun, fun _ hn => absurd rfl hn⟩
  traced := by
    refine ⟨[], ⟨⟨[], hwire, nofun, fun _ => ⟨rfl, hworks⟩, nofun⟩, ⟨List.nodup_nil, fun a o => ?_⟩,
      rfl, rfl, rfl, nofun⟩, ⟨nofun, rfl, nofun⟩, fun _ => trivial⟩
    refine iff_of_false ?_ ?_
    · cases a <;> nofun
    · rintro ⟨e, he, -⟩
      cases he

theorem Sound.run : ∀ {x : Dialogue L} (es : List Event), x.Sound → (x.run es).Sound
  | _, [], h => h
  | _, e :: es, h => Sound.run es (h.step e)

theorem Reached.sound (h : x.Reached) : x.Sound := by
  obtain ⟨link, settings, es, hworks, hin, hwire, hpatience, rfl⟩ := h
  exact Sound.run es (sound_start hworks hin hwire hpatience)

/-- **Each call is served.** -/
structure Served (x : Dialogue L) : Prop where
  /-- A call that is over has the answer with its number, as it was sent. -/
  results : ∀ n r, x.session.phase? n = some (.ended r) →
    ∃ p, x.answers[n]? = some p ∧ r = .ok (.packet p)
  dropped : x.session.counters.droppedReplies = 0
  timeouts : x.session.counters.timeouts = 0
  /-- A reply that was read is acknowledged, or its acknowledgement is the next to be written. -/
  acks : x.session.counters.acksSent + x.session.acksDue = x.session.counters.replies
  /-- The queue holds what was read of the notifications, in the order in which they were sent,
  behind those that were taken from it. -/
  queue : ∃ ps, x.session.notifications.queued = some ps ∧ x.received ++ ps <+: x.notes
  /-- Left to themselves the agents come to rest. -/
  settles : ∃ bound, ∀ as, Interplay.CanMove x.session as → as.length ≤ bound
  /-- At rest, with nothing held back, everything that was sent is dealt with. -/
  settled : Interplay.AtRest x.session → x.unsent = [] → x.Settled

theorem answered_in_turn (hx : x.Reached) : x.Served := by
  have h := hx.sound
  obtain ⟨ws, -, -, hstage⟩ := h.traced
  obtain ⟨ps, hps, hnoted⟩ := h.carried.queue
  refine ⟨fun n r hr => ?_, h.counted.dropped, h.counted.timeouts,
    h.counted.acks.trans h.counted.replies.symm, ⟨ps, hps, hnoted ▸ h.carried.prefixes.2⟩, ?_,
    h.rest⟩
  · have hn := hstage n
    rw [hr] at hn
    obtain ⟨p, hp, hok⟩ := hn
    exact ⟨p, getElem?_mono h.carried.prefixes.1 hp, hok⟩
  · obtain ⟨F, hpos, hF⟩ := x.session.exists_longest x.session.calls.length
    refine ⟨x.session.ahead F, fun as hmoves => h.finite hpos (fun n bytes hn => ?_) hmoves⟩
    obtain ⟨c, hc, -⟩ := Option.bind_eq_some_iff.mp hn
    exact hF n (List.getElem?_eq_some_iff.mp hc).1 bytes hn

end Sound

/-! ### A dialogue in pieces -/

/-- An answer with a wrong checksum. -/
def tampered : Packet := ⟨.reply, [], 0x30, 0x31⟩

/-- A notification. -/
def alarm : Packet := .sealed .notification []

/-- A command is answered, with other traffic in front, and all of it comes in two pieces. -/
def piecemeal : Dialogue SerialLine :=
  (start {} {}).run (.command "a" "" :: List.replicate 3 (.move (.call 0))
    ++ [.move .porter, .move (.call 0), .chatter (.frame alarm), .reply tampered, .deliver 5]
    ++ List.replicate 5 (.move .reader)
    ++ [.deliver 3] ++ List.replicate 4 (.move .reader) ++ [.move .porter]
    ++ List.replicate 2 (.move .reader) ++ [.move (.call 0)])

theorem answered_in_turn_piecemeal : piecemeal.Reached ∧ tampered.verify = false ∧
    piecemeal.session.phase? 0 = some (.ended (.ok (.packet tampered))) ∧
    piecemeal.session.notifications.queued = some [alarm] := by
  have hx : piecemeal.Reached := ⟨_, _, _, SerialLine.inOrder_new, rfl, rfl, by decide, rfl⟩
  -- the run is short enough to be computed
  have hrest : Interplay.AtRest piecemeal.session := by decide +kernel
  have hunsent : piecemeal.unsent = [] := by decide +kernel
  have hnotes : piecemeal.received = [] ∧ piecemeal.notes = [alarm] := by decide +kernel
  have hanswer : piecemeal.answers[0]? = some tampered := by decide +kernel
  have hsettled := (answered_in_turn hx).settled hrest hunsent
  obtain ⟨ps, hps, hqueue⟩ := hsettled.queue
  rw [hnotes.1, hnotes.2, List.nil_append] at hqueue
  subst hqueue
  exact ⟨hx, by decide, hsettled.answered 0 tampered hanswer, hps⟩

end Dialogue

end ProbeLink
