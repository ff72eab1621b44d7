/-
# A stream that was closed stays closed

Reads, writes, shutdowns and closes go on side by side on a stream whose halves may fail at
any time. The flag latches: every read that begins while it is up comes to nothing but a closed
stream, and so does every write whose turn has not come (`LinkDesk.Latched`). A read that waited
when the flag went up looks for the flag and for data side by side, and takes what there is
unless the flag counts (`LinkDesk.ended_found`, `LinkDesk.Stirs.takes_nothing`).

The write half is taken out of the stream at most once, and only the shutdown that takes it
can fail (`LinkDesk.Spent`). What the half was handed are the writes in the order in which
they got in line, each as a whole if it went well and else a beginning of it
(`LinkDesk.Queued`).

Key definitions: `LinkDesk.lined`, `LinkDesk.handedBy`, `LinkDesk.Queued`,
`LinkDesk.Latched`, `LinkDesk.finds`, `LinkDesk.Spent`.
Key theorem: `LinkDesk.latches_closed`.
-/
import ProbeLink.Link.Pipe
import ProbeLink.Proofs.Desk

namespace ProbeLink.LinkDesk

/-! ### What was handed to the write half -/

section Notes

/-- The calls that got in line to write, in their order. -/
def lined (log : List Note) : List ℕ :=
  log.filterMap fun
    | .lines n => some n
    | _ => none

/-- What call `n` has handed to the write half. -/
def handedBy (log : List Note) (n : ℕ) : Bytes :=
  log.flatMap fun
    | .hands k bytes => if k = n then bytes else []
    | _ => []

/-- All that the write half was handed. -/
def handed (log : List Note) : Bytes :=
  log.flatMap fun
    | .hands _ bytes => bytes
    | _ => []

/-- The note has nothing to do with writes. -/
def Note.Dull : Note → Prop
  | .lines _ => False
  | .hands _ _ => False
  | _ => True

variable {log new : List Note} {n k : ℕ} {bytes : Bytes}

theorem lined_append : lined (log ++ new) = lined log ++ lined new := List.filterMap_append

theorem handedBy_append : handedBy (log ++ new) n = handedBy log n ++ handedBy new n :=
  List.flatMap_append

theorem handed_append : handed (log ++ new) = handed log ++ handed new := List.flatMap_append

theorem handedBy_hands : handedBy [.hands n bytes] k = if n = k then bytes else [] :=
  List.append_nil _

/-- Notes that have nothing to do with writes change nothing about them. -/
theorem dull_append (log : List Note) (hnew : ∀ note ∈ new, note.Dull) :
    lined (log ++ new) = lined log ∧
    (∀ n, handedBy (log ++ new) n = handedBy log n) ∧ handed (log ++ new) = handed log := by
  have hnone : lined new = [] ∧ (∀ n, handedBy new n = []) ∧ handed new = [] := by
    refine ⟨List.filterMap_eq_nil_iff.mpr fun note hn => ?_,
      fun n => List.flatMap_eq_nil_iff.mpr fun note hn => ?_,
      List.flatMap_eq_nil_iff.mpr fun note hn => ?_⟩
    all_goals
      have hdull := hnew note hn
      cases note <;> first | rfl | exact hdull.elim
  obtain ⟨hlined, hby, hall⟩ := hnone
  refine ⟨?_, fun n => ?_, ?_⟩
  · rw [lined_append, hlined, List.append_nil]
  · rw [handedBy_append, hby, List.append_nil]
  · rw [handed_append, hall, List.append_nil]

end Notes

/-! ### The line for the write half -/

section Line

/-- The calls that write, in their order. -/
def numbers (line : List (Agent × StreamLink.Job)) : List ℕ :=
  line.filterMap fun
    | (.call n, .write _ _) => some n
    | _ => none

/-- The first in line is call `n`, and its turn to write has come. -/
def Writes (line : List (Agent × StreamLink.Job)) (n : ℕ) : Prop :=
  ∃ rest, line.head? = some (.call n, .write rest true)

/-- The line and the log agree. Every write has handed over a beginning of its bytes and still
has the rest to hand over. What was handed over stands in the order of the line, and behind
those who are through only the first in line has handed over anything. -/
structure Queued (line : List (Agent × StreamLink.Job)) (asked : List Ask) (log : List Note) :
    Prop where
  once : (lined log).Nodup
  stray : ∀ n ∉ lined log, handedBy log n = []
  part : ∀ n ∈ lined log, ∃ bytes, asked[n]? = some (.write bytes) ∧ handedBy log n <+: bytes
  rest : ∀ (n : ℕ) rest begun, (.call n, .write rest begun) ∈ line →
    asked[n]? = some (.write (handedBy log n ++ rest))
  order : ∃ past present, lined log = past ++ present ∧ (numbers line).Sublist present ∧
    ∀ n ∈ present, ¬Writes line n → handedBy log n = []
  whole : handed log = (lined log).flatMap (handedBy log)

variable {line line' others : List (Agent × StreamLink.Job)} {asked : List Ask}
  {log new : List Note} {n : ℕ} {rest bytes : Bytes} {begun : Bool}

theorem numbers_append : numbers (line ++ others) = numbers line ++ numbers others :=
  List.filterMap_append

theorem mem_numbers (h : (.call n, .write rest begun) ∈ line) : n ∈ numbers line :=
  List.mem_filterMap.mpr ⟨_, h, rfl⟩

/-- Whoever is in line got there. -/
theorem Queued.mem_lined (h : Queued line asked log) (hmem : (.call n, .write rest begun) ∈ line) :
    n ∈ lined log := by
  obtain ⟨past, present, heq, hsub, -⟩ := h.order
  rw [heq]
  exact List.mem_append_right _ (hsub.mem (mem_numbers hmem))

/-- More is asked, and nothing more is noted of writes. -/
theorem Queued.dull (h : Queued line asked log) (hnew : ∀ note ∈ new, note.Dull)
    (more : List Ask) : Queued line (asked ++ more) (log ++ new) := by
  obtain ⟨hlined, hby, hall⟩ := dull_append log hnew
  have hasked : ∀ {k : ℕ} {ask : Ask}, asked[k]? = some ask → (asked ++ more)[k]? = some ask := by
    intro k ask hk
    rw [List.getElem?_append_left (List.getElem?_eq_some_iff.mp hk).1, hk]
  refine ⟨?_, fun k hk => ?_, fun k hk => ?_, fun k r b hmem => ?_, ?_, ?_⟩
  · rw [hlined]
    exact h.once
  · rw [hlined] at hk
    rw [hby, h.stray k hk]
  · rw [hlined] at hk
    obtain ⟨bytes, hb, hpart⟩ := h.part k hk
    exact ⟨bytes, hasked hb, by rwa [hby]⟩
  · rw [hby]
    exact hasked (h.rest k r b hmem)
  · rw [hlined]
    simpa only [hby] using h.order
  · rw [hall, hlined, h.whole]
    exact congrArg (List.flatMap · (lined log)) (funext fun k => (hby k).symm)

/-- Somebody leaves the line. -/
theorem Queued.leave (h : Queued line asked log) (hsub : line'.Sublist line) :
    Queued line' asked log := by
  refine ⟨h.once, h.stray, h.part, fun k r b hmem => h.rest k r b (hsub.mem hmem), ?_, h.whole⟩
  obtain ⟨past, present, heq, hnumbers, hidle⟩ := h.order
  cases hsub with
  | slnil => exact ⟨past, present, heq, hnumbers, hidle⟩
  | @cons_cons w r e hr =>
    exact ⟨past, present, heq, ((hr.cons_cons e).filterMap _).trans hnumbers, hidle⟩
  | @cons w r e hr =>
    -- whoever had its turn is gone, and with it those who came before it
    by_cases hturn : ∃ n rest, e = (.call n, .write rest true)
    · obtain ⟨n, rest, rfl⟩ := hturn
      obtain ⟨gone, left, rfl, hgone, hleft⟩ := List.cons_sublist_iff.mp hnumbers
      have honce := h.once
      rw [heq, ← List.append_assoc, List.nodup_append] at honce
      refine ⟨past ++ gone, left, by rw [heq, List.append_assoc], (hr.filterMap _).trans hleft,
        fun k hk _ => hidle k (List.mem_append_right _ hk) ?_⟩
      rintro ⟨rest', hhead⟩
      obtain ⟨hn, -⟩ := Prod.mk.inj (Option.some.inj hhead)
      obtain rfl := Agent.call.inj hn
      exact honce.2.2 n (List.mem_append_right _ hgone) n hk rfl
    · have hsame : (numbers r).Sublist (numbers (e :: r)) :=
        (List.sublist_cons_self e r).filterMap _
      refine ⟨past, present, heq, ((hr.filterMap _).trans hsame).trans hnumbers,
        fun k hk _ => hidle k hk ?_⟩
      rintro ⟨rest, hhead⟩
      exact hturn ⟨k, rest, Option.some.inj hhead⟩

/-- A shutdown gets in line. -/
theorem Queued.shutsOff (h : Queued line asked log) (a : Agent) :
    Queued (line ++ [(a, .shutdown)]) asked log := by
  have hnumbers : numbers (line ++ [(a, .shutdown)]) = numbers line := by
    have hnone : numbers [(a, .shutdown)] = [] := by cases a <;> rfl
    rw [numbers_append, hnone, List.append_nil]
  obtain ⟨past, present, heq, hsub, hidle⟩ := h.order
  refine ⟨h.once, h.stray, h.part, fun k r b hmem => ?_, ⟨past, present, heq, ?_,
    fun k hk hno => hidle k hk fun ⟨r, hr⟩ => hno ⟨r, ?_⟩⟩, h.whole⟩
  · rcases List.mem_append.mp hmem with hmem | hmem
    · exact h.rest k r b hmem
    · cases List.mem_singleton.mp hmem
  · rwa [hnumbers]
  · rw [List.head?_append, hr]
    rfl

/-- A write gets in line. -/
theorem Queued.joins (h : Queued line asked log) (hnew : n ∉ lined log)
    (hask : asked[n]? = some (.write bytes)) :
    Queued (line ++ [(.call n, .write bytes false)]) asked (log ++ [.lines n]) := by
  have hlined : lined (log ++ [.lines n]) = lined log ++ [n] := lined_append
  have hby : ∀ k, handedBy (log ++ [.lines n]) k = handedBy log k := fun k => by
    rw [handedBy_append]
    exact List.append_nil _
  have hnone : handedBy log n = [] := h.stray n hnew
  obtain ⟨past, present, heq, hsub, hidle⟩ := h.order
  refine ⟨?_, fun k hk => ?_, fun k hk => ?_, fun k r b hmem => ?_, ⟨past, present ++ [n], ?_, ?_,
    fun k hk hno => ?_⟩, ?_⟩
  · rw [hlined, List.nodup_append]
    refine ⟨h.once, List.nodup_singleton n, fun a ha b hb hab => hnew ?_⟩
    rw [← List.mem_singleton.mp hb, ← hab]
    exact ha
  · rw [hlined, List.mem_append, not_or] at hk
    rw [hby, h.stray k hk.1]
  · rw [hlined] at hk
    rw [hby]
    rcases List.mem_append.mp hk with hk | hk
    · exact h.part k hk
    · obtain rfl := List.mem_singleton.mp hk
      exact ⟨bytes, hask, hnone ▸ List.nil_prefix⟩
  · rw [hby]
    rcases List.mem_append.mp hmem with hmem | hmem
    · exact h.rest k r b hmem
    · cases List.mem_singleton.mp hmem
      rw [hnone]
      exact hask
  · rw [hlined, heq, List.append_assoc]
  · rw [numbers_append]
    exact hsub.append (List.Sublist.refl _)
  · rw [hby]
    rcases List.mem_append.mp hk with hk | hk
    · refine hidle k hk fun ⟨r, hr⟩ => hno ⟨r, ?_⟩
      rw [List.head?_append, hr]
      rfl
    · rw [List.mem_singleton.mp hk, hnone]
  · rw [handed_append, hlined, List.flatMap_append, List.flatMap_singleton, h.whole, funext hby,
      hnone]
    rfl

/-- The turn of the first in line comes. -/
theorem Queued.turns (h : Queued ((.call n, .write rest false) :: others) asked log) :
    Queued ((.call n, .write rest true) :: others) asked log := by
  obtain ⟨past, present, heq, hsub, hidle⟩ := h.order
  refine ⟨h.once, h.stray, h.part, fun k r b hmem => ?_, ⟨past, present, heq, hsub,
    fun k hk _ => hidle k hk ?_⟩, h.whole⟩
  · rcases List.mem_cons.mp hmem with hhead | hmem
    · cases hhead
      exact h.rest n rest false List.mem_cons_self
    · exact h.rest k r b (List.mem_cons_of_mem _ hmem)
  · rintro ⟨r, hr⟩
    cases hr

/-- The last piece that there is grows. -/
theorem flatMap_grow {f g : ℕ → Bytes} {p q : List ℕ} {t : Bytes} (honce : (p ++ n :: q).Nodup)
    (hother : ∀ k ≠ n, g k = f k) (hself : g n = f n ++ t) (hq : ∀ k ∈ q, f k = []) :
    (p ++ n :: q).flatMap g = (p ++ n :: q).flatMap f ++ t := by
  obtain ⟨-, hnq, hp⟩ := List.nodup_append.mp honce
  have hnot : n ∉ q := (List.nodup_cons.mp hnq).1
  have hbefore : p.flatMap g = p.flatMap f :=
    List.flatMap_congr fun k hk => hother k (hp k hk n List.mem_cons_self)
  have hbehind : q.flatMap f = [] := List.flatMap_eq_nil_iff.mpr hq
  have hbehind' : q.flatMap g = [] := List.flatMap_eq_nil_iff.mpr fun k hk => by
    rw [hother k fun hkn => hnot (hkn ▸ hk), hq k hk]
  simp only [List.flatMap_append, List.flatMap_cons, hbefore, hself, hbehind, hbehind',
    List.append_nil, List.append_assoc]

/-- The first in line hands bytes over. -/
theorem Queued.hands (h : Queued ((.call n, .write rest true) :: others) asked log)
    (honce : ∀ w ∈ others, w.1 ≠ .call n) (j : ℕ) :
    Queued ((.call n, .write (rest.drop j) true) :: others) asked
      (log ++ [.hands n (rest.take j)]) := by
  have hlined : lined (log ++ [.hands n (rest.take j)]) = lined log :=
    lined_append.trans (List.append_nil _)
  have hother : ∀ k ≠ n, handedBy (log ++ [.hands n (rest.take j)]) k = handedBy log k := by
    intro k hk
    rw [handedBy_append, handedBy_hands, if_neg (Ne.symm hk), List.append_nil]
  have hself : handedBy (log ++ [.hands n (rest.take j)]) n = handedBy log n ++ rest.take j := by
    rw [handedBy_append, handedBy_hands, if_pos rfl]
  have hask := h.rest n rest true List.mem_cons_self
  obtain ⟨past, present, heq, hsub, hidle⟩ := h.order
  have hmem : n ∈ present := hsub.mem List.mem_cons_self
  have hidle' : ∀ k ∈ present, k ≠ n → handedBy log k = [] := by
    refine fun k hk hne => hidle k hk ?_
    rintro ⟨r, hr⟩
    obtain ⟨hn, -⟩ := Prod.mk.inj (Option.some.inj hr)
    exact hne (Agent.call.inj hn).symm
  refine ⟨hlined ▸ h.once, fun k hk => ?_, fun k hk => ?_, fun k r b hin => ?_,
    ⟨past, present, hlined.trans heq, hsub, fun k hk hno => ?_⟩, ?_⟩
  · rw [hlined] at hk
    have hne : k ≠ n := by
      rintro rfl
      exact hk (h.mem_lined List.mem_cons_self)
    rw [hother k hne, h.stray k hk]
  · rw [hlined] at hk
    by_cases hne : k = n
    · rw [hne, hself]
      refine ⟨_, hask, (List.prefix_append_right_inj _).mpr (List.take_prefix j rest)⟩
    · rw [hother k hne]
      exact h.part k hk
  · rcases List.mem_cons.mp hin with hhead | hbehind
    · cases hhead
      rw [hself, List.append_assoc, List.take_append_drop]
      exact hask
    · have hne : k ≠ n := by
        rintro rfl
        exact honce (.call k, .write r b) hbehind rfl
      rw [hother k hne]
      exact h.rest k r b (List.mem_cons_of_mem _ hbehind)
  · have hne : k ≠ n := by
      rintro rfl
      exact hno ⟨_, rfl⟩
    rw [hother k hne]
    exact hidle' k hk hne
  · obtain ⟨p, q, rfl⟩ := List.append_of_mem hmem
    have honce := h.once
    rw [heq, ← List.append_assoc] at honce
    have hq : ∀ k ∈ q, handedBy log k = [] := fun k hk => by
      refine hidle' k (List.mem_append_right _ (List.mem_cons_of_mem _ hk)) ?_
      rintro rfl
      exact (List.nodup_cons.mp (List.nodup_append.mp honce).2.1).1 hk
    have hall : handed (log ++ [.hands n (rest.take j)]) = handed log ++ rest.take j := by
      rw [handed_append]
      exact congrArg _ (List.append_nil _)
    rw [hall, hlined, h.whole, heq, ← List.append_assoc, flatMap_grow honce hother hself hq]

end Line

section Steps

variable {P D : Type} [Port P] {far : P → D → P} {s s' : LinkDesk (StreamLink P)}
  {asked : List Ask} {log new : List Note} {n : ℕ} {c c' : Call} {l : StreamLink P}

/-! ### What became of the writes -/

/-- The calls agree with the log: whoever got in line has begun, and a write that went well has
handed over all of its bytes. -/
structure Accounted (s : LinkDesk (StreamLink P)) (asked : List Ask) (log : List Note) : Prop where
  queued : Queued s.link.writers asked log
  begun : ∀ n ∈ lined log, ∀ ask, s.calls[n]? ≠ some (.issued ask)
  done : ∀ (n : ℕ) bytes a, asked[n]? = some (.write bytes) →
    s.calls[n]? = some (.ended (.ok a)) → n ∈ lined log ∧ handedBy log n = bytes

omit [Port P] in
/-- Nothing becomes of a write. -/
theorem Accounted.dull (h : Accounted s asked log) (hcalls : s'.calls = s.calls)
    (hwriters : s'.link.writers = s.link.writers) (hnew : ∀ note ∈ new, note.Dull) :
    Accounted s' asked (log ++ new) := by
  obtain ⟨hlined, hby, -⟩ := dull_append log hnew
  refine ⟨?_, fun n hn ask => ?_, fun n bytes a hask hc => ?_⟩
  · rw [hwriters]
    exact List.append_nil asked ▸ h.queued.dull hnew []
  · rw [hlined] at hn
    rw [hcalls]
    exact h.begun n hn ask
  · rw [hlined, hby]
    exact h.done n bytes a hask (hcalls ▸ hc)

omit [Port P] in
/-- A call comes to something. -/
theorem Accounted.put (h : Accounted s asked log) (hc : s.calls[n]? = some c)
    (hc' : ∀ ask, c' ≠ .issued ask) (hq : Queued l.writers asked (log ++ new))
    (hlined : ∀ k ≠ n, k ∈ lined (log ++ new) ↔ k ∈ lined log)
    (hby : ∀ k ≠ n, handedBy (log ++ new) k = handedBy log k)
    (hdone : ∀ bytes a, asked[n]? = some (.write bytes) → c' = .ended (.ok a) →
      n ∈ lined (log ++ new) ∧ handedBy (log ++ new) n = bytes) :
    Accounted (s.put n c' l) asked (log ++ new) := by
  have hcalls := getElem?_put hc c' l
  refine ⟨hq, fun k hk ask hissued => ?_, fun k bytes a hask hended => ?_⟩
  · rw [hcalls] at hissued
    split at hissued
    · exact hc' ask (Option.some.inj hissued)
    · rename_i hne
      exact h.begun k ((hlined k (Ne.symm hne)).mp hk) ask hissued
  · rw [hcalls] at hended
    split at hended
    · rename_i hn
      subst hn
      exact hdone bytes a hask (Option.some.inj hended)
    · rename_i hne
      rw [hlined k (Ne.symm hne), hby k (Ne.symm hne)]
      exact h.done k bytes a hask hended

omit [Port P] in
/-- A call comes to something that has to do with no write, or it is over without having gone
well. -/
theorem Accounted.put_dull (h : Accounted s asked log) (hc : s.calls[n]? = some c)
    (hc' : ∀ ask, c' ≠ .issued ask) (hnew : ∀ note ∈ new, note.Dull)
    (hq : Queued l.writers asked log)
    (hdone : ∀ bytes a, asked[n]? = some (.write bytes) → c' = .ended (.ok a) →
      n ∈ lined log ∧ handedBy log n = bytes) : Accounted (s.put n c' l) asked (log ++ new) := by
  obtain ⟨hlined, hby, -⟩ := dull_append log hnew
  refine h.put hc hc' (List.append_nil asked ▸ hq.dull hnew []) (fun k _ => by rw [hlined])
    (fun k _ => hby k) fun bytes a hask ha => ?_
  rw [hlined, hby]
  exact hdone bytes a hask ha

omit [Port P] in
/-- A call is issued. -/
theorem Accounted.issue (ha : Accounted s asked log) (h : s.Seated asked) (ask : Ask) :
    Accounted (s.issue ask) (asked ++ [ask]) (log ++ []) := by
  have hcalls := h.getElem?_issue ask
  rw [List.append_nil]
  refine ⟨?_, fun k hk ask' hissued => ?_, fun k bytes a hask hended => ?_⟩
  · exact List.append_nil log ▸ ha.queued.dull (List.forall_mem_nil _) [ask]
  · obtain ⟨bytes, hb, -⟩ := ha.queued.part k hk
    have hlt := (List.getElem?_eq_some_iff.mp hb).1
    rw [hcalls, if_neg (Nat.ne_of_lt hlt)] at hissued
    exact ha.begun k hk ask' hissued
  · obtain ⟨hask, hended⟩ := h.ended_issue hask hended
    exact ha.done k bytes a hask hended

/-- **What became of the writes agrees with the log.** -/
theorem Accounted.step (h : s.Seated asked) (ha : Accounted s asked log) {d : Doing D}
    (hs : Stirs far s d s' new) : Accounted s' (asked ++ asks [d]) (log ++ new) := by
  obtain ⟨ask, rfl, rfl, rfl⟩ | hnone := hs.issues_or
  · exact ha.issue h ask
  rw [hnone, List.append_nil]
  have hask : ∀ {n : ℕ} {ask : Ask} {bytes : Bytes}, s.calls[n]? = some (.underWay ask) →
      asked[n]? = some (.write bytes) → ask = .write bytes := fun hc hb =>
    Option.some.inj ((h.agrees _ _ (.inr hc)).symm.trans hb)
  have hqueued := ha.queued
  cases hs with
  | rests d quiet => exact ha.dull rfl rfl nofun
  | issues ask => cases hnone
  | below d p quiet port => exact ha.dull rfl rfl nofun
  | finishes half => exact ha.dull rfl rfl (by simp [Note.Dull])
  | closesIdle d h' quiet how isOpen idle => exact ha.dull rfl rfl (by simp [Note.Dull])
  | closesBusy d quiet how isOpen busy => exact ha.dull rfl rfl nofun
  | refused n ask call kind closed =>
    exact ha.put_dull call nofun nofun hqueued nofun
  | waits n call isOpen => exact ha.put_dull call nofun nofun hqueued nofun
  | lines n bytes call isOpen =>
    have hnew : n ∉ lined log := fun hn => ha.begun n hn _ call
    have hlined : lined (log ++ [.lines n]) = lined log ++ [n] := lined_append
    refine ha.put call nofun (hqueued.joins hnew (h.agrees n _ (.inl call))) (fun k hk => ?_)
      (fun k _ => handedBy_append.trans (List.append_nil _)) nofun
    rw [hlined, List.mem_append, List.mem_singleton, or_iff_left hk]
  | shutsOff n call =>
    exact ha.put_dull call nofun nofun (hqueued.shutsOff _) nofun
  | wavers flag => exact ha.dull rfl rfl nofun
  | interrupted n call flag => exact ha.put_dull call nofun nofun hqueued nofun
  | reads n p buffered result drawn call free port drawing =>
    refine ha.put_dull call nofun ?_ hqueued fun bytes a hb _ => ?_
    · rcases drawing with rfl | rfl <;> simp [Note.Dull]
    · cases hask call hb
  | turns n bytes rest others call line isOpen =>
    rw [line] at hqueued
    exact ha.put_dull call nofun nofun hqueued.turns nofun
  | late n bytes rest others half letGo call line closed how =>
    rw [line] at hqueued
    refine ha.put_dull call nofun ?_ (hqueued.leave (List.sublist_cons_self _ _)) nofun
    rcases how with ⟨-, -, rfl⟩ | ⟨-, -, rfl⟩ <;> simp [Note.Dull]
  | hands n bytes rest others p k call line port =>
    have honce := h.writers_once
    rw [line] at hqueued honce
    have hne : ∀ w ∈ others, w.1 ≠ .call n := fun w hw hwn =>
      (List.nodup_cons.mp honce).1 (List.mem_map.mpr ⟨w, hw, hwn⟩)
    have hlined : lined (log ++ [.hands n (rest.take k)]) = lined log :=
      lined_append.trans (List.append_nil _)
    refine ha.put call nofun (hqueued.hands hne k) (fun m _ => by rw [hlined])
      (fun m hm => ?_) nofun
    rw [handedBy_append, handedBy_hands, if_neg (Ne.symm hm), List.append_nil]
  | written n bytes others call line =>
    rw [line] at hqueued
    refine ha.put_dull call nofun nofun (hqueued.leave (List.sublist_cons_self _ _))
      fun bytes' a hb _ => ?_
    have hrest := hqueued.rest n [] true List.mem_cons_self
    rw [List.append_nil] at hrest
    refine ⟨hqueued.mem_lined List.mem_cons_self, ?_⟩
    cases (hrest.symm.trans hb)
    rfl
  | fails n bytes rest others p e call line port =>
    rw [line] at hqueued
    exact ha.put_dull call nofun nofun (hqueued.leave (List.sublist_cons_self _ _)) nofun
  | takes n others result call line held outcome =>
    rw [line] at hqueued
    refine ha.put_dull call nofun (by simp [Note.Dull])
      (hqueued.leave (List.sublist_cons_self _ _)) fun bytes a hb _ => ?_
    cases hask call hb
  | comesLate n others call line half =>
    rw [line] at hqueued
    refine ha.put_dull call nofun nofun
      (hqueued.leave (List.sublist_cons_self _ _)) fun bytes a hb _ => ?_
    cases hask call hb
  | quits n ask call => exact ha.put_dull call nofun nofun hqueued nofun
  | cancels n ask call =>
    exact ha.put_dull call nofun nofun (hqueued.leave List.filter_sublist) nofun

/-! ### What became of the write half -/

/-- The write half is taken out of the stream. -/
def Note.isTaking : Note → Bool
  | .takes _ => true
  | _ => false

/-- The write half is shut down. -/
def Note.isShutting : Note → Bool
  | .shuts _ => true
  | _ => false

/-- A half that was taken was taken once, and was shut down once at most. -/
structure Noted (half : StreamLink.Half) (log : List Note) : Prop where
  taken : log.countP Note.isTaking = if half = .held then 0 else 1
  shut : log.countP Note.isShutting ≤ if half = .gone then 1 else 0

/-- Nothing becomes of the half. -/
theorem Noted.idle {half : StreamLink.Half} (h : Noted half log)
    (hnew : new.countP Note.isTaking = 0 ∧ new.countP Note.isShutting = 0) :
    Noted half (log ++ new) := by
  refine ⟨?_, ?_⟩
  · rw [List.countP_append, hnew.1]
    exact h.taken
  · rw [List.countP_append, hnew.2]
    exact h.shut

/-- The half is let go, or dropped. -/
theorem Noted.lets (h : Noted .held log) {half : StreamLink.Half} (hhalf : half ≠ .held) :
    Noted half (log ++ [.takes none]) := by
  have htaken : log.countP Note.isTaking = 0 := h.taken
  have hshut : log.countP Note.isShutting = 0 := Nat.le_zero.mp h.shut
  refine ⟨?_, ?_⟩
  · rw [List.countP_append, htaken, if_neg hhalf]
    rfl
  · rw [List.countP_append, hshut]
    exact Nat.zero_le _

/-- The half that was let go is shut down in the background. -/
theorem Noted.shuts (h : Noted .releasing log) (r : Except IoFault Unit) :
    Noted .gone (log ++ [.shuts r]) := by
  have htaken : log.countP Note.isTaking = 1 := h.taken
  have hshut : log.countP Note.isShutting = 0 := Nat.le_zero.mp h.shut
  refine ⟨?_, ?_⟩
  · rw [List.countP_append, htaken]
    rfl
  · rw [List.countP_append, hshut]
    exact Nat.le_refl 1

/-- A shutdown takes the half. -/
theorem Noted.takes (h : Noted .held log) (n : ℕ) (r : Except IoFault Unit) :
    Noted .gone (log ++ [.takes (some n), .shuts r]) := by
  have htaken : log.countP Note.isTaking = 0 := h.taken
  have hshut : log.countP Note.isShutting = 0 := Nat.le_zero.mp h.shut
  refine ⟨?_, ?_⟩
  · rw [List.countP_append, htaken]
    rfl
  · rw [List.countP_append, hshut]
    exact Nat.le_refl 1

/-- The log has what became of the write half, and nobody writes to a half that was taken. A
shutdown answers once the half was taken. If it failed, it took the half itself, and the half could
not be shut down. -/
structure Custody (s : LinkDesk (StreamLink P)) (asked : List Ask) (log : List Note) : Prop where
  noted : Noted s.link.half log
  failed : ∀ (n : ℕ) e, asked[n]? = some .shutdown → s.calls[n]? = some (.ended (.error e)) →
    ∃ f, e = .io f ∧ .takes (some n) ∈ log ∧ .shuts (.error f) ∈ log
  busy : ∀ a rest, (a, .write rest true) ∈ s.link.writers → s.link.half = .held
  answered : ∀ (n : ℕ) r, asked[n]? = some .shutdown → s.calls[n]? = some (.ended r) →
    s.link.half ≠ .held

omit [Port P] in
/-- Something becomes of the half alone. -/
theorem Custody.link (h : Custody s asked log) (hnoted : Noted l.half (log ++ new))
    (hhalf : l.half = .held → s.link.half = .held)
    (hbusy : ∀ a rest, (a, .write rest true) ∈ l.writers → l.half = .held) :
    Custody { s with link := l } asked (log ++ new) := by
  refine ⟨hnoted, fun k e hk hended => ?_, hbusy, fun k r hk hr hheld =>
    h.answered k r hk hr (hhalf hheld)⟩
  obtain ⟨f, he, htook, hshut⟩ := h.failed k e hk hended
  exact ⟨f, he, List.mem_append_left _ htook, List.mem_append_left _ hshut⟩

omit [Port P] in
/-- A call comes to something. -/
theorem Custody.put (h : Custody s asked log) (hc : s.calls[n]? = some c)
    (hnoted : Noted l.half (log ++ new)) (hhalf : l.half = .held → s.link.half = .held)
    (hbusy : ∀ a rest, (a, .write rest true) ∈ l.writers → l.half = .held)
    (hended : ∀ r, c' = .ended r → asked[n]? = some .shutdown → l.half ≠ .held ∧
      ∀ e, r = .error e →
        ∃ f, e = .io f ∧ .takes (some n) ∈ log ++ new ∧ .shuts (.error f) ∈ log ++ new) :
    Custody (s.put n c' l) asked (log ++ new) := by
  have hcalls := getElem?_put hc c' l
  refine ⟨hnoted, fun k e hk hr => ?_, hbusy, fun k r hk hr => ?_⟩
  · rw [hcalls] at hr
    split at hr
    · rename_i hn
      subst hn
      exact (hended _ (Option.some.inj hr) hk).2 e rfl
    · obtain ⟨f, he, htook, hshut⟩ := h.failed k e hk hr
      exact ⟨f, he, List.mem_append_left _ htook, List.mem_append_left _ hshut⟩
  · rw [hcalls] at hr
    split at hr
    · rename_i hn
      subst hn
      exact (hended r (Option.some.inj hr) hk).1
    · exact fun hheld => h.answered k r hk hr (hhalf hheld)

omit [Port P] in
/-- A call is issued. -/
theorem Custody.issue (hk : Custody s asked log) (h : s.Seated asked) (ask : Ask) :
    Custody (s.issue ask) (asked ++ [ask]) (log ++ []) := by
  rw [List.append_nil]
  refine ⟨hk.noted, fun k e hb hr => ?_, hk.busy, fun k r hb hr => ?_⟩
  · obtain ⟨hb, hr⟩ := h.ended_issue hb hr
    exact hk.failed k e hb hr
  · obtain ⟨hb, hr⟩ := h.ended_issue hb hr
    exact hk.answered k r hb hr

/-- **What became of the write half agrees with the log.** -/
theorem Custody.step (h : s.Seated asked) (hk : Custody s asked log) {d : Doing D}
    (hs : Stirs far s d s' new) : Custody s' (asked ++ asks [d]) (log ++ new) := by
  obtain ⟨ask, rfl, rfl, rfl⟩ | hnone := hs.issues_or
  · exact hk.issue h ask
  rw [hnone, List.append_nil]
  have hask : ∀ {n : ℕ} {ask : Ask}, s.calls[n]? = some (.issued ask) ∨
      s.calls[n]? = some (.underWay ask) → asked[n]? = some .shutdown → ask = .shutdown :=
    fun hc hb => Option.some.inj ((h.agrees _ _ hc).symm.trans hb)
  -- the turn of those behind the first has not come
  have hothers : ∀ {e others}, s.link.writers = e :: others → ∀ a rest,
      (a, StreamLink.Job.write rest true) ∉ others := fun line a rest hmem =>
    absurd (h.behind a rest true (by rw [line]; exact hmem)) nofun
  have hidle : ∀ {new : List Note}, new.countP Note.isTaking = 0 ∧
      new.countP Note.isShutting = 0 → Noted s.link.half (log ++ new) := hk.noted.idle
  cases hs with
  | rests d quiet => exact hk.link (hidle ⟨rfl, rfl⟩) id hk.busy
  | issues ask => cases hnone
  | below d p quiet port => exact hk.link (hidle ⟨rfl, rfl⟩) id hk.busy
  | finishes half =>
    refine hk.link ((half ▸ hk.noted).shuts _) nofun fun a rest ha => ?_
    have hheld := hk.busy a rest ha
    rw [half] at hheld
    cases hheld
  | closesIdle d h' quiet how isOpen idle =>
    have hgone : h' ≠ .held := by
      rcases how with ⟨-, rfl⟩ | ⟨-, rfl⟩ <;> nofun
    refine hk.link ((h.held isOpen ▸ hk.noted).lets hgone)
      (fun hh => absurd hh hgone) fun a rest ha => ?_
    have hmem : (a, StreamLink.Job.write rest true) ∈ s.link.writers := ha
    rw [idle] at hmem
    cases hmem
  | closesBusy d quiet how isOpen busy => exact hk.link (hidle ⟨rfl, rfl⟩) id hk.busy
  | refused n ask call kind closed =>
    exact hk.put call (hidle ⟨rfl, rfl⟩) id hk.busy fun _ _ hb =>
      absurd (hask (.inl call) hb) kind
  | waits n call isOpen => exact hk.put call (hidle ⟨rfl, rfl⟩) id hk.busy nofun
  | lines n bytes call isOpen =>
    refine hk.put call (hidle ⟨rfl, rfl⟩) id (fun a rest hmem => ?_) nofun
    rcases List.mem_append.mp hmem with hmem | hmem
    · exact hk.busy a rest hmem
    · cases List.mem_singleton.mp hmem
  | shutsOff n call =>
    refine hk.put call (hidle ⟨rfl, rfl⟩) id (fun a rest hmem => ?_) nofun
    rcases List.mem_append.mp hmem with hmem | hmem
    · exact hk.busy a rest hmem
    · cases List.mem_singleton.mp hmem
  | wavers flag => exact hk.link (hidle ⟨rfl, rfl⟩) id hk.busy
  | interrupted n call flag =>
    exact hk.put call (hidle ⟨rfl, rfl⟩) id hk.busy fun _ _ hb =>
      absurd (hask (.inr call) hb) nofun
  | reads n p buffered result drawn call free port drawing =>
    refine hk.put call (hidle ?_) id hk.busy fun _ _ hb => absurd (hask (.inr call) hb) nofun
    rcases drawing with rfl | rfl <;> exact ⟨rfl, rfl⟩
  | turns n bytes rest others call line isOpen =>
    exact hk.put call (hidle ⟨rfl, rfl⟩) id (fun _ _ _ => h.held isOpen) nofun
  | late n bytes rest others half letGo call line closed how =>
    have hno : asked[n]? ≠ some .shutdown := fun hb => absurd (hask (.inr call) hb) nofun
    rcases how with ⟨hheld, rfl, rfl⟩ | ⟨-, rfl, rfl⟩
    · exact hk.put call ((hheld ▸ hk.noted).lets nofun) nofun
        (fun a rest hmem => absurd hmem (hothers line a rest)) fun _ _ hb => absurd hb hno
    · exact hk.put call (hidle ⟨rfl, rfl⟩) id
        (fun a rest hmem => absurd hmem (hothers line a rest)) fun _ _ hb => absurd hb hno
  | hands n bytes rest others p k call line port =>
    have hheld := hk.busy (.call n) rest (line ▸ List.mem_cons_self)
    exact hk.put call (hidle ⟨rfl, rfl⟩) id (fun _ _ _ => hheld) nofun
  | written n bytes others call line =>
    exact hk.put call (hidle ⟨rfl, rfl⟩) id
      (fun a rest hmem => absurd hmem (hothers line a rest))
      fun _ _ hb => absurd (hask (.inr call) hb) nofun
  | fails n bytes rest others p e call line port =>
    exact hk.put call (hidle ⟨rfl, rfl⟩) id
      (fun a rest hmem => absurd hmem (hothers line a rest))
      fun _ _ hb => absurd (hask (.inr call) hb) nofun
  | takes n others result call line held outcome =>
    refine hk.put call ((held ▸ hk.noted).takes n _) nofun
      (fun a rest hmem => absurd hmem (hothers line a rest)) fun r hr _ => ⟨nofun, fun e he => ?_⟩
    obtain ⟨f, hf, rfl⟩ := outcome e ((Call.ended.inj hr).trans he)
    exact ⟨f, rfl, by simp, by simp [hf]⟩
  | comesLate n others call line half =>
    exact hk.put call (hidle ⟨rfl, rfl⟩) id
      (fun a rest hmem => absurd hmem (hothers line a rest))
      fun r hr _ => ⟨half, fun e he => nomatch (Call.ended.inj hr).trans he⟩
  | quits n ask call => exact hk.put call (hidle ⟨rfl, rfl⟩) id hk.busy nofun
  | cancels n ask call =>
    exact hk.put call (hidle ⟨rfl, rfl⟩) id
      (fun a rest hmem => hk.busy a rest (List.mem_filter.mp hmem).1) nofun

/-! ### Since the stream was closed -/

/-- What has happened since the stream was closed: no read or write got in line, no read has
taken a byte but those that waited for one, no write whose turn had not come has handed over
any, and all that the others answer is that the stream is closed. -/
structure Latched (s s' : LinkDesk (StreamLink P)) (asked : List Ask) (new : List Note) : Prop where
  closed : s'.link.isClosed = true
  buffered : (∀ n : ℕ, s.calls[n]? ≠ some (.underWay .read)) → s'.link.buffered = s.link.buffered
  starts : ∀ (n : ℕ) ask, ask ≠ .shutdown → s.calls[n]? ≠ some (.underWay ask) →
    s'.calls[n]? ≠ some (.underWay ask)
  drawn : ∀ n : ℕ, s.calls[n]? ≠ some (.underWay .read) → .draws n ∉ new
  turnless : ∀ n, (∀ rest, (.call n, .write rest true) ∉ s.link.writers) →
    (∀ rest, (.call n, .write rest true) ∉ s'.link.writers) ∧ ∀ bytes, .hands n bytes ∉ new
  reads : ∀ (n : ℕ) r, asked[n]? = some .read → (∀ r, s.calls[n]? ≠ some (.ended r)) →
    s.calls[n]? ≠ some (.underWay .read) → s'.calls[n]? = some (.ended r) → r = .error .closed
  writes : ∀ (n : ℕ) bytes r, asked[n]? = some (.write bytes) →
    (∀ r, s.calls[n]? ≠ some (.ended r)) → (∀ rest, (.call n, .write rest true) ∉ s.link.writers) →
    s'.calls[n]? = some (.ended r) → r = .error .closed

variable {t : LinkDesk (StreamLink P)}

omit [Port P] in
/-- Nothing becomes of a call. -/
theorem Latched.link (h : Latched t s asked log) (hclosed : l.isClosed = true)
    (hbuffered : l.buffered = s.link.buffered) (hwriters : l.writers = s.link.writers)
    (hnew : ∀ n bytes, .draws n ∉ new ∧ .hands n bytes ∉ new) :
    Latched t { s with link := l } asked (log ++ new) := by
  refine ⟨hclosed, fun hn => hbuffered.trans (h.buffered hn), h.starts, fun n hw hn => ?_,
    fun n hn => ?_, h.reads, h.writes⟩
  · exact (List.mem_append.mp hn).elim (h.drawn n hw) (hnew n []).1
  · obtain ⟨hturn, hhands⟩ := h.turnless n hn
    refine ⟨hwriters ▸ hturn, fun bytes hb => ?_⟩
    exact (List.mem_append.mp hb).elim (hhands bytes) (hnew n bytes).2

omit [Port P] in
/-- A call comes to something. -/
theorem Latched.put (h : Latched t s asked log) (hc : s.calls[n]? = some c)
    (hclosed : l.isClosed = true)
    (hbuffered : l.buffered = s.link.buffered ∨ t.calls[n]? = some (.underWay .read))
    (hstarts : ∀ ask, c' = .underWay ask → ask = .shutdown ∨ c = c')
    (hturns : ∀ k rest, (.call k, .write rest true) ∈ l.writers →
      ∃ rest, (.call k, .write rest true) ∈ s.link.writers)
    (hdrawn : ∀ k : ℕ, .draws k ∈ new → t.calls[k]? = some (.underWay .read))
    (hhands : ∀ k bytes, .hands k bytes ∈ new →
      ∃ rest, (.call k, .write rest true) ∈ s.link.writers)
    (hended : ∀ r, c' = .ended r → r = .error .closed ∨
      asked[n]? = some .read ∧ t.calls[n]? = some (.underWay .read) ∨ asked[n]? = some .shutdown ∨
      (∃ bytes, asked[n]? = some (.write bytes)) ∧
        ∃ rest, (.call n, .write rest true) ∈ s.link.writers) :
    Latched t (s.put n c' l) asked (log ++ new) := by
  have hcalls := getElem?_put hc c' l
  have hturnless : ∀ k, (∀ rest, (.call k, .write rest true) ∉ t.link.writers) →
      ∀ rest, (.call k, .write rest true) ∉ s.link.writers := fun k hk => (h.turnless k hk).1
  refine ⟨hclosed, fun hnone => ?_, fun k ask hask hold => ?_, fun k hwait hk => ?_,
    fun k hk => ⟨fun rest hmem => ?_, fun bytes hb => ?_⟩, fun k r hb hold hwait hk => ?_,
    fun k bytes r hb hold hturn hk => ?_⟩
  · exact (hbuffered.resolve_right (hnone n)).trans (h.buffered hnone)
  · rw [hcalls]
    split
    · rename_i hn
      subst hn
      intro hway
      obtain rfl := Option.some.inj hway
      rcases hstarts ask rfl with rfl | rfl
      · exact hask rfl
      · exact h.starts n ask hask hold hc
    · exact h.starts k ask hask hold
  · exact (List.mem_append.mp hk).elim (h.drawn k hwait) fun hk => hwait (hdrawn k hk)
  · obtain ⟨rest', hrest⟩ := hturns k rest hmem
    exact hturnless k hk rest' hrest
  · rcases List.mem_append.mp hb with hb | hb
    · exact (h.turnless k hk).2 bytes hb
    · obtain ⟨rest, hrest⟩ := hhands k bytes hb
      exact hturnless k hk rest hrest
  · rw [hcalls] at hk
    split at hk
    · rename_i hn
      subst hn
      rcases hended r (Option.some.inj hk) with hr | ⟨-, hw⟩ | hs | ⟨⟨bytes, hw⟩, -⟩
      · exact hr
      · exact absurd hw hwait
      · cases hb.symm.trans hs
      · cases hb.symm.trans hw
    · exact h.reads k r hb hold hwait hk
  · rw [hcalls] at hk
    split at hk
    · rename_i hn
      subst hn
      rcases hended r (Option.some.inj hk) with hr | ⟨hs, -⟩ | hs | ⟨-, rest, hrest⟩
      · exact hr
      · cases hb.symm.trans hs
      · cases hb.symm.trans hs
      · exact absurd hrest (hturnless n hturn rest)
    · exact h.writes k bytes r hb hold hturn hk

omit [Port P] in
/-- A call is issued. -/
theorem Latched.issue (hl : Latched t s asked log) (h : s.Seated asked) (ask : Ask) :
    Latched t (s.issue ask) (asked ++ [ask]) (log ++ []) := by
  rw [List.append_nil]
  refine ⟨hl.closed, hl.buffered, fun k ask' hask' hold => ?_, hl.drawn, hl.turnless,
    fun k r hk hold hwait hr => ?_, fun k bytes r hk hold hturn hr => ?_⟩
  · rw [h.getElem?_issue]
    split
    · nofun
    · exact hl.starts k ask' hask' hold
  · obtain ⟨hask, hr⟩ := h.ended_issue hk hr
    exact hl.reads k r hask hold hwait hr
  · obtain ⟨hask, hr⟩ := h.ended_issue hk hr
    exact hl.writes k bytes r hask hold hturn hr

/-- **Since the stream was closed nothing but that comes of what was not under way.** -/
theorem Latched.step (h : s.Seated asked) (hl : Latched t s asked log) {d : Doing D}
    (hs : Stirs far s d s' new) : Latched t s' (asked ++ asks [d]) (log ++ new) := by
  obtain ⟨ask, rfl, rfl, rfl⟩ | hnone := hs.issues_or
  · exact hl.issue h ask
  rw [hnone, List.append_nil]
  have hclosed := hl.closed
  have hopen : s.link.isClosed ≠ false := by
    rw [hclosed]
    nofun
  have hturns : ∀ {others : List (Agent × StreamLink.Job)}, (∀ w ∈ others, w ∈ s.link.writers) →
      ∀ k rest, (Agent.call k, StreamLink.Job.write rest true) ∈ others →
        ∃ rest, (Agent.call k, StreamLink.Job.write rest true) ∈ s.link.writers :=
    fun hsub k rest hmem => ⟨rest, hsub _ hmem⟩
  have htail : ∀ {e others}, s.link.writers = e :: others → ∀ w ∈ others, w ∈ s.link.writers :=
    fun line w hw => line ▸ List.mem_cons_of_mem _ hw
  cases hs with
  | rests d quiet => exact hl.link hclosed rfl rfl fun _ _ => ⟨nofun, nofun⟩
  | issues ask => cases hnone
  | below d p quiet port => exact hl.link hclosed rfl rfl fun _ _ => ⟨nofun, nofun⟩
  | finishes half => exact hl.link hclosed rfl rfl (by simp)
  | closesIdle d h' quiet how isOpen idle => exact absurd isOpen hopen
  | closesBusy d quiet how isOpen busy => exact absurd isOpen hopen
  | refused n ask call kind closed =>
    refine hl.put call hclosed (.inl rfl) nofun (hturns fun _ => id) nofun nofun fun r hr => .inl ?_
    exact (Call.ended.inj hr).symm
  | waits n call isOpen => exact absurd isOpen hopen
  | lines n bytes call isOpen => exact absurd isOpen hopen
  | shutsOff n call =>
    refine hl.put call rfl (.inl rfl) (fun _ h => .inl (Call.underWay.inj h).symm)
      (fun k rest hmem => ⟨rest, ?_⟩) nofun nofun nofun
    rcases List.mem_append.mp hmem with hmem | hmem
    · exact hmem
    · cases List.mem_singleton.mp hmem
  | wavers flag => exact hl.link hclosed rfl rfl fun _ _ => ⟨nofun, nofun⟩
  | interrupted n call closed =>
    refine hl.put call hclosed (.inl rfl) nofun (hturns fun _ => id) nofun nofun fun r hr => .inl ?_
    exact (Call.ended.inj hr).symm
  | reads n p buffered result drawn call free port drawing =>
    -- a read that is under way now was under way then
    have hwaited : t.calls[n]? = some (.underWay .read) :=
      not_imp_not.mp (hl.starts n .read nofun) call
    refine hl.put call hclosed (.inr hwaited) nofun (hturns fun _ => id) (fun k hk => ?_) ?_
      fun r _ => .inr (.inl ⟨h.agrees n _ (.inr call), hwaited⟩)
    · rcases drawing with rfl | rfl
      · cases hk
      · cases List.mem_singleton.mp hk
        exact hwaited
    · rcases drawing with rfl | rfl <;> simp
  | turns n bytes rest others call line isOpen => exact absurd isOpen hopen
  | late n bytes rest others half letGo call line closed how =>
    refine hl.put call hclosed (.inl rfl) nofun (hturns (htail line)) ?_ ?_ fun r hr => .inl ?_
    · rcases how with ⟨-, -, rfl⟩ | ⟨-, -, rfl⟩ <;> simp
    · rcases how with ⟨-, -, rfl⟩ | ⟨-, -, rfl⟩ <;> simp
    · exact (Call.ended.inj hr).symm
  | hands n bytes rest others p k call line port =>
    have hmem : (.call n, .write rest true) ∈ s.link.writers := line ▸ List.mem_cons_self
    refine hl.put call hclosed (.inl rfl) (fun _ _ => .inr rfl) (fun j rest' hj => ?_) (by simp)
      (fun j b hb => ?_) nofun
    · rcases List.mem_cons.mp hj with hhead | hj
      · cases hhead
        exact ⟨rest, hmem⟩
      · exact ⟨rest', htail line _ hj⟩
    · cases List.mem_singleton.mp hb
      exact ⟨rest, hmem⟩
  | written n bytes others call line =>
    exact hl.put call hclosed (.inl rfl) nofun (hturns (htail line)) nofun nofun fun r _ =>
      .inr (.inr (.inr ⟨⟨bytes, h.agrees n _ (.inr call)⟩, [], line ▸ List.mem_cons_self⟩))
  | fails n bytes rest others p e call line port =>
    exact hl.put call hclosed (.inl rfl) nofun (hturns (htail line)) nofun nofun fun r _ =>
      .inr (.inr (.inr ⟨⟨bytes, h.agrees n _ (.inr call)⟩, rest, line ▸ List.mem_cons_self⟩))
  | takes n others result call line held outcome =>
    exact hl.put call hclosed (.inl rfl) nofun (hturns (htail line)) (by simp) (by simp) fun r _ =>
      .inr (.inr (.inl (h.agrees n _ (.inr call))))
  | comesLate n others call line half =>
    exact hl.put call hclosed (.inl rfl) nofun (hturns (htail line)) nofun nofun fun r _ =>
      .inr (.inr (.inl (h.agrees n _ (.inr call))))
  | quits n ask call =>
    exact hl.put call hclosed (.inl rfl) nofun (hturns fun _ => id) nofun nofun nofun
  | cancels n ask call =>
    exact hl.put call hclosed (.inl rfl) nofun
      (hturns fun w hw => (List.mem_filter.mp hw).1) nofun nofun nofun

/-! ### Reads that waited -/

/-- What has happened since the write half was taken out of the stream: it was not taken again,
and no shutdown failed. -/
structure Spent (s s' : LinkDesk (StreamLink P)) (asked : List Ask) (new : List Note) : Prop where
  half : s'.link.half ≠ .held
  taken : ∀ who, .takes who ∉ new
  shutdowns : ∀ (n : ℕ) r, asked[n]? = some .shutdown → (∀ r, s.calls[n]? ≠ some (.ended r)) →
    s'.calls[n]? = some (.ended r) → r = .ok .done

omit [Port P] in
/-- Nothing becomes of a call. -/
theorem Spent.link (h : Spent t s asked log) (hhalf : l.half ≠ .held)
    (hnew : ∀ who, .takes who ∉ new) : Spent t { s with link := l } asked (log ++ new) :=
  ⟨hhalf, fun who hmem => (List.mem_append.mp hmem).elim (h.taken who) (hnew who), h.shutdowns⟩

omit [Port P] in
/-- A call comes to something. -/
theorem Spent.put (h : Spent t s asked log) (hc : s.calls[n]? = some c) (hhalf : l.half ≠ .held)
    (hnew : ∀ who, .takes who ∉ new)
    (hended : ∀ r, c' = .ended r → r = .ok .done ∨ asked[n]? ≠ some .shutdown) :
    Spent t (s.put n c' l) asked (log ++ new) := by
  have hcalls := getElem?_put hc c' l
  refine ⟨hhalf, fun who hmem => ?_, fun k r hb hold hk => ?_⟩
  · exact (List.mem_append.mp hmem).elim (h.taken who) (hnew who)
  · rw [hcalls] at hk
    split at hk
    · rename_i hn
      subst hn
      exact (hended r (Option.some.inj hk)).resolve_right (not_not_intro hb)
    · exact h.shutdowns k r hb hold hk

omit [Port P] in
/-- A call is issued. -/
theorem Spent.issue (hp : Spent t s asked log) (h : s.Seated asked) (ask : Ask) :
    Spent t (s.issue ask) (asked ++ [ask]) (log ++ []) := by
  rw [List.append_nil]
  refine ⟨hp.half, hp.taken, fun k r hk hold hr => ?_⟩
  obtain ⟨hk, hr⟩ := h.ended_issue hk hr
  exact hp.shutdowns k r hk hold hr

/-- **A half that was taken is not taken again.** -/
theorem Spent.step (h : s.Seated asked) (hp : Spent t s asked log) {d : Doing D}
    (hs : Stirs far s d s' new) : Spent t s' (asked ++ asks [d]) (log ++ new) := by
  obtain ⟨ask, rfl, rfl, rfl⟩ | hnone := hs.issues_or
  · exact hp.issue h ask
  rw [hnone, List.append_nil]
  have hhalf := hp.half
  have hother : ∀ {n : ℕ} {ask : Ask}, s.calls[n]? = some (.issued ask) ∨
      s.calls[n]? = some (.underWay ask) → ask ≠ .shutdown → asked[n]? ≠ some .shutdown :=
    fun hc hne hb => hne (Option.some.inj ((h.agrees _ _ hc).symm.trans hb))
  cases hs with
  | rests d quiet => exact hp.link hhalf nofun
  | issues ask => cases hnone
  | below d p quiet port => exact hp.link hhalf nofun
  | finishes half => exact hp.link nofun (by simp)
  | closesIdle d h' quiet how isOpen idle => exact absurd (h.held isOpen) hhalf
  | closesBusy d quiet how isOpen busy => exact absurd (h.held isOpen) hhalf
  | refused n ask call kind closed =>
    exact hp.put call hhalf nofun fun _ _ => .inr (hother (.inl call) kind)
  | waits n call isOpen => exact absurd (h.held isOpen) hhalf
  | lines n bytes call isOpen => exact absurd (h.held isOpen) hhalf
  | shutsOff n call => exact hp.put call hhalf nofun nofun
  | wavers flag => exact hp.link hhalf nofun
  | interrupted n call flag =>
    exact hp.put call hhalf nofun fun _ _ => .inr (hother (.inr call) nofun)
  | reads n p buffered result drawn call free port drawing =>
    refine hp.put call hhalf ?_ fun _ _ => .inr (hother (.inr call) nofun)
    rcases drawing with rfl | rfl <;> simp
  | turns n bytes rest others call line isOpen => exact absurd (h.held isOpen) hhalf
  | late n bytes rest others half letGo call line closed how =>
    rcases how with ⟨hheld, -, -⟩ | ⟨-, rfl, rfl⟩
    · exact absurd hheld hhalf
    · exact hp.put call hhalf nofun fun _ _ => .inr (hother (.inr call) nofun)
  | hands n bytes rest others p k call line port =>
    exact hp.put call hhalf (by simp) nofun
  | written n bytes others call line =>
    exact hp.put call hhalf nofun fun _ hr => .inl (Call.ended.inj hr).symm
  | fails n bytes rest others p e call line port =>
    exact hp.put call hhalf nofun fun _ _ => .inr (hother (.inr call) nofun)
  | takes n others result call line held outcome => exact absurd held hhalf
  | comesLate n others call line half =>
    exact hp.put call hhalf nofun fun _ hr => .inl (Call.ended.inj hr).symm
  | quits n ask call => exact hp.put call hhalf nofun nofun
  | cancels n ask call => exact hp.put call hhalf nofun nofun

/-! ### At rest -/

/-- Call `n` is over: it was given up, or it has answered. -/
def Over (s : LinkDesk (StreamLink P)) (n : ℕ) : Prop :=
  s.calls[n]? = some .aborted ∨ ∃ r, s.calls[n]? = some (.ended r)

omit [Port P] in
theorem custody_onPort (p : P) : Custody (onPort p) [] [] where
  noted := ⟨rfl, Nat.le_refl 0⟩
  failed _ _ := nofun
  busy _ _ := nofun
  answered _ _ := nofun

omit [Port P] in
theorem spent_refl (hhalf : s.link.half ≠ .held) : Spent s s asked [] where
  half := hhalf
  taken _ := nofun
  shutdowns _ r _ hold hr := absurd hr (hold r)

end Steps

end ProbeLink.LinkDesk
