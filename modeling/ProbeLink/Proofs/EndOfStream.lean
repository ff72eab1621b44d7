/-
# When the far end sees the end of a stream

A close lets the write half go if nobody is in line for it. Otherwise whoever is in line is to
let it go, and that is done by those whose turn comes after the close: a shutdown takes the
half, and a write finds the stream closed and lets it go. A write whose turn came before the
close does not look at the flag again. So the half is let go unless all those who were in line
behind such a write have been given up (`LinkDesk.Awaits`, `LinkDesk.Missed`); and a half that
was missed stays where it is until a shutdown comes (`LinkDesk.Stranded`).

Whatever the half was handed is in the pipe or has reached the far end, and once the half is
gone the far end reads all of it and then the end of the stream (`LinkDesk.Piped`).

Key definitions: `LinkDesk.Awaits`, `LinkDesk.Missed`, `LinkDesk.Piped`, `LinkDesk.Stranded`.
Key theorems: `LinkDesk.Stirs.port`, `LinkDesk.Awaits.step`, `LinkDesk.ends_after_close`.
-/
import ProbeLink.Proofs.Latching
import ProbeLink.Proofs.Places

namespace ProbeLink

/-! ### What becomes of the pipe -/

namespace Pipe

variable {p p' : Pipe} {now : Bytes}

/-- One pipe leads to another while its write half is there: the write half puts bytes in it, and
the far end does not see an end that did not come. -/
structure Leads (p p' : Pipe) (now : Bytes) : Prop where
  taken : Port.taken p' = Port.taken p ++ now
  ended : p'.outboundEnded = p.outboundEnded
  saw : p'.sawEnd = true → p.sawEnd = true ∨ p.outboundEnded = true

/-- Nothing that the near end wrote changes. -/
theorem Leads.quiet (htaken : Port.taken p' = Port.taken p)
    (hended : p'.outboundEnded = p.outboundEnded)
    (hsaw : p'.sawEnd = true → p.sawEnd = true ∨ p.outboundEnded = true) : Leads p p' [] :=
  ⟨htaken.trans (List.append_nil _).symm, hended, hsaw⟩

theorem leads_refl (p : Pipe) : Leads p p [] := .quiet rfl rfl .inl

theorem leads_does (p : Pipe) (d : Doing) : Leads p (p.does d) [] := by
  refine .quiet (taken_does p d).1 ?_ ?_
  all_goals
    cases d with
    | offer bytes =>
      simp only [does, offer]
      split <;> first | rfl | exact .inl
    | read most =>
      simp only [does, readMost]
      split <;> first | rfl | exact .inl
    | stall | resume | hangUp | endStream => first | rfl | exact .inl

theorem leads_helperMove (p : Pipe) (a : Agent) : Leads p (Port.helperMove p a) [] := by
  refine .quiet (taken_helperMove p a).1 ?_ ?_
  all_goals
    cases a with
    | farWriter =>
      simp only [Port.helperMove, farWrite]
      split <;> first | rfl | exact .inl
    | farReader => first | rfl | exact .inr
    | reader | call n | release | porter | chance => first | rfl | exact .inl

theorem leads_read (p : Pipe) : Leads p (Port.read p).1 [] := .quiet rfl rfl .inl

/-- A write puts the bytes in that it says. -/
theorem leads_write {rest : Bytes} {k : ℕ} (h : Port.write p rest = (p', .ok k)) :
    Leads p p' (rest.take k) := by
  simp only [Port.write, write] at h
  split at h
  · cases h
  · obtain ⟨rfl, hk⟩ := Prod.mk.inj h
    obtain rfl := Except.ok.inj hk
    have hroom : rest.take (rest.take (p.capacity - p.outbound.length)).length
        = rest.take (p.capacity - p.outbound.length) := by
      rw [List.length_take, List.take_eq_take_iff]
      omega
    rw [hroom]
    exact ⟨(List.append_assoc _ _ _).symm, rfl, .inl⟩

/-- A write that fails puts nothing in. -/
theorem leads_write_error {rest : Bytes} {e : IoFault} (h : Port.write p rest = (p', .error e)) :
    Leads p p' [] := by
  simp only [Port.write, write] at h
  split at h
  · obtain ⟨rfl, -⟩ := Prod.mk.inj h
    exact leads_refl p
  · cases h

/-- A far end that is there and does not stall has read all there is once it cannot read any
more. -/
theorem read_out (hread : p.farCanRead = false) (hgone : p.gone = false)
    (hstalled : p.stalled = false) (hended : p.outboundEnded = true) :
    p.sawEnd = true ∧ p.outbound = [] := by
  simpa [farCanRead, hgone, hstalled, hended, and_comm] using hread

/-- A far end that reads on gets all there is, and then the end. -/
theorem farRead_out (hgone : p.gone = false) (hended : p.outboundEnded = true) :
    let q := if p.resume.farCanRead then p.resume.farRead else p.resume
    q.sawEnd = true ∧ q.outbound = [] ∧ q.received = Port.taken p := by
  intro q
  have htaken : Port.taken q = Port.taken p := by
    unfold q
    split
    · exact List.append_nil _
    · rfl
  have hq : q.sawEnd = true ∧ q.outbound = [] := by
    unfold q
    split
    · exact ⟨hended, rfl⟩
    · rename_i hread
      exact read_out (Bool.eq_false_iff.mpr hread) hgone rfl hended
  refine ⟨hq.1, hq.2, ?_⟩
  rw [← htaken]
  show q.received = q.received ++ q.outbound
  rw [hq.2, List.append_nil]

end Pipe

namespace LinkDesk

/-! ### Who is to let the half go -/

section Steps

variable {P D : Type} [Port P] {far : P → D → P} {s s' u : LinkDesk (StreamLink P)}
  {asked : List Ask} {log new : List Note} {n : ℕ} {l : StreamLink P} {c c' : Call}

/-- Since the stream was closed, at `u`, the half was let go, or everybody who was in line then
and whose turn had not come is still in line or was given up. -/
structure Awaits (u s : LinkDesk (StreamLink P)) : Prop where
  closed : s.link.isClosed = true
  waiting : s.link.half = .held → ∀ n job, (.call n, job) ∈ u.link.writers →
    (∀ rest, job ≠ .write rest true) →
    (.call n, job) ∈ s.link.writers ∨ s.calls[n]? = some .aborted

omit [Port P] in
theorem awaits_refl (hclosed : s.link.isClosed = true) : Awaits s s :=
  ⟨hclosed, fun _ _ _ hmem _ => .inl hmem⟩

omit [Port P] in
/-- A call comes to something. -/
theorem Awaits.put (h : Awaits u s) (hc : s.calls[n]? = some c) (hlive : c ≠ .aborted)
    (hclosed : l.isClosed = true) (hhalf : l.half = .held → s.link.half = .held)
    (hline : l.half = .held → ∀ k job, (.call k, job) ∈ s.link.writers →
      (∀ rest, job ≠ .write rest true) → (.call k, job) ∈ l.writers ∨ k = n ∧ c' = .aborted) :
    Awaits u (s.put n c' l) := by
  have hcalls := getElem?_put hc c' l
  refine ⟨hclosed, fun hheld k job hmem hjob => ?_⟩
  rcases h.waiting (hhalf hheld) k job hmem hjob with hin | hout
  · refine (hline hheld k job hin hjob).imp_right ?_
    rintro ⟨rfl, rfl⟩
    rw [hcalls, if_pos rfl]
  · have hne : n ≠ k := by
      rintro rfl
      exact hlive (Option.some.inj (hc.symm.trans hout))
    rw [hcalls, if_neg hne]
    exact .inr hout

/-- **Whoever comes to its turn on a closed stream lets the half go.** -/
theorem Awaits.step (h : s.Seated asked) (hw : Awaits u s) {d : Doing D}
    (hs : Stirs far s d s' new) : Awaits u s' := by
  have hclosed := hw.closed
  have hopen : s.link.isClosed ≠ false := by
    rw [hclosed]
    nofun
  have hstay : ∀ {n : ℕ} {c' : Call}, s.link.half = .held → ∀ k job,
      (Agent.call k, job) ∈ s.link.writers → (∀ rest, job ≠ .write rest true) →
      (Agent.call k, job) ∈ s.link.writers ∨ k = n ∧ c' = .aborted := fun _ _ _ hmem _ => .inl hmem
  -- the first in line has had its turn
  have hothers : ∀ {n m : ℕ} {c' : Call} {rest others}, s.link.writers
      = (.call m, .write rest true) :: others → s.link.half = .held → ∀ k job,
      (Agent.call k, job) ∈ s.link.writers → (∀ rest, job ≠ .write rest true) →
      (Agent.call k, job) ∈ others ∨ k = n ∧ c' = .aborted := by
    intro n m c' rest others line _ k job hmem hjob
    rw [line] at hmem
    rcases List.mem_cons.mp hmem with hhead | hmem
    · exact absurd (Prod.mk.inj hhead).2 (hjob rest)
    · exact .inl hmem
  cases hs with
  | rests d quiet => exact hw
  | issues ask =>
    refine ⟨hclosed, fun hheld k job hmem hjob => (hw.waiting hheld k job hmem hjob).imp_right ?_⟩
    intro hout
    have hlt := (List.getElem?_eq_some_iff.mp hout).1
    rw [h.getElem?_issue, if_neg (Nat.ne_of_lt (h.length ▸ hlt)), hout]
  | below d p quiet port => exact ⟨hclosed, hw.waiting⟩
  | finishes half => exact ⟨hclosed, nofun⟩
  | closesIdle d h' quiet how isOpen idle => exact absurd isOpen hopen
  | closesBusy d quiet how isOpen busy => exact absurd isOpen hopen
  | refused n ask call kind closed => exact hw.put call nofun hclosed id hstay
  | waits n call isOpen => exact absurd isOpen hopen
  | lines n bytes call isOpen => exact absurd isOpen hopen
  | shutsOff n call =>
    exact hw.put call nofun rfl id fun _ k job hmem _ => .inl (List.mem_append_left _ hmem)
  | wavers flag => exact ⟨hclosed, hw.waiting⟩
  | interrupted n call flag => exact hw.put call nofun hclosed id hstay
  | reads n p buffered result drawn call free port drawing =>
    exact hw.put call nofun hclosed id hstay
  | turns n bytes rest others call line isOpen => exact absurd isOpen hopen
  | late n bytes rest others half letGo call line closed how =>
    have hgone : half ≠ .held := by
      rcases how with ⟨-, rfl, -⟩ | ⟨hhalf, rfl, -⟩
      · nofun
      · exact hhalf
    exact hw.put call nofun hclosed (fun hh => absurd hh hgone) fun hh => absurd hh hgone
  | hands n bytes rest others p k call line port =>
    exact hw.put call nofun hclosed id fun hheld j job hmem hjob =>
      (hothers line hheld j job hmem hjob).imp_left (List.mem_cons_of_mem _)
  | written n bytes others call line => exact hw.put call nofun hclosed id (hothers line)
  | fails n bytes rest others p e call line port =>
    exact hw.put call nofun hclosed id (hothers line)
  | takes n others result call line held outcome => exact hw.put call nofun hclosed nofun nofun
  | comesLate n others call line half =>
    exact hw.put call nofun hclosed id fun hheld => absurd hheld half
  | quits n ask call => exact hw.put call nofun hclosed id hstay
  | cancels n ask call =>
    refine hw.put call nofun hclosed id fun _ k job hmem _ => ?_
    by_cases hk : k = n
    · exact .inr ⟨hk, rfl⟩
    · refine .inl (List.mem_filter.mpr ⟨hmem, ?_⟩)
      simpa using hk

/-- The half was missed. The stream was closed, which left it as `u`, while somebody was in line
for the half, and whoever was in line then and has not had its turn before was given up since. So
was every shutdown that began. -/
structure Missed (u s : LinkDesk (StreamLink P)) (asked : List Ask) : Prop where
  held : s.link.half = .held
  closed : u.link.isClosed = true
  busy : u.link.writers ≠ []
  waiting : ∀ n job, (.call n, job) ∈ u.link.writers → (∀ rest, job ≠ .write rest true) →
    s.calls[n]? = some .aborted
  shutdowns : ∀ n : ℕ, asked[n]? = some .shutdown →
    s.calls[n]? = some .aborted ∨ s.calls[n]? = some (.issued .shutdown)

omit [Port P] in
/-- Nobody is in line any more, and the half was not let go. -/
theorem Awaits.missed (h : s.Seated asked) (hk : Custody s asked log) (hw : Awaits u s)
    (hclosed : u.link.isClosed = true) (hbusy : u.link.writers ≠ []) (hheld : s.link.half = .held)
    (hline : s.link.writers = []) : Missed u s asked := by
  refine ⟨hheld, hclosed, hbusy, fun n job hmem hjob => ?_, fun n hask => ?_⟩
  · refine (hw.waiting hheld n job hmem hjob).resolve_left ?_
    rw [hline]
    nofun
  · have hlt := (List.getElem?_eq_some_iff.mp hask).1
    rw [← h.length] at hlt
    have hc := List.getElem?_eq_getElem hlt
    have hagrees := h.agrees n
    rw [hc] at hagrees ⊢
    cases hcall : s.calls[n] with
    | aborted => exact .inl rfl
    | ended r => exact absurd hheld (hk.answered n r hask (hc.trans (congrArg some hcall)))
    | issued ask =>
      obtain rfl := Option.some.inj ((hagrees ask (.inl (congrArg some hcall))).symm.trans hask)
      exact .inr rfl
    | underWay ask =>
      obtain rfl := Option.some.inj ((hagrees ask (.inr (congrArg some hcall))).symm.trans hask)
      have hmem : .call n ∈ s.link.writers.map Prod.fst :=
        (h.writers _).mpr ⟨n, _, rfl, hc.trans (congrArg some hcall), rfl⟩
      rw [hline] at hmem
      cases hmem

/-- A shutdown that is first in line takes the half. -/
theorem Seated.shuts_first (h : s.Seated asked) {a : Agent}
    {others : List (Agent × StreamLink.Job)} (hline : s.link.writers = (a, .shutdown) :: others) :
    ∃ n, s.callReady n = true ∧ (s.does far (.move (.call n))).link.half ≠ .held := by
  obtain ⟨n, c, rfl, hc, hworks⟩ := (h.writers a).mp (by rw [hline]; exact List.mem_cons_self)
  obtain ⟨ask, hask, hfor⟩ := h.fits n .shutdown (hline ▸ List.mem_cons_self)
  obtain rfl : c = .underWay .shutdown := by
    cases c with
    | underWay ask' =>
      obtain rfl := Option.some.inj ((h.agrees n ask' (.inr hc)).symm.trans hask)
      cases ask' with
      | shutdown => rfl
      | read | write bytes => exact hfor.elim
    | _ => cases hworks
  have hready : s.callReady n = true := by
    simp [callReady, hc, Link.ready, StreamLink.ready, hline, StreamLink.canWork]
  refine ⟨n, hready, ?_⟩
  have hmove : s.does far (.move (.call n)) = s.moveCall n := if_pos hready
  rw [hmove]
  simp only [moveCall, hc, Link.resumeShutdown, StreamLink.resumeShutdown]
  split
  · split <;> simp [StreamLink.leave]
  · assumption

/-- When a stream is closed the half is let go, or somebody is in line for it. -/
theorem Stirs.closes {d : Doing D} (hs : Stirs far s d s' new) (hopen : s.link.isClosed = false)
    (hclosed : s'.link.isClosed = true) : s'.link.half ≠ .held ∨ s'.link.writers ≠ [] := by
  cases hs with
  | closesIdle d h quiet how isOpen idle =>
    refine .inl ?_
    rcases how with ⟨-, rfl⟩ | ⟨-, rfl⟩ <;> nofun
  | closesBusy d quiet how isOpen busy => exact .inr busy
  | shutsOff n call => exact .inr (List.append_ne_nil_of_right_ne_nil _ nofun)
  | late n bytes rest others half letGo call line closed =>
    exact absurd (hopen.symm.trans closed) nofun
  | _ => exact absurd (hopen.symm.trans hclosed) nofun

/-- A stream is closed, and in the end nobody is in line any more and the half was not let go. -/
theorem Seated.missed {t : LinkDesk (StreamLink P)} {before : List Ask} (h : t.Seated before)
    {d : Doing D} (hopen : t.link.isClosed = false)
    (hclosing : (t.does far d).link.isClosed = true) {after : List (Doing D)}
    (hs : (t.does far d).throughout far after = s) (hseated : s.Seated asked)
    (hk : Custody s asked log) (hheld : s.link.half = .held) (hline : s.link.writers = []) :
    Missed (t.does far d) s asked := by
  have hstirs := h.stirs far d
  have hu := hstirs.seated h
  have hw : Awaits (t.does far d) s := by
    have hrun := hu.run far (I := fun s _ _ => Awaits (t.does far d) s) []
      (awaits_refl hclosing) after fun _ h hI hs => hI.step h hs
    exact hs ▸ hrun.2
  refine hw.missed hseated hk hclosing ?_ hheld hline
  refine (hstirs.closes hopen hclosing).resolve_left fun hhalf => ?_
  have hrun := hu.run far [] (spent_refl hhalf) after fun _ h hI hs => hI.step h hs
  rw [hs] at hrun
  exact hrun.2.half hheld

/-- A stream that was open and is closed was closed at some time. -/
theorem exists_closing (ds : List (Doing D)) (hopen : s.link.isClosed = false)
    (hclosed : (s.throughout far ds).link.isClosed = true) :
    ∃ before d after, ds = before ++ d :: after ∧
      (s.throughout far before).link.isClosed = false ∧
      ((s.throughout far before).does far d).link.isClosed = true := by
  induction ds generalizing s with
  | nil => exact absurd (hopen.symm.trans hclosed) nofun
  | cons d ds ih =>
    cases hd : (s.does far d).link.isClosed with
    | true => exact ⟨[], d, ds, rfl, hopen, hd⟩
    | false =>
      obtain ⟨before, e, after, rfl, hbefore, he⟩ := ih hd hclosed
      exact ⟨d :: before, e, after, rfl, hbefore, he⟩

/-! ### A half that was missed -/

/-- The stream is closed and has its write half, nobody is in line for it, and no shutdown is to
begin. -/
structure Stranded (s : LinkDesk (StreamLink P)) : Prop where
  closed : s.link.isClosed = true
  held : s.link.half = .held
  line : s.link.writers = []
  calls : ∀ n : ℕ, s.calls[n]? ≠ some (.issued .shutdown)

omit [Port P] in
/-- A call comes to something. -/
theorem Stranded.put (h : Stranded s) (hc : s.calls[n]? = some c) (hc' : ∀ ask, c' ≠ .issued ask)
    (hclosed : l.isClosed = true) (hheld : l.half = .held) (hline : l.writers = []) :
    Stranded (s.put n c' l) := by
  have hcalls := getElem?_put hc c' l
  refine ⟨hclosed, hheld, hline, fun k => ?_⟩
  rw [hcalls]
  split
  · exact fun hk => hc' _ (Option.some.inj hk)
  · exact h.calls k

/-- **Only a shutdown lets the half go that was missed.** -/
theorem Stranded.step (h : s.Seated asked) (ht : Stranded s) {d : Doing D}
    (hd : d ≠ .issue .shutdown) (hs : Stirs far s d s' new) : Stranded s' := by
  obtain ⟨hclosed, hheld, hline, hcalls⟩ := ht
  have ht : Stranded s := ⟨hclosed, hheld, hline, hcalls⟩
  have hopen : s.link.isClosed ≠ false := by
    rw [hclosed]
    nofun
  have hnobody : ∀ {w others}, s.link.writers ≠ w :: others := by
    rw [hline]
    nofun
  cases hs with
  | rests d quiet => exact ht
  | issues ask =>
    refine ⟨hclosed, hheld, hline, fun k => ?_⟩
    rw [h.getElem?_issue]
    split
    · intro hk
      obtain rfl := Call.issued.inj (Option.some.inj hk)
      exact hd rfl
    · exact hcalls k
  | below d p quiet port => exact ⟨hclosed, hheld, hline, hcalls⟩
  | finishes half => cases hheld.symm.trans half
  | closesIdle d h' quiet how isOpen idle => exact absurd isOpen hopen
  | closesBusy d quiet how isOpen busy => exact absurd isOpen hopen
  | refused n ask call kind closed => exact ht.put call nofun hclosed hheld hline
  | waits n call isOpen => exact absurd isOpen hopen
  | lines n bytes call isOpen => exact absurd isOpen hopen
  | shutsOff n call => exact absurd call (hcalls n)
  | wavers flag => exact ⟨hclosed, hheld, hline, hcalls⟩
  | interrupted n call flag => exact ht.put call nofun hclosed hheld hline
  | reads n p buffered result drawn call free port drawing =>
    exact ht.put call nofun hclosed hheld hline
  | turns n bytes rest others call line isOpen => exact absurd isOpen hopen
  | late n bytes rest others half letGo call line closed how => exact absurd line hnobody
  | hands n bytes rest others p k call line port => exact absurd line hnobody
  | written n bytes others call line => exact absurd line hnobody
  | fails n bytes rest others p e call line port => exact absurd line hnobody
  | takes n others result call line held outcome => exact absurd line hnobody
  | comesLate n others call line half => exact absurd line hnobody
  | quits n ask call => exact ht.put call nofun hclosed hheld hline
  | cancels n ask call =>
    refine ht.put call nofun hclosed hheld ?_
    exact List.filter_eq_nil_iff.mpr fun w hw => absurd hw (by rw [hline]; nofun)

end Steps

/-! ### On a pipe -/

section OnPipe

variable {s s' : LinkDesk (StreamLink Pipe)} {asked : List Ask} {log new : List Note}
  {d : Doing Pipe.Doing}

/-- **What becomes of the pipe and of the write half**: it leads to another pipe by what the half
was handed, and it is shut down, or the half is not gone but for a close from outside. -/
theorem Stirs.port (h : s.Seated asked) (hs : Stirs Pipe.does s d s' new) :
    ∃ p, s.link.port.Leads p (handed new) ∧
    (s'.link.port = p ∧ (d ≠ .closeOutside → s'.link.half = .gone → s.link.half = .gone) ∧
        (s.link.half = .gone → s'.link.half = .gone) ∨
      s'.link.port = p.shutdown ∧ s'.link.half = .gone) := by
  have hrefl := Pipe.leads_refl s.link.port
  cases hs with
  | below d p quiet port =>
    refine ⟨p, ?_, .inl ⟨rfl, fun _ => id, id⟩⟩
    rcases port with ⟨a, rfl⟩ | ⟨x, rfl⟩
    · exact Pipe.leads_helperMove _ a
    · exact Pipe.leads_does _ x
  | finishes half => exact ⟨_, hrefl, .inr ⟨rfl, rfl⟩⟩
  | closesIdle d h' quiet how isOpen idle =>
    refine ⟨_, hrefl, .inl ⟨rfl, fun hd hh => ?_, fun hh => ?_⟩⟩
    · rcases how with ⟨-, rfl⟩ | ⟨rfl, -⟩
      · cases hh
      · exact absurd rfl hd
    · cases (h.held isOpen).symm.trans hh
  | reads n p buffered result drawn call free port drawing =>
    have hnone : handed new = [] := by
      rcases drawing with rfl | rfl <;> rfl
    refine ⟨p, ?_, .inl ⟨rfl, fun _ => id, id⟩⟩
    rw [hnone]
    rcases port with rfl | rfl
    · exact hrefl
    · exact Pipe.leads_read _
  | late n bytes rest others half letGo call line closed how =>
    rcases how with ⟨hheld, rfl, rfl⟩ | ⟨-, rfl, rfl⟩
    · exact ⟨_, hrefl, .inl ⟨rfl, nofun, fun hh => absurd (hheld.symm.trans hh) nofun⟩⟩
    · exact ⟨_, hrefl, .inl ⟨rfl, fun _ => id, id⟩⟩
  | hands n bytes rest others p k call line port =>
    refine ⟨p, ?_, .inl ⟨rfl, fun _ => id, id⟩⟩
    have hhanded : handed [.hands n (rest.take k)] = rest.take k := List.append_nil _
    rw [hhanded]
    exact Pipe.leads_write port
  | fails n bytes rest others p e call line port =>
    refine ⟨p, ?_, .inl ⟨rfl, fun _ => id, id⟩⟩
    rcases port with rfl | port
    · exact hrefl
    · exact Pipe.leads_write_error port
  | takes n others result call line held outcome => exact ⟨_, hrefl, .inr ⟨rfl, rfl⟩⟩
  | _ => exact ⟨_, hrefl, .inl ⟨rfl, fun _ => id, id⟩⟩

/-- The pipe has taken what the write half was handed, and its end does not come before the half
is gone. -/
structure Piped (s : LinkDesk (StreamLink Pipe)) (log : List Note) : Prop where
  taken : Port.taken s.link.port = handed log
  early : s.link.half ≠ .gone → s.link.port.outboundEnded = false
  saw : s.link.port.sawEnd = true → s.link.port.outboundEnded = true

/-- What happens keeps this. -/
theorem Piped.step (h : s.Seated asked) (hp : Piped s log) (hs : Stirs Pipe.does s d s' new) :
    Piped s' (log ++ new) := by
  obtain ⟨p, hleads, hport⟩ := hs.port h
  have htaken : Port.taken p = handed (log ++ new) := by
    rw [hleads.taken, hp.taken, handed_append]
  have hsaw : p.sawEnd = true → p.outboundEnded = true := fun hp' =>
    hleads.ended.trans ((hleads.saw hp').elim hp.saw id)
  rcases hport with ⟨rfl, -, hgone⟩ | ⟨hport, hhalf⟩
  · exact ⟨htaken, fun hh => hleads.ended.trans (hp.early fun hg => hh (hgone hg)), hsaw⟩
  · refine ⟨?_, fun hh => absurd hhalf hh, fun _ => ?_⟩
    · rw [hport]
      exact htaken
    · rw [hport]
      rfl

/-- A new stream on a pipe. -/
def onPipe (capacity : ℕ) : LinkDesk (StreamLink Pipe) := onPort { capacity }

theorem seated_onPipe (capacity : ℕ) : (onPipe capacity).Seated [] := seated_onPort _

/-- **Nothing is lost in the pipe.** -/
theorem piped (capacity : ℕ) (ds : List (Doing Pipe.Doing)) :
    Piped ((onPipe capacity).throughout Pipe.does ds) ((onPipe capacity).logged Pipe.does ds) :=
  ((seated_onPipe capacity).run Pipe.does (I := fun s _ log => Piped s log) []
    ⟨rfl, fun _ => rfl, nofun⟩ ds fun _ h hI hs => hI.step h hs).2

/-- A half that is gone was shut down, unless the stream was closed from outside. -/
theorem Stirs.ended (h : s.Seated asked) (hs : Stirs Pipe.does s d s' new)
    (hd : d ≠ .closeOutside) (hend : s.link.half = .gone → s.link.port.outboundEnded = true)
    (hgone : s'.link.half = .gone) : s'.link.port.outboundEnded = true := by
  obtain ⟨p, hleads, ⟨rfl, hback, -⟩ | ⟨hport, -⟩⟩ := hs.port h
  · exact hleads.ended.trans (hend (hback hd hgone))
  · rw [hport]
    rfl

/-- **A far end never sees the end of a stream whose half was missed**, unless a shutdown comes. -/
theorem Stranded.never_ends {capacity : ℕ} {ds es : List (Doing Pipe.Doing)}
    (ht : Stranded ((onPipe capacity).throughout Pipe.does ds)) (hes : .issue .shutdown ∉ es) :
    (((onPipe capacity).throughout Pipe.does ds).throughout Pipe.does es).link.port.sawEnd
      = false := by
  have hseated := (seated_onPipe capacity).throughout Pipe.does ds
  have hrun := hseated.run Pipe.does (I := fun s _ log => Stranded s ∧ Piped s log) _
    ⟨ht, piped capacity ds⟩ es fun hd h hI hs =>
      ⟨hI.1.step h (fun hshut => hes (hshut ▸ hd)) hs, hI.2.step h hs⟩
  obtain ⟨-, hstranded, hpiped⟩ := hrun
  have hearly := hpiped.early fun hgone => nomatch hstranded.held.symm.trans hgone
  exact Bool.eq_false_iff.mpr fun hsaw => nomatch hearly.symm.trans (hpiped.saw hsaw)

/-- The half that was let go is shut down, and the far end reads all there is. -/
def drain : List (Doing Pipe.Doing) := [.move .release, .far .resume, .move .farReader]

/-- The far end has got all that the write half was handed, and has read the end. -/
structure Ended (s : LinkDesk (StreamLink Pipe)) (log : List Note) : Prop where
  sawEnd : s.link.port.sawEnd = true
  empty : s.link.port.outbound = []
  received : s.link.port.received = handed log

/-- At rest a far end that reads has read everything. -/
theorem Piped.ended_at_rest (hp : Piped s log) (hrest : Interplay.AtRest s)
    (hhalf : s.link.half ≠ .held)
    (hend : s.link.half = .gone → s.link.port.outboundEnded = true)
    (hgone : s.link.port.gone = false) (hstalled : s.link.port.stalled = false) :
    Ended s log := by
  have hrelease : (s.link.half == .releasing) = false := hrest .release
  have hover : s.link.half = .gone := by
    cases hh : s.link.half with
    | held => exact absurd hh hhalf
    | releasing =>
      rw [hh] at hrelease
      cases hrelease
    | gone => rfl
  obtain ⟨hsaw, hempty⟩ := Pipe.read_out (hrest .farReader) hgone hstalled (hend hover)
  refine ⟨hsaw, hempty, ?_⟩
  rw [← hp.taken]
  show _ = _ ++ s.link.port.outbound
  rw [hempty, List.append_nil]

/-- A far end that reads on comes to the end. -/
theorem Piped.ended_drain (hp : Piped s log) (hhalf : s.link.half ≠ .held)
    (hend : s.link.half = .gone → s.link.port.outboundEnded = true)
    (hgone : s.link.port.gone = false) : Ended (s.throughout Pipe.does drain) log := by
  obtain ⟨p, hp', hended, hthere, htaken⟩ : ∃ p : Pipe,
      (s.does Pipe.does (.move .release)).link.port = p ∧ p.outboundEnded = true ∧
        p.gone = false ∧ Port.taken p = handed log := by
    have hmove : s.does Pipe.does (.move .release)
        = if (s.link.half == .releasing) = true then { s with link := s.link.finishRelease }
          else s := rfl
    cases hh : s.link.half with
    | held => exact absurd hh hhalf
    | releasing =>
      rw [hh] at hmove
      exact ⟨s.link.port.shutdown, congrArg (·.link.port) hmove, rfl, hgone, hp.taken⟩
    | gone =>
      rw [hh] at hmove
      exact ⟨s.link.port, congrArg (·.link.port) hmove, hend hh, hgone, hp.taken⟩
  have hport : (s.throughout Pipe.does drain).link.port
      = if p.resume.farCanRead then p.resume.farRead else p.resume := by
    obtain ⟨t, ht⟩ : ∃ t, s.does Pipe.does (.move .release) = t := ⟨_, rfl⟩
    rw [← hp', ht]
    show ((s.does Pipe.does (.move .release)).throughout Pipe.does
      [.far .resume, .move .farReader]).link.port = _
    rw [ht]
    show (ite (t.link.port.resume.farCanRead = true) _ _ : LinkDesk (StreamLink Pipe)).link.port = _
    split <;> rfl
  obtain ⟨hsaw, hempty, hgot⟩ := Pipe.farRead_out hthere hended
  rw [← hport] at hsaw hempty hgot
  exact ⟨hsaw, hempty, hgot.trans htaken⟩

/-- **The far end sees the end of a stream that was closed.** On a pipe of any capacity, whatever
has happened to the calls, to the stream and to the far end: once the stream is closed and no write
is in line, the half was let go, and a far end that reads gets all that was written and then the
end, unless a close came from outside; or a shutdown is about to take the half; or it was missed,
because it was closed while a write was under way. -/
theorem ends_after_close (capacity : ℕ) (ds : List (Doing Pipe.Doing))
    {s : LinkDesk (StreamLink Pipe)} (hs : (onPipe capacity).throughout Pipe.does ds = s)
    (hclosed : s.link.isClosed = true)
    (hwrites : ∀ a rest begun, (a, .write rest begun) ∉ s.link.writers) {log : List Note}
    (hlog : (onPipe capacity).logged Pipe.does ds = log) :
    (s.link.half ≠ .held ∧ (.closeOutside ∉ ds → s.link.port.gone = false →
      (Interplay.AtRest s → s.link.port.stalled = false → Ended s log) ∧
        Ended (s.throughout Pipe.does drain) log)) ∨
    (∃ n, s.callReady n = true ∧ (s.does Pipe.does (.move (.call n))).link.half ≠ .held) ∨
    ∃ before d after, ds = before ++ d :: after ∧
      ((onPipe capacity).throughout Pipe.does before).link.isClosed = false ∧
      Missed (((onPipe capacity).throughout Pipe.does before).does Pipe.does d) s (asks ds) := by
  have hstart := seated_onPipe capacity
  have hrun := hstart.run Pipe.does [] (custody_onPort _) ds fun _ h hI hs => hI.step h hs
  have hpiped := piped capacity ds
  rw [hs, hlog] at hpiped
  rw [hs] at hrun
  obtain ⟨hseated, hcustody⟩ := hrun
  by_cases hhalf : s.link.half = .held
  · refine .inr ?_
    cases hline : s.link.writers with
    | cons w others =>
      obtain ⟨a, job⟩ := w
      cases job with
      | shutdown => exact .inl (hseated.shuts_first hline)
      | write rest begun => exact absurd (hline ▸ List.mem_cons_self) (hwrites a rest begun)
    | nil =>
      refine .inr ?_
      obtain ⟨before, d, after, rfl, hopen, hclosing⟩ :=
        exists_closing ds rfl (hs.symm ▸ hclosed)
      have hafter : ((onPipe capacity).throughout Pipe.does before |>.does Pipe.does d).throughout
          Pipe.does after = s := List.foldl_append.symm.trans hs
      refine ⟨before, d, after, rfl, hopen, ?_⟩
      exact (hstart.throughout _ before).missed hopen hclosing hafter hseated hcustody hhalf hline
  · refine .inl ⟨hhalf, fun hout hgone => ?_⟩
    have hend : s.link.half = .gone → s.link.port.outboundEnded = true := by
      have hrun := hstart.run Pipe.does
        (I := fun s _ _ => s.link.half = .gone → s.link.port.outboundEnded = true) [] nofun ds
        fun hd h hI hs => hs.ended h (fun hd' => hout (hd' ▸ hd)) hI
      rw [hs] at hrun
      exact hrun.2
    exact ⟨fun hrest hstalled => hpiped.ended_at_rest hrest hhalf hend hgone hstalled,
      hpiped.ended_drain hhalf hend hgone⟩

/-- A write of five bytes is under way in a pipe that holds four, and nobody reads. -/
def halfWritten : List (Doing Pipe.Doing) :=
  [.far .stall, .issue (.write [104, 101, 108, 108, 111]), .move (.call 0), .move (.call 0),
    .move (.call 0)]

/-- The far end reads on, and the write goes through. -/
def goesThrough : List (Doing Pipe.Doing) :=
  [.far .resume, .move .farReader, .move (.call 0), .move (.call 0), .move .farReader]

/-- Another write is in line when the stream is closed. -/
def inLine : List (Doing Pipe.Doing) :=
  halfWritten ++ [.issue (.write [33]), .move (.call 1), .close] ++ goesThrough ++ [.move (.call 1)]

/-- The write behind the one that was under way lets the half go. -/
theorem ends_after_close_inLine :
    ((onPipe 4).throughout Pipe.does inLine).calls
        = [.ended (.ok .done), .ended (.error .closed)] ∧
      Ended (((onPipe 4).throughout Pipe.does inLine).throughout Pipe.does drain)
        ((onPipe 4).logged Pipe.does inLine) := by
  have hcalls : ((onPipe 4).throughout Pipe.does inLine).calls
      = [.ended (.ok .done), .ended (.error .closed)] := by rfl
  refine ⟨hcalls, ?_⟩
  rcases ends_after_close 4 inLine rfl (by rfl) (fun _ _ _ => nofun) rfl with
    ⟨-, hends⟩ | ⟨n, hready, -⟩ | ⟨_, _, _, -, -, hmissed⟩
  · exact (hends (by simp [inLine, halfWritten, goesThrough]) (by rfl)).2
  · have hover : ((onPipe 4).throughout Pipe.does inLine).callReady n = false := by
      unfold callReady
      rw [hcalls]
      rcases n with _ | _ | n <;> rfl
    exact absurd (hover.symm.trans hready) nofun
  · cases hmissed.held

/-- The stream is closed while the write is under way. -/
def midway : LinkDesk (StreamLink Pipe) :=
  (onPipe 4).throughout Pipe.does (halfWritten ++ [.close] ++ goesThrough)

/-- The write has gone through, the stream is closed and nobody can move, and the far end, which
has read everything, never sees the end unless a shutdown comes. -/
theorem midway_never_ends : midway.link.isClosed = true ∧ midway.link.writers = [] ∧
    midway.calls = [.ended (.ok .done)] ∧ Interplay.AtRest midway ∧
    midway.link.port.stalled = false ∧ midway.link.port.gone = false ∧
    midway.link.half = .held ∧ ∀ es, .issue .shutdown ∉ es →
      (midway.throughout Pipe.does es).link.port.sawEnd = false := by
  have hcalls : midway.calls = [.ended (.ok .done)] := by rfl
  have hstranded : Stranded midway := by
    refine ⟨by rfl, by rfl, by rfl, fun n => ?_⟩
    rw [hcalls]
    rcases n with _ | n <;> nofun
  refine ⟨hstranded.closed, hstranded.line, hcalls, fun a => ?_, by rfl, by rfl, hstranded.held,
    fun es hes => hstranded.never_ends hes⟩
  cases a with
  | call n => cases n <;> rfl
  | _ => rfl

end OnPipe

end LinkDesk

end ProbeLink
