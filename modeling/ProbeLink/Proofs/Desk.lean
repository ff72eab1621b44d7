/-
# Calls side by side on a stream

Calls to read, write and shut down are issued on a stream, move in any order and are given
up, and meanwhile the stream is closed, from within or from outside, and the far end does
what it does (`LinkDesk.Doing`). The port is any port, and its far end any function.

Whoever stands in one of the two lines of the stream is a call that is under way, once
(`LinkDesk.Seated`). So a call that moves is the first in its line, and what it can do is
said once (`LinkDesk.Stirs`), with a note of what befalls the write half: who gets in line
for it, what it is handed, when it is taken out and when it is shut down.

Key definitions: `LinkDesk.Doing`, `LinkDesk.does`, `LinkDesk.Note`, `LinkDesk.notes`,
`LinkDesk.Seated`, `LinkDesk.Stirs`.
Key theorems: `LinkDesk.Seated.stirs`, `LinkDesk.Stirs.seated`.
-/
import Mathlib.Data.List.Nodup
import Mathlib.Data.Nat.Notation
import ProbeLink.Link.Desk
import ProbeLink.Link.Stream

namespace ProbeLink

namespace StreamLink

/-- The job is that of a call which asks for it. -/
def Job.For : Job → LinkDesk.Ask → Prop
  | .write _ _, .write _ => True
  | .shutdown, .shutdown => True
  | _, _ => False

end StreamLink

namespace LinkDesk

/-! ### What can happen -/

/-- What can happen to the calls and to the stream below. -/
inductive Doing (D : Type) where
  | issue (ask : Ask)
  | move (a : Agent)
  | abort (n : ℕ)
  | close
  | closeOutside
  /-- The far end does something. -/
  | far (d : D)

/-- What befalls the two halves of a stream. -/
inductive Note where
  /-- Call `n` gets in line to write. -/
  | lines (n : ℕ)
  /-- Call `n` hands bytes to the write half. -/
  | hands (n : ℕ) (bytes : Bytes)
  /-- Call `n` takes bytes out of the read half. -/
  | draws (n : ℕ)
  /-- The write half is taken out of the stream, by call `n` to shut it down or to be let go. -/
  | takes (who : Option ℕ)
  /-- The write half is shut down. -/
  | shuts (result : Except IoFault Unit)

section Events

variable {P D : Type} [Port P]

/-- One thing happens. -/
def does (far : P → D → P) (s : LinkDesk (StreamLink P)) : Doing D → LinkDesk (StreamLink P)
  | .issue ask => s.issue ask
  | .move a => if Interplay.ready s a then Interplay.move s a else s
  | .abort n => s.abort n
  | .close => { s with link := s.link.close }
  | .closeOutside => { s with link := s.link.closeOutside }
  | .far d => { s with link := { s.link with port := far s.link.port d } }

/-- One thing happens after the other. -/
def throughout (far : P → D → P) (s : LinkDesk (StreamLink P)) (ds : List (Doing D)) :
    LinkDesk (StreamLink P) := ds.foldl (does far) s

/-- What the calls ask for that are issued. -/
def asks (ds : List (Doing D)) : List Ask :=
  ds.filterMap fun
    | .issue ask => some ask
    | _ => none

/-- What the write half is handed by call `n`, first in line to write, when it moves, or that it
is let go. -/
def writeNotes (l : StreamLink P) (n : ℕ) : List Note :=
  match l.writers with
  | (_, .write _ false) :: _ => if l.isClosed && l.half = .held then [.takes none] else []
  | (_, .write (b :: r) true) :: _ =>
    match Port.write l.port (b :: r) with
    | (_, .ok k) => [.hands n ((b :: r).take k)]
    | _ => []
  | _ => []

/-- What befalls the halves when call `n` moves. -/
def callNotes (s : LinkDesk (StreamLink P)) (n : ℕ) : List Note :=
  match s.calls[n]? with
  | some (.issued (.write _)) => if s.link.isClosed then [] else [.lines n]
  | some (.underWay .read) =>
    if s.link.interrupts || !s.link.buffered.isEmpty then [] else [.draws n]
  | some (.underWay (.write _)) => writeNotes s.link n
  | some (.underWay .shutdown) =>
    if s.link.half = .held then [.takes (some n), .shuts (Port.shutdown s.link.port).2] else []
  | _ => []

/-- What befalls the halves when something happens. -/
def notes (s : LinkDesk (StreamLink P)) : Doing D → List Note
  | .move (.call n) => if s.callReady n then s.callNotes n else []
  | .move .release =>
    if s.link.half = .releasing then [.shuts (Port.shutdown s.link.port).2] else []
  | .close | .closeOutside =>
    if !s.link.isClosed && s.link.writers.isEmpty && s.link.half = .held then [.takes none] else []
  | _ => []

/-- All that befalls the halves while one thing happens after the other. -/
def logged (far : P → D → P) (s : LinkDesk (StreamLink P)) : List (Doing D) → List Note
  | [] => []
  | d :: ds => s.notes d ++ (s.does far d).logged far ds

end Events

/-! ### Who stands in line -/

/-- The call reads, and its turn has not come or it waits for a byte. -/
def Call.reads : Call → Bool
  | .underWay .read => true
  | _ => false

/-- The call is in line for the write half. -/
def Call.works : Call → Bool
  | .underWay (.write _) => true
  | .underWay .shutdown => true
  | _ => false

/-- What stands in a list that got one more. -/
theorem getElem?_concat {α : Type} (xs : List α) (x : α) (k : ℕ) :
    (xs ++ [x])[k]? = if k = xs.length then some x else xs[k]? := by
  split
  · rename_i hk
    rw [hk, List.getElem?_concat_length]
  · rw [List.getElem?_append]
    split
    · rfl
    · rw [List.getElem?_eq_none (by simp; omega), List.getElem?_eq_none (by omega)]

section Lists

variable {α : Type} [DecidableEq α] {xs : List α} {x : α} {p : Prop}

theorem seat_of_out (hx : x ∉ xs) (hp : ¬p) (a : α) : a ∈ xs ↔ if a = x then p else a ∈ xs := by
  split
  · rename_i ha
    exact iff_of_false (ha ▸ hx) hp
  · exact .rfl

theorem seat_append (hp : p) (a : α) : a ∈ xs ++ [x] ↔ if a = x then p else a ∈ xs := by
  rw [List.mem_append, List.mem_singleton]
  split
  · rename_i ha
    exact iff_of_true (.inr ha) hp
  · rename_i ha
    exact or_iff_left ha

theorem seat_erase (hxs : xs.Nodup) (hp : ¬p) (a : α) :
    a ∈ xs.erase x ↔ if a = x then p else a ∈ xs := by
  rw [hxs.mem_erase_iff]
  split
  · rename_i ha
    exact iff_of_false (fun h => h.1 ha) hp
  · rename_i ha
    exact and_iff_right ha

theorem seat_tail (hxs : (x :: xs).Nodup) (hp : ¬p) (a : α) :
    a ∈ xs ↔ if a = x then p else a ∈ x :: xs := by
  split
  · rename_i ha
    exact iff_of_false (ha ▸ (List.nodup_cons.mp hxs).1) hp
  · rename_i ha
    rw [List.mem_cons, or_iff_right ha]

theorem seat_of_in (hx : x ∈ xs) (hp : p) (a : α) : a ∈ xs ↔ if a = x then p else a ∈ xs := by
  split
  · rename_i ha
    exact iff_of_true (ha ▸ hx) hp
  · exact .rfl

end Lists

section Seats

variable {P : Type} {l l' : StreamLink P} {asked : List Ask} {n : ℕ} {ask : Ask}
  {job : StreamLink.Job} {others : List (Agent × StreamLink.Job)}

/-- The lines of a stream are in order. Only the turn of the first in line for the write half
has come, whoever shuts down has closed the stream, and an open stream has its write half. -/
structure Lined (l : StreamLink P) (asked : List Ask) : Prop where
  readers_once : l.readers.Nodup
  writers_once : (l.writers.map Prod.fst).Nodup
  fits : ∀ (n : ℕ) job, (.call n, job) ∈ l.writers → ∃ ask, asked[n]? = some ask ∧ job.For ask
  behind : ∀ a rest begun, (a, .write rest begun) ∈ l.writers.tail → begun = false
  shuts : ∀ a, (a, .shutdown) ∈ l.writers → l.isClosed = true
  held : l.isClosed = false → l.half = .held

/-- Nobody gets in line or leaves it, but for reads. -/
theorem Lined.same (h : Lined l asked) (hreaders : l'.readers.Nodup)
    (hwriters : l'.writers = l.writers) (hclosed : l.isClosed = true → l'.isClosed = true)
    (held : l'.isClosed = false → l'.half = .held) : Lined l' asked := by
  refine ⟨hreaders, ?_, ?_, ?_, fun a ha => hclosed (h.shuts a ?_), held⟩
  · rw [hwriters]
    exact h.writers_once
  · rw [hwriters]
    exact h.fits
  · rw [hwriters]
    exact h.behind
  · rwa [hwriters] at ha

/-- Somebody gets in line for the write half. -/
theorem Lined.joins (h : Lined l asked) (hout : .call n ∉ l.writers.map Prod.fst)
    (hask : asked[n]? = some ask) (hfor : job.For ask) (hwaits : ∀ rest, job ≠ .write rest true)
    (hreaders : l'.readers = l.readers) (hwriters : l'.writers = l.writers ++ [(.call n, job)])
    (hclosed : l.isClosed = true ∨ job = .shutdown → l'.isClosed = true)
    (held : l'.isClosed = false → l'.half = .held) : Lined l' asked := by
  refine ⟨hreaders ▸ h.readers_once, ?_, fun k j hmem => ?_, fun a rest begun hmem => ?_,
    fun a hmem => ?_, held⟩
  · rw [hwriters, List.map_append, List.nodup_append]
    refine ⟨h.writers_once, List.nodup_singleton _, fun a ha b hb hab => hout ?_⟩
    obtain rfl : b = .call n := List.mem_singleton.mp hb
    exact hab ▸ ha
  · rw [hwriters] at hmem
    rcases List.mem_append.mp hmem with hmem | hmem
    · exact h.fits k j hmem
    · obtain ⟨hk, rfl⟩ := Prod.mk.inj (List.mem_singleton.mp hmem)
      obtain rfl := Agent.call.inj hk
      exact ⟨ask, hask, hfor⟩
  · rw [hwriters] at hmem
    have hcases : (a, .write rest begun) ∈ l.writers.tail ∨
        (a, .write rest begun) = (Agent.call n, job) := by
      cases hline : l.writers with
      | nil =>
        rw [hline] at hmem
        cases hmem
      | cons e r =>
        rw [hline] at hmem
        exact (List.mem_append.mp hmem).imp_right List.mem_singleton.mp
    rcases hcases with hold | hnew
    · exact h.behind a rest begun hold
    · obtain ⟨-, rfl⟩ := Prod.mk.inj hnew
      exact Bool.eq_false_iff.mpr fun hb => hwaits rest (by rw [hb])
  · rw [hwriters] at hmem
    refine hclosed ((List.mem_append.mp hmem).imp (h.shuts a) fun hnew => ?_)
    exact (congrArg Prod.snd (List.mem_singleton.mp hnew)).symm

/-- The first in line for the write half leaves. -/
theorem Lined.leaves (h : Lined l asked) {e : Agent × StreamLink.Job}
    (line : l.writers = e :: l'.writers) (hreaders : l'.readers = l.readers)
    (hclosed : l.isClosed = true → l'.isClosed = true)
    (held : l'.isClosed = false → l'.half = .held) : Lined l' asked := by
  obtain ⟨hr, hw, hfits, hbehind, hshuts, -⟩ := h
  rw [line] at hw hfits hbehind hshuts
  exact ⟨hreaders ▸ hr, (List.nodup_cons.mp hw).2,
    fun k j hmem => hfits k j (List.mem_cons_of_mem _ hmem),
    fun a rest begun hmem => hbehind a rest begun (List.mem_of_mem_tail hmem),
    fun a hmem => hclosed (hshuts a (List.mem_cons_of_mem _ hmem)), held⟩

/-- The first in line for the write half goes on. -/
theorem Lined.goesOn (h : Lined l asked) {a : Agent} {rest rest' : Bytes} {begun : Bool}
    (line : l.writers = (a, .write rest begun) :: others) (hreaders : l'.readers = l.readers)
    (line' : l'.writers = (a, .write rest' true) :: others)
    (hclosed : l.isClosed = true → l'.isClosed = true)
    (held : l'.isClosed = false → l'.half = .held) : Lined l' asked := by
  obtain ⟨hr, hw, hfits, hbehind, hshuts, -⟩ := h
  rw [line] at hw hfits hbehind hshuts
  refine ⟨hreaders ▸ hr, ?_, fun k j hmem => ?_, ?_, fun b hmem => ?_, held⟩
  · rw [line']
    exact hw
  · rw [line'] at hmem
    rcases List.mem_cons.mp hmem with hhead | hrest
    · obtain ⟨hk, rfl⟩ := Prod.mk.inj hhead
      obtain ⟨ask, hask, hfor⟩ := hfits k (.write rest begun) (by rw [hk]; exact List.mem_cons_self)
      cases ask with
      | write bytes => exact ⟨_, hask, trivial⟩
      | read | shutdown => exact hfor.elim
    · exact hfits k j (List.mem_cons_of_mem _ hrest)
  · rw [line']
    exact hbehind
  · rw [line'] at hmem
    rcases List.mem_cons.mp hmem with hhead | hrest
    · cases hhead
    · exact hclosed (hshuts b (List.mem_cons_of_mem _ hrest))

/-- Somebody is given up, wherever it stands. -/
theorem Lined.cancel [Port P] (h : Lined l asked) (a : Agent) : Lined (l.cancel a) asked := by
  have hsub : (l.cancel a).writers.Sublist l.writers := List.filter_sublist
  exact ⟨h.readers_once.erase a, h.writers_once.sublist (hsub.map _),
    fun k j hmem => h.fits k j (hsub.mem hmem),
    fun b rest begun hmem => h.behind b rest begun (hsub.tail.mem hmem),
    fun b hmem => h.shuts b (hsub.mem hmem), h.held⟩

/-- Call `n` comes to something, and the link with it. -/
def put {L : Type} (s : LinkDesk L) (n : ℕ) (c : Call) (l : L) : LinkDesk L :=
  { link := l, calls := s.calls.set n c }

/-- Whoever stands in line is a call that is under way, and the other way round. -/
structure Seated (s : LinkDesk (StreamLink P)) (asked : List Ask) : Prop
    extends Lined s.link asked where
  length : s.calls.length = asked.length
  agrees : ∀ (n : ℕ) ask, s.calls[n]? = some (Call.issued ask) ∨
    s.calls[n]? = some (Call.underWay ask) → asked[n]? = some ask
  readers : ∀ a, a ∈ s.link.readers ↔ ∃ n c, a = .call n ∧ s.calls[n]? = some c ∧ c.reads = true
  writers : ∀ a, a ∈ s.link.writers.map Prod.fst ↔
    ∃ n c, a = .call n ∧ s.calls[n]? = some c ∧ c.works = true

variable {s : LinkDesk (StreamLink P)} {c c' : Call}

/-- Whoever leaves the line at its head leaves the others. -/
theorem leave_head {a : Agent} (hline : l.writers = (a, job) :: others)
    (honce : (l.writers.map Prod.fst).Nodup) : l.leave a = { l with writers := others } := by
  rw [hline, List.map_cons, List.nodup_cons] at honce
  have hothers : others.filter (fun w => w.1 ≠ a) = others :=
    List.filter_eq_self.mpr fun w hw => by
      have hne : w.1 ≠ a := fun h => honce.1 (List.mem_map.mpr ⟨w, hw, h⟩)
      simpa using hne
  rw [StreamLink.leave, hline, List.filter_cons_of_neg (by simp), hothers]

theorem getElem?_put (hc : s.calls[n]? = some c) (c' : Call) (l : StreamLink P) (k : ℕ) :
    (s.put n c' l).calls[k]? = if n = k then some c' else s.calls[k]? := by
  have hlt := (List.getElem?_eq_some_iff.mp hc).1
  rw [put, List.getElem?_set]
  split <;> rfl

/-- Whoever does not read does not stand in line to read. -/
theorem Seated.out_readers (h : s.Seated asked) (hc : s.calls[n]? = some c)
    (hr : c.reads = false) : .call n ∉ s.link.readers := fun hmem => by
  obtain ⟨k, d, hk, hd, hreads⟩ := (h.readers _).mp hmem
  obtain rfl := Agent.call.inj hk
  rw [← Option.some.inj (hc.symm.trans hd), hr] at hreads
  cases hreads

/-- Whoever does not want the write half does not stand in line for it. -/
theorem Seated.out_writers (h : s.Seated asked) (hc : s.calls[n]? = some c)
    (hw : c.works = false) : .call n ∉ s.link.writers.map Prod.fst := fun hmem => by
  obtain ⟨k, d, hk, hd, hworks⟩ := (h.writers _).mp hmem
  obtain rfl := Agent.call.inj hk
  rw [← Option.some.inj (hc.symm.trans hd), hw] at hworks
  cases hworks

/-- A call comes to something: in the lines only its own place changes. -/
theorem Seated.put (h : s.Seated asked) (hc : s.calls[n]? = some c)
    (agrees : ∀ ask, c' = .issued ask ∨ c' = .underWay ask → asked[n]? = some ask)
    (readers : ∀ a, a ∈ l.readers ↔ if a = .call n then c'.reads = true else a ∈ s.link.readers)
    (writers : ∀ a, a ∈ l.writers.map Prod.fst ↔
      if a = .call n then c'.works = true else a ∈ s.link.writers.map Prod.fst)
    (lined : Lined l asked) : (s.put n c' l).Seated asked := by
  have hcalls := getElem?_put hc c' l
  have hseat : ∀ (p : Call → Bool) (a : Agent) {X : Prop},
      (X ↔ if a = .call n then p c' = true
        else ∃ k c, a = .call k ∧ s.calls[k]? = some c ∧ p c = true) →
      (X ↔ ∃ k c, a = .call k ∧ (s.put n c' l).calls[k]? = some c ∧ p c = true) := by
    intro p a X hX
    rw [hX]
    split
    · rename_i ha
      subst ha
      constructor
      · exact fun hp => ⟨n, c', rfl, by rw [hcalls, if_pos rfl], hp⟩
      · rintro ⟨k, d, hk, hd, hp⟩
        obtain rfl := Agent.call.inj hk
        rw [hcalls, if_pos rfl] at hd
        exact Option.some.inj hd ▸ hp
    · rename_i ha
      refine exists_congr fun k => exists_congr fun d => and_congr_right fun hk => ?_
      have hne : n ≠ k := fun hnk => ha (hnk ▸ hk)
      rw [hcalls, if_neg hne]
  refine ⟨lined, ?_, fun k ask hk => ?_, fun a => ?_, fun a => ?_⟩
  · rw [LinkDesk.put, List.length_set]
    exact h.length
  · rw [hcalls] at hk
    split at hk
    · rename_i hnk
      subst hnk
      exact agrees ask (hk.imp Option.some.inj Option.some.inj)
    · exact h.agrees k ask hk
  · refine hseat Call.reads a ((readers a).trans ?_)
    split
    · exact .rfl
    · exact h.readers a
  · refine hseat Call.works a ((writers a).trans ?_)
    split
    · exact .rfl
    · exact h.writers a

theorem Seated.getElem?_issue (h : s.Seated asked) (ask : Ask) (k : ℕ) :
    (s.issue ask).calls[k]? = if k = asked.length then some (.issued ask) else s.calls[k]? := by
  rw [← h.length]
  exact getElem?_concat s.calls _ k

/-- A call that is issued does not end. -/
theorem Seated.ended_issue (h : s.Seated asked) {ask' : Ask} {k : ℕ}
    {r : Except LinkError Answer} (hk : (asked ++ [ask])[k]? = some ask')
    (hr : (s.issue ask).calls[k]? = some (.ended r)) :
    asked[k]? = some ask' ∧ s.calls[k]? = some (.ended r) := by
  rw [h.getElem?_issue] at hr
  rw [getElem?_concat] at hk
  split at hr
  · cases hr
  · rename_i hne
    rw [if_neg hne] at hk
    exact ⟨hk, hr⟩

/-- A call is issued. -/
theorem Seated.issue (h : s.Seated asked) (ask : Ask) : (s.issue ask).Seated (asked ++ [ask]) := by
  have hcalls := h.getElem?_issue ask
  have hold : ∀ k c, s.calls[k]? = some c → (s.issue ask).calls[k]? = some c := fun k c hc => by
    have hlt := (List.getElem?_eq_some_iff.mp hc).1
    rw [hcalls, if_neg (Nat.ne_of_lt (h.length ▸ hlt)), hc]
  have hseat : ∀ (p : Call → Bool), p (.issued ask) = false → ∀ a : Agent,
      (∃ k c, a = .call k ∧ s.calls[k]? = some c ∧ p c = true) ↔
        ∃ k c, a = .call k ∧ (s.issue ask).calls[k]? = some c ∧ p c = true := by
    intro p hp a
    constructor
    · rintro ⟨k, c, ha, hc, hpc⟩
      exact ⟨k, c, ha, hold k c hc, hpc⟩
    · rintro ⟨k, c, ha, hc, hpc⟩
      rw [hcalls] at hc
      split at hc
      · rw [← Option.some.inj hc, hp] at hpc
        cases hpc
      · exact ⟨k, c, ha, hc, hpc⟩
  refine ⟨⟨h.readers_once, h.writers_once, fun k job hmem => ?_, h.behind, h.shuts, h.held⟩, ?_,
    fun k ask' hk => ?_, fun a => (h.readers a).trans (hseat _ rfl a),
    fun a => (h.writers a).trans (hseat _ rfl a)⟩
  · obtain ⟨ask', hask', hfor⟩ := h.fits k job hmem
    have hlt := (List.getElem?_eq_some_iff.mp hask').1
    exact ⟨ask', by rw [getElem?_concat, if_neg (Nat.ne_of_lt hlt), hask'], hfor⟩
  · simp only [LinkDesk.issue, List.length_append, h.length, List.length_singleton]
  · rw [hcalls] at hk
    rw [getElem?_concat]
    split at hk
    · rename_i hlast
      rw [if_pos hlast]
      rcases hk with hk | hk <;> cases hk
      rfl
    · rename_i hne
      rw [if_neg hne]
      exact h.agrees k ask' hk

/-- The lines of the stream stay as they are. -/
theorem Seated.link (h : s.Seated asked) (hreaders : l.readers = s.link.readers)
    (hwriters : l.writers = s.link.writers) (hclosed : s.link.isClosed = true → l.isClosed = true)
    (held : l.isClosed = false → l.half = .held) :
    ({ s with link := l } : LinkDesk (StreamLink P)).Seated asked := by
  refine ⟨h.same (hreaders ▸ h.readers_once) hwriters hclosed held, h.length, h.agrees, ?_, ?_⟩
  · rw [hreaders]
    exact h.readers
  · rw [hwriters]
    exact h.writers

/-- A call comes to something that has to do with the read half. -/
theorem Seated.put_reads (h : s.Seated asked) (hc : s.calls[n]? = some c) (hw : c.works = false)
    (hw' : c'.works = false)
    (agrees : ∀ ask, c' = .issued ask ∨ c' = .underWay ask → asked[n]? = some ask)
    (readers : ∀ a, a ∈ l.readers ↔ if a = .call n then c'.reads = true else a ∈ s.link.readers)
    (readers_once : l.readers.Nodup) (hwriters : l.writers = s.link.writers)
    (hclosed : l.isClosed = s.link.isClosed) (hhalf : l.half = s.link.half) :
    (s.put n c' l).Seated asked := by
  refine h.put hc agrees readers ?_ (h.same readers_once hwriters (hclosed ▸ id) fun ho => ?_)
  · rw [hwriters]
    exact seat_of_out (h.out_writers hc hw) (by rw [hw']; nofun)
  · exact hhalf.trans (h.held (hclosed ▸ ho))

/-- A call that has not begun gets in line for the write half. -/
theorem Seated.put_joins (h : s.Seated asked) (job : StreamLink.Job)
    (hc : s.calls[n]? = some (.issued ask))
    (hworks : (Call.underWay ask).works = true) (hfor : job.For ask)
    (hwaits : ∀ rest, job ≠ .write rest true) (hreaders : l.readers = s.link.readers)
    (hwriters : l.writers = s.link.writers ++ [(.call n, job)])
    (hclosed : s.link.isClosed = true ∨ job = .shutdown → l.isClosed = true)
    (held : l.isClosed = false → l.half = .held) : (s.put n (.underWay ask) l).Seated asked := by
  have hask := h.agrees n ask (.inl hc)
  have hr : (Call.underWay ask).reads = false := by
    cases ask with
    | read => cases hworks
    | _ => rfl
  refine h.put hc (fun ask' ha => ?_) ?_ ?_
    (h.joins (h.out_writers hc rfl) hask hfor hwaits hreaders hwriters hclosed held)
  · rcases ha with ha | ha <;> cases ha
    exact hask
  · rw [hreaders]
    exact seat_of_out (h.out_readers hc rfl) (by rw [hr]; nofun)
  · rw [hwriters, List.map_append]
    exact seat_append hworks

/-- The first in line for the write half is through and leaves. -/
theorem Seated.put_leaves (h : s.Seated asked) {r : Except LinkError Answer}
    (hc : s.calls[n]? = some (.underWay ask)) (hask : ask ≠ .read)
    (hreaders : l.readers = s.link.readers) (line : s.link.writers = (.call n, job) :: l.writers)
    (hclosed : s.link.isClosed = true → l.isClosed = true)
    (held : l.isClosed = false → l.half = .held) : (s.put n (.ended r) l).Seated asked := by
  have hr : (Call.underWay ask).reads = false := by
    cases ask with
    | read => exact absurd rfl hask
    | _ => rfl
  refine h.put hc nofun ?_ ?_ (h.leaves line hreaders hclosed held)
  · rw [hreaders]
    exact seat_of_out (h.out_readers hc hr) nofun
  · have honce := h.writers_once
    rw [line] at honce ⊢
    exact seat_tail honce nofun

/-- The first in line for the write half goes on. -/
theorem Seated.put_goesOn (h : s.Seated asked) {bytes rest rest' : Bytes} {begun : Bool}
    (hc : s.calls[n]? = some (.underWay (.write bytes))) (hreaders : l.readers = s.link.readers)
    (line : s.link.writers = (.call n, .write rest begun) :: others)
    (line' : l.writers = (.call n, .write rest' true) :: others)
    (hclosed : l.isClosed = s.link.isClosed) (hhalf : l.half = s.link.half) :
    (s.put n (.underWay (.write bytes)) l).Seated asked := by
  refine h.put hc (fun ask ha => h.agrees n ask (.inr ?_)) ?_ ?_
    (h.goesOn line hreaders line' (hclosed ▸ id) fun ho => hhalf.trans (h.held (hclosed ▸ ho)))
  · rcases ha with ha | ha <;> cases ha
    exact hc
  · rw [hreaders]
    exact seat_of_out (h.out_readers hc rfl) nofun
  · rw [line, line']
    exact seat_of_in List.mem_cons_self rfl

/-- A call is given up that is in line. -/
theorem Seated.put_cancel [Port P] (h : s.Seated asked) (hc : s.calls[n]? = some (.underWay ask)) :
    (s.put n .aborted (s.link.cancel (.call n))).Seated asked := by
  refine h.put hc nofun (seat_erase h.readers_once nofun) (fun a => ?_) (h.cancel _)
  have hmem : a ∈ (s.link.cancel (.call n)).writers.map Prod.fst ↔
      a ≠ .call n ∧ a ∈ s.link.writers.map Prod.fst := by
    simp only [StreamLink.cancel, StreamLink.leave, List.mem_map, List.mem_filter,
      decide_eq_true_eq]
    constructor
    · rintro ⟨w, ⟨hw, hne⟩, rfl⟩
      exact ⟨hne, w, hw, rfl⟩
    · rintro ⟨hne, w, hw, rfl⟩
      exact ⟨w, ⟨hw, hne⟩, rfl⟩
  rw [hmem]
  split
  · rename_i ha
    exact iff_of_false (fun h => h.1 ha) nofun
  · rename_i ha
    exact and_iff_right ha

end Seats

section Steps

variable {P D : Type} [Port P] {far : P → D → P} {s s' : LinkDesk (StreamLink P)} {asked : List Ask}

/-! ### What one step does -/

/-- **What can happen at one time**, with what befalls the halves. -/
inductive Stirs (far : P → D → P) (s : LinkDesk (StreamLink P)) :
    Doing D → LinkDesk (StreamLink P) → List Note → Prop where
  | rests (d : Doing D) (quiet : asks [d] = []) : Stirs far s d s []
  | issues (ask : Ask) : Stirs far s (.issue ask) (s.issue ask) []
  | below (d : Doing D) (p : P) (quiet : asks [d] = [])
      (port : (∃ a, p = Port.helperMove s.link.port a) ∨ ∃ x, p = far s.link.port x) :
      Stirs far s d { s with link := { s.link with port := p } } []
  | finishes (half : s.link.half = .releasing) :
      Stirs far s (.move .release) { s with link := s.link.finishRelease }
        [.shuts (Port.shutdown s.link.port).2]
  | closesIdle (d : Doing D) (h : StreamLink.Half) (quiet : asks [d] = [])
      (how : d = .close ∧ h = .releasing ∨ d = .closeOutside ∧ h = .gone)
      (isOpen : s.link.isClosed = false) (idle : s.link.writers = []) :
      Stirs far s d { s with link := { s.link with isClosed := true, half := h } } [.takes none]
  | closesBusy (d : Doing D) (quiet : asks [d] = []) (how : d = .close ∨ d = .closeOutside)
      (isOpen : s.link.isClosed = false) (busy : s.link.writers ≠ []) :
      Stirs far s d { s with link := { s.link with isClosed := true } } []
  | refused (n : ℕ) (ask : Ask) (call : s.calls[n]? = some (.issued ask)) (kind : ask ≠ .shutdown)
      (closed : s.link.isClosed = true) :
      Stirs far s (.move (.call n)) (s.put n (.ended (.error .closed)) s.link) []
  | waits (n : ℕ) (call : s.calls[n]? = some (.issued .read)) (isOpen : s.link.isClosed = false) :
      Stirs far s (.move (.call n))
        (s.put n (.underWay .read) { s.link with readers := s.link.readers ++ [.call n] }) []
  | lines (n : ℕ) (bytes : Bytes) (call : s.calls[n]? = some (.issued (.write bytes)))
      (isOpen : s.link.isClosed = false) :
      Stirs far s (.move (.call n)) (s.put n (.underWay (.write bytes))
        { s.link with writers := s.link.writers ++ [(.call n, .write bytes false)] }) [.lines n]
  | shutsOff (n : ℕ) (call : s.calls[n]? = some (.issued .shutdown)) :
      Stirs far s (.move (.call n)) (s.put n (.underWay .shutdown) { s.link with
        isClosed := true, writers := s.link.writers ++ [(.call n, .shutdown)] }) []
  | wavers (flag : s.link.wavers = true) :
      Stirs far s (.move .chance) { s with link := { s.link with flagFirst := true } } []
  | interrupted (n : ℕ) (call : s.calls[n]? = some (.underWay .read))
      (flag : s.link.interrupts = true) :
      Stirs far s (.move (.call n)) (s.put n (.ended (.error .closed))
        { s.link with readers := s.link.readers.erase (.call n), flagFirst := false }) []
  | reads (n : ℕ) (p : P) (buffered : Bytes) (result : Except LinkError Answer) (drawn : List Note)
      (call : s.calls[n]? = some (.underWay .read)) (free : s.link.interrupts = false)
      (port : p = s.link.port ∨ p = (Port.read s.link.port).1)
      (drawing : drawn = [] ∨ drawn = [.draws n]) :
      Stirs far s (.move (.call n)) (s.put n (.ended result) { s.link with
        port := p, buffered, readers := s.link.readers.erase (.call n), flagFirst := false }) drawn
  | turns (n : ℕ) (bytes rest : Bytes) (others : List (Agent × StreamLink.Job))
      (call : s.calls[n]? = some (.underWay (.write bytes)))
      (line : s.link.writers = (.call n, .write rest false) :: others)
      (isOpen : s.link.isClosed = false) :
      Stirs far s (.move (.call n)) (s.put n (.underWay (.write bytes))
        { s.link with writers := (.call n, .write rest true) :: others }) []
  | late (n : ℕ) (bytes rest : Bytes) (others : List (Agent × StreamLink.Job))
      (half : StreamLink.Half) (letGo : List Note)
      (call : s.calls[n]? = some (.underWay (.write bytes)))
      (line : s.link.writers = (.call n, .write rest false) :: others)
      (closed : s.link.isClosed = true)
      (how : s.link.half = .held ∧ half = .releasing ∧ letGo = [.takes none] ∨
        s.link.half ≠ .held ∧ half = s.link.half ∧ letGo = []) :
      Stirs far s (.move (.call n)) (s.put n (.ended (.error .closed))
        { s.link with half, writers := others }) letGo
  | hands (n : ℕ) (bytes rest : Bytes) (others : List (Agent × StreamLink.Job)) (p : P) (k : ℕ)
      (call : s.calls[n]? = some (.underWay (.write bytes)))
      (line : s.link.writers = (.call n, .write rest true) :: others)
      (port : Port.write s.link.port rest = (p, .ok k)) :
      Stirs far s (.move (.call n)) (s.put n (.underWay (.write bytes)) { s.link with
        port := p, writers := (.call n, .write (rest.drop k) true) :: others })
        [.hands n (rest.take k)]
  | written (n : ℕ) (bytes : Bytes) (others : List (Agent × StreamLink.Job))
      (call : s.calls[n]? = some (.underWay (.write bytes)))
      (line : s.link.writers = (.call n, .write [] true) :: others) :
      Stirs far s (.move (.call n)) (s.put n (.ended (.ok .done))
        { s.link with writers := others }) []
  | fails (n : ℕ) (bytes rest : Bytes) (others : List (Agent × StreamLink.Job)) (p : P)
      (e : IoFault) (call : s.calls[n]? = some (.underWay (.write bytes)))
      (line : s.link.writers = (.call n, .write rest true) :: others)
      (port : p = s.link.port ∨ Port.write s.link.port rest = (p, .error e)) :
      Stirs far s (.move (.call n)) (s.put n (.ended (.error (.io e)))
        { s.link with port := p, writers := others }) []
  | takes (n : ℕ) (others : List (Agent × StreamLink.Job)) (result : Except LinkError Answer)
      (call : s.calls[n]? = some (.underWay .shutdown))
      (line : s.link.writers = (.call n, .shutdown) :: others) (held : s.link.half = .held)
      (outcome : ∀ e, result = .error e →
        ∃ f, (Port.shutdown s.link.port).2 = .error f ∧ e = .io f) :
      Stirs far s (.move (.call n)) (s.put n (.ended result) { s.link with
        port := (Port.shutdown s.link.port).1, half := .gone, writers := others })
        [.takes (some n), .shuts (Port.shutdown s.link.port).2]
  | comesLate (n : ℕ) (others : List (Agent × StreamLink.Job))
      (call : s.calls[n]? = some (.underWay .shutdown))
      (line : s.link.writers = (.call n, .shutdown) :: others) (half : s.link.half ≠ .held) :
      Stirs far s (.move (.call n)) (s.put n (.ended (.ok .done))
        { s.link with writers := others }) []
  | quits (n : ℕ) (ask : Ask) (call : s.calls[n]? = some (.issued ask)) :
      Stirs far s (.abort n) (s.put n .aborted s.link) []
  | cancels (n : ℕ) (ask : Ask) (call : s.calls[n]? = some (.underWay ask)) :
      Stirs far s (.abort n) (s.put n .aborted (s.link.cancel (.call n))) []

/-! ### Nothing else can happen -/

/-- A call in line for the write half that can move is the first there. -/
theorem Seated.first (h : s.Seated asked) {n : ℕ} {ask : Ask}
    (hc : s.calls[n]? = some (.underWay ask)) (hask : ask ≠ .read)
    (hr : s.link.ready (.call n) = true) :
    ∃ job others, s.link.writers = (.call n, job) :: others ∧ job.For ask ∧
      s.link.canWork job = true := by
  have hout : s.link.readers.head? ≠ some (.call n) := fun hhead => by
    obtain ⟨k, c, hk, hck, hreads⟩ := (h.readers _).mp (List.mem_of_mem_head? hhead)
    obtain rfl := Agent.call.inj hk
    rw [hc] at hck
    obtain rfl := Option.some.inj hck
    cases ask with
    | read => exact hask rfl
    | _ => cases hreads
  have hno : (s.link.readers.head? == some (.call n)) = false := by simpa using hout
  rw [StreamLink.ready, hno, Bool.false_and, Bool.false_or] at hr
  split at hr
  · rename_i b job others hline
    rw [Bool.and_eq_true, beq_iff_eq] at hr
    obtain ⟨rfl, hcan⟩ := hr
    obtain ⟨ask', hask', hfor⟩ := h.fits n job (hline ▸ List.mem_cons_self)
    obtain rfl := Option.some.inj ((h.agrees n ask (.inr hc)).symm.trans hask')
    exact ⟨job, others, hline, hfor, hcan⟩
  · cases hr

/-- A move of a call that begins. -/
theorem stirs_issued {n : ℕ} {ask : Ask} (hc : s.calls[n]? = some (.issued ask)) :
    Stirs far s (.move (.call n)) (s.moveCall n) (s.callNotes n) := by
  obtain ⟨⟨port, buffered, isClosed, half, readers, writers⟩, calls⟩ := s
  simp only [moveCall, callNotes, hc]
  cases isClosed with
  | true =>
    cases ask with
    | read => exact .refused n .read hc nofun rfl
    | write bytes => exact .refused n (.write bytes) hc nofun rfl
    | shutdown => exact .shutsOff n hc
  | false =>
    cases ask with
    | read => exact .waits n hc rfl
    | write bytes => exact .lines n bytes hc rfl
    | shutdown => exact .shutsOff n hc

/-- A move of a read. -/
theorem stirs_read {n : ℕ} (hc : s.calls[n]? = some (.underWay .read)) :
    Stirs far s (.move (.call n)) (s.moveCall n) (s.callNotes n) := by
  simp only [moveCall, callNotes, hc, Link.resumeRead, StreamLink.resumeRead]
  cases hflag : s.link.interrupts with
  | true => exact .interrupted n hc hflag
  | false =>
    cases hb : s.link.buffered with
    | cons b r =>
      simp only [StreamLink.draw]
      exact .reads n s.link.port r (.ok (.byte b)) [] hc hflag (.inl rfl) (.inl rfl)
    | nil =>
      have hdraws : ∀ (p : P) (r : Bytes) (result : Except LinkError Answer),
          p = (Port.read s.link.port).1 →
          Stirs far s (.move (.call n)) (s.put n (.ended result) { s.link with
            port := p
            buffered := r
            readers := s.link.readers.erase (.call n)
            flagFirst := false }) [.draws n] :=
        fun p r result hp => .reads n p r result [.draws n] hc hflag (.inr hp) (.inr rfl)
      simp only [StreamLink.draw]
      generalize Port.read s.link.port = q at hdraws
      obtain ⟨p, e | (_ | ⟨b, r⟩)⟩ := q
      · exact hdraws p [] (.error (.io e)) rfl
      · exact hdraws p [] (.error .closed) rfl
      · exact hdraws p r (.ok (.byte b)) rfl

/-- A move of a write. -/
theorem Seated.stirs_write (h : s.Seated asked) {n : ℕ} {bytes : Bytes}
    (hc : s.calls[n]? = some (.underWay (.write bytes))) (hr : s.link.ready (.call n) = true) :
    Stirs far s (.move (.call n)) (s.moveCall n) (s.callNotes n) := by
  obtain ⟨job, others, hline, hfor, hcan⟩ := h.first hc nofun hr
  have honce := h.writers_once
  have hheld := h.held
  obtain ⟨⟨port, buffered, isClosed, half, readers, writers, first⟩, calls⟩ := s
  obtain rfl : writers = (.call n, job) :: others := hline
  have hleave : ∀ port isClosed half, (⟨port, buffered, isClosed, half, readers,
      (.call n, job) :: others, first⟩ : StreamLink P).leave (.call n)
        = ⟨port, buffered, isClosed, half, readers, others, first⟩ := fun port isClosed half =>
    leave_head rfl honce
  simp only [moveCall, callNotes, hc, Link.resumeWrite, StreamLink.resumeWrite, writeNotes]
  cases job with
  | shutdown => exact hfor.elim
  | write rest begun =>
    cases begun with
    | false =>
      cases isClosed with
      | true =>
        have hlate : ∀ h letGo, half = .held ∧ h = .releasing ∧ letGo = [.takes none] ∨
            half ≠ .held ∧ h = half ∧ letGo = [] →
            Stirs far ⟨⟨port, buffered, true, half, readers,
              (.call n, .write rest false) :: others, first⟩, calls⟩ (.move (.call n))
              ⟨⟨port, buffered, true, h, readers, others, first⟩,
                calls.set n (.ended (.error .closed))⟩ letGo :=
          fun h letGo how => .late n bytes rest others h letGo hc rfl rfl how
        cases half with
        | held =>
          simpa [StreamLink.release, hleave, Call.after] using hlate _ _ (.inl ⟨rfl, rfl, rfl⟩)
        | releasing | gone =>
          simpa [StreamLink.release, hleave, Call.after] using hlate _ _ (.inr ⟨nofun, rfl, rfl⟩)
      | false =>
        obtain rfl := hheld rfl
        exact .turns n bytes rest others hc rfl rfl
    | true =>
      have hfails : ∀ (p : P) (e : IoFault), p = port ∨ Port.write port rest = (p, .error e) →
          Stirs far ⟨⟨port, buffered, isClosed, half, readers,
            (.call n, .write rest true) :: others, first⟩, calls⟩ (.move (.call n))
            ⟨⟨p, buffered, isClosed, half, readers, others, first⟩,
              calls.set n (.ended (.error (.io e)))⟩ [] :=
        fun p e hp => .fails n bytes rest others p e hc rfl hp
      cases rest with
      | nil =>
        cases hflush : Port.flush port with
        | ok u =>
          simp only [hleave]
          exact .written n bytes others hc rfl
        | error e =>
          simp only [hleave]
          exact hfails port e (.inl rfl)
      | cons b r =>
        dsimp only
        cases hwrite : Port.write port (b :: r) with
        | mk p q =>
          cases q with
          | ok k => exact .hands n bytes (b :: r) others p k hc rfl hwrite
          | error e =>
            simp only [hleave]
            exact hfails p e (.inr hwrite)

/-- A move of a shutdown. -/
theorem Seated.stirs_shutdown (h : s.Seated asked) {n : ℕ}
    (hc : s.calls[n]? = some (.underWay .shutdown)) (hr : s.link.ready (.call n) = true) :
    Stirs far s (.move (.call n)) (s.moveCall n) (s.callNotes n) := by
  obtain ⟨job, others, hline, hfor, hcan⟩ := h.first hc nofun hr
  cases job with
  | write rest begun => exact hfor.elim
  | shutdown =>
    simp only [moveCall, callNotes, hc, Link.resumeShutdown, StreamLink.resumeShutdown]
    by_cases hheld : s.link.half = .held
    · simp only [if_pos hheld]
      have htakes : ∀ {p : P} {r : Except LinkError Answer}, p = (Port.shutdown s.link.port).1 →
          (∀ e, r = .error e → ∃ f, (Port.shutdown s.link.port).2 = .error f ∧ e = .io f) →
          Stirs far s (.move (.call n)) (s.put n (.ended r)
            (StreamLink.leave { s.link with port := p, half := .gone } (.call n)))
            [.takes (some n), .shuts (Port.shutdown s.link.port).2] := fun {p r} hp hr => by
        rw [leave_head (l := { s.link with port := p, half := .gone }) hline h.writers_once, hp]
        exact .takes n others r hc hline hheld hr
      generalize Port.shutdown s.link.port = q at htakes
      obtain ⟨p, e | _⟩ := q
      · exact htakes rfl fun e' he => ⟨e, rfl, (Except.error.inj he).symm⟩
      · exact htakes rfl nofun
    · simp only [if_neg hheld]
      rw [leave_head hline h.writers_once]
      exact .comesLate n others hc hline hheld

/-- The stream is closed, from within or from outside. -/
theorem Seated.stirs_close (h : s.Seated asked) :
    Stirs far s .close (s.does far .close) (s.notes (.close : Doing D)) ∧
      Stirs far s .closeOutside (s.does far .closeOutside)
        (s.notes (.closeOutside : Doing D)) := by
  have hheld := h.held
  obtain ⟨⟨port, buffered, isClosed, half, readers, writers⟩, calls⟩ := s
  cases isClosed with
  | true => exact ⟨.rests _ rfl, .rests _ rfl⟩
  | false =>
    obtain rfl := hheld rfl
    cases writers with
    | nil =>
      exact ⟨.closesIdle _ .releasing rfl (.inl ⟨rfl, rfl⟩) rfl rfl,
        .closesIdle _ .gone rfl (.inr ⟨rfl, rfl⟩) rfl rfl⟩
    | cons w r =>
      exact ⟨.closesBusy _ rfl (.inl rfl) rfl nofun, .closesBusy _ rfl (.inr rfl) rfl nofun⟩

/-- A move of a call. -/
theorem Seated.stirs_call (h : s.Seated asked) {n : ℕ} (hr : s.callReady n = true) :
    Stirs far s (.move (.call n)) (s.moveCall n) (s.callNotes n) := by
  unfold callReady at hr
  split at hr
  · rename_i ask hc
    exact stirs_issued hc
  · rename_i ask hc
    cases ask with
    | read => exact stirs_read hc
    | write bytes => exact h.stirs_write hc hr
    | shutdown => exact h.stirs_shutdown hc hr
  · cases hr

/-- A move of somebody below. -/
theorem stirs_below {a : Agent} (ha : ∀ n, a ≠ .call n) (hr : Link.helperReady s.link a = true) :
    Stirs far s (.move a) { s with link := Link.helperMove s.link a }
      (s.notes (.move a : Doing D)) := by
  cases a with
  | call n => exact absurd rfl (ha n)
  | release =>
    have hhalf : s.link.half = .releasing := by
      simpa [Link.helperReady, StreamLink.helperReady] using hr
    simp only [notes, if_pos hhalf]
    exact .finishes hhalf
  | chance => exact .wavers hr
  | reader | porter | farWriter | farReader => exact .below (.move _) _ rfl (.inl ⟨_, rfl⟩)

/-- **What happens is one of these.** -/
theorem Seated.stirs (h : s.Seated asked) (far : P → D → P) (d : Doing D) :
    Stirs far s d (s.does far d) (s.notes d) := by
  cases d with
  | issue ask => exact .issues ask
  | far d => exact .below (.far d) _ rfl (.inr ⟨d, rfl⟩)
  | abort n =>
    simp only [does, LinkDesk.abort]
    split
    · rename_i ask hc
      exact .quits n ask hc
    · rename_i ask hc
      exact .cancels n ask hc
    · exact .rests (.abort n) rfl
  | close => exact h.stirs_close.1
  | closeOutside => exact h.stirs_close.2
  | move a =>
    by_cases hr : Interplay.ready s a = true
    · rw [does, if_pos hr]
      by_cases hcall : ∃ n, a = .call n
      · obtain ⟨n, rfl⟩ := hcall
        have hready : s.callReady n = true := hr
        simp only [notes, if_pos hready]
        exact h.stirs_call hready
      · have hne : ∀ n, a ≠ .call n := fun n ha => hcall ⟨n, ha⟩
        cases a with
        | call n => exact absurd rfl (hne n)
        | reader | release | porter | chance | farWriter | farReader => exact stirs_below hne hr
    · rw [does, if_neg hr]
      have hnotes : s.notes (.move a : Doing D) = [] := by
        cases a with
        | call n => exact if_neg hr
        | release =>
          refine if_neg fun hhalf => hr ?_
          simp [Interplay.ready, Link.helperReady, StreamLink.helperReady, hhalf]
        | reader | porter | chance | farWriter | farReader => rfl
      rw [hnotes]
      exact .rests (.move a) rfl

/-- Only a call that is issued asks for something. -/
theorem Stirs.issues_or {d : Doing D} {log : List Note} (hs : Stirs far s d s' log) :
    (∃ ask, d = .issue ask ∧ s' = s.issue ask ∧ log = []) ∨ asks [d] = [] := by
  cases hs with
  | issues ask => exact .inl ⟨ask, rfl, rfl, rfl⟩
  | rests d quiet | below d p quiet | closesIdle d h quiet | closesBusy d quiet => exact .inr quiet
  | _ => exact .inr rfl

/-! ### The lines stay in order -/

/-- **The lines stay in order.** -/
theorem Stirs.seated {d : Doing D} {log : List Note} (hs : Stirs far s d s' log)
    (h : s.Seated asked) : s'.Seated (asked ++ asks [d]) := by
  obtain ⟨ask, rfl, rfl, rfl⟩ | hnone := hs.issues_or
  · exact h.issue ask
  rw [hnone, List.append_nil]
  cases hs with
  | rests d quiet => exact h
  | issues ask => cases hnone
  | below d p quiet port => exact h.link rfl rfl id h.held
  | finishes half =>
    refine h.link rfl rfl id fun ho => ?_
    rw [h.held ho] at half
    cases half
  | closesIdle d h' quiet how isOpen idle => exact h.link rfl rfl (fun _ => rfl) nofun
  | closesBusy d quiet how isOpen busy => exact h.link rfl rfl (fun _ => rfl) nofun
  | refused n ask call kind closed =>
    exact h.put_reads call rfl rfl nofun (seat_of_out (h.out_readers call rfl) nofun)
      h.readers_once rfl rfl rfl
  | waits n call isOpen =>
    have hout := h.out_readers call rfl
    refine h.put_reads call rfl rfl (fun ask ha => ?_) (seat_append rfl) ?_ rfl rfl rfl
    · rcases ha with ha | ha <;> cases ha
      exact h.agrees n .read (.inl call)
    · refine List.nodup_append.mpr ⟨h.readers_once, List.nodup_singleton _, fun a ha b hb hab => ?_⟩
      rw [List.mem_singleton.mp hb] at hab
      exact hout (hab ▸ ha)
  | lines n bytes call isOpen =>
    refine h.put_joins (.write bytes false) call rfl trivial nofun rfl rfl ?_ h.held
    rintro (hc | hc)
    · exact hc
    · cases hc
  | shutsOff n call =>
    exact h.put_joins .shutdown call rfl trivial nofun rfl rfl (fun _ => rfl) nofun
  | wavers flag => exact h.link rfl rfl id h.held
  | interrupted n call flag =>
    exact h.put_reads call rfl rfl nofun (seat_erase h.readers_once nofun)
      (h.readers_once.erase _) rfl rfl rfl
  | reads n p buffered result drawn call free port drawing =>
    exact h.put_reads call rfl rfl nofun (seat_erase h.readers_once nofun)
      (h.readers_once.erase _) rfl rfl rfl
  | turns n bytes rest others call line isOpen =>
    exact h.put_goesOn call rfl line rfl rfl rfl
  | late n bytes rest others half letGo call line closed how =>
    exact h.put_leaves call nofun rfl line id fun ho => absurd (closed.symm.trans ho) nofun
  | hands n bytes rest others p k call line port =>
    exact h.put_goesOn call rfl line rfl rfl rfl
  | written n bytes others call line =>
    exact h.put_leaves call nofun rfl line id h.held
  | fails n bytes rest others p e call line port =>
    exact h.put_leaves call nofun rfl line id h.held
  | takes n others result call line held outcome =>
    have hclosed := h.shuts (.call n) (line ▸ List.mem_cons_self)
    exact h.put_leaves call nofun rfl line id fun ho =>
      absurd (hclosed.symm.trans ho) nofun
  | comesLate n others call line half =>
    exact h.put_leaves call nofun rfl line id h.held
  | quits n ask call =>
    exact h.put_reads call rfl rfl nofun (seat_of_out (h.out_readers call rfl) nofun)
      h.readers_once rfl rfl rfl
  | cancels n ask call => exact h.put_cancel call

/-! ### Runs -/

/-- A new stream on a port. -/
def onPort (p : P) : LinkDesk (StreamLink P) := { link := { port := p } }

omit [Port P] in
theorem seated_onPort (p : P) : (onPort p).Seated [] where
  readers_once := List.nodup_nil
  writers_once := List.nodup_nil
  fits _ _ := nofun
  behind _ _ _ := nofun
  shuts _ := nofun
  held _ := rfl
  length := rfl
  agrees _ _ h := by rcases h with h | h <;> cases h
  readers _ := iff_of_false nofun (by rintro ⟨_, _, -, h, -⟩; cases h)
  writers _ := iff_of_false nofun (by rintro ⟨_, _, -, h, -⟩; cases h)

theorem asks_append (ds es : List (Doing D)) : asks (ds ++ es) = asks ds ++ asks es :=
  List.filterMap_append

/-- **What every step keeps is kept by a run.** -/
theorem Seated.run (h : s.Seated asked) (far : P → D → P)
    {I : LinkDesk (StreamLink P) → List Ask → List Note → Prop} (log : List Note)
    (hI : I s asked log) (ds : List (Doing D))
    (hstep : ∀ {s s' : LinkDesk (StreamLink P)} {asked log d new}, d ∈ ds → s.Seated asked →
      I s asked log → Stirs far s d s' new → I s' (asked ++ asks [d]) (log ++ new)) :
    (s.throughout far ds).Seated (asked ++ asks ds) ∧
      I (s.throughout far ds) (asked ++ asks ds) (log ++ s.logged far ds) := by
  induction ds generalizing s asked log with
  | nil => simpa only [asks, logged, List.filterMap_nil, List.append_nil] using ⟨h, hI⟩
  | cons d ds ih =>
    have hs := h.stirs far d
    have hrest := ih (hs.seated h) _ (hstep List.mem_cons_self h hI hs) fun hd =>
      hstep (List.mem_cons_of_mem _ hd)
    rw [List.append_assoc, List.append_assoc, ← asks_append] at hrest
    exact hrest

/-- The lines stay in order throughout a run. -/
theorem Seated.throughout (h : s.Seated asked) (far : P → D → P) (ds : List (Doing D)) :
    (s.throughout far ds).Seated (asked ++ asks ds) :=
  (h.run far (I := fun _ _ _ => True) [] trivial ds fun _ _ _ _ => trivial).1

end Steps

end LinkDesk

end ProbeLink
