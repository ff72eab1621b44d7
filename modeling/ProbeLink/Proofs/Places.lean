/-
# The line before a stream over a pipe

On a pipe a write can be kept waiting in the middle, fail because the link is closed or the
far end is gone, or be given up with a part of its bytes in the pipe. The far end reads any
number of bytes at a time, or none, and goes whenever it likes (`Pipe.Doing`).

Whatever happens, only the first in line before the link has a write below, at most one
write is below, and what it has put in the pipe and what it has still to write make up what
stands to be written (`Outlet.Places`). So the bytes in the pipe are what was written whole,
what was left behind in the middle, and a beginning of what is being written
(`Outlet.Laid`).

Key definitions: `Pipe.Doing`, `StreamLink.writing`, `Outlet.Places`, `Outlet.Laid`.
Key theorems: `StreamLink.writes_resume`, `Outlet.Places.move`, `Outlet.Laid.move`,
`Outlet.Laid.leave`.
-/
import ProbeLink.Proofs.Smooth

namespace ProbeLink

/-! ### The far end of a pipe -/

/-- What the far end of a pipe can do. -/
inductive Pipe.Doing where
  | offer (bytes : Bytes)
  | stall
  | resume
  | hangUp
  | endStream
  /-- Reads at most so many bytes. -/
  | read (most : ℕ)
  deriving DecidableEq, Repr

namespace Pipe

/-- Lets the far end read at most so many bytes. -/
def readMost (p : Pipe) (most : ℕ) : Pipe :=
  if p.gone then p
  else { p with
    received := p.received ++ p.outbound.take most
    outbound := p.outbound.drop most }

/-- The far end does something. -/
def does (p : Pipe) : Doing → Pipe
  | .offer bytes => p.offer bytes
  | .stall => p.stall
  | .resume => p.resume
  | .hangUp => p.hangUp
  | .endStream => p.endStream
  | .read most => p.readMost most

/-- Nothing that the far end does changes what was written, and it goes for good. -/
theorem taken_does (p : Pipe) (d : Doing) :
    Port.taken (p.does d) = Port.taken p ∧ (p.gone = true → (p.does d).gone = true) := by
  cases d with
  | offer bytes =>
    simp only [does, offer]
    split
    · exact ⟨rfl, id⟩
    · exact ⟨rfl, id⟩
  | read most =>
    simp only [does, readMost]
    split
    · exact ⟨rfl, id⟩
    · refine ⟨?_, id⟩
      show (p.received ++ p.outbound.take most) ++ p.outbound.drop most = p.received ++ p.outbound
      rw [List.append_assoc, List.take_append_drop]
  | hangUp => exact ⟨rfl, fun _ => rfl⟩
  | stall | resume | endStream => exact ⟨rfl, id⟩

/-- Nor does what the far end does by itself. -/
theorem taken_helperMove (p : Pipe) (a : Agent) :
    Port.taken (Port.helperMove p a) = Port.taken p ∧ (Port.helperMove p a).gone = p.gone := by
  cases a with
  | farWriter =>
    simp only [Port.helperMove, farWrite]
    split
    · exact ⟨rfl, rfl⟩
    · exact ⟨rfl, rfl⟩
  | farReader => exact ⟨List.append_nil _, rfl⟩
  | reader | call n | release | porter | chance => exact ⟨rfl, rfl⟩

end Pipe

/-! ### The write below -/

namespace StreamLink

/-- The write of somebody in line for the write half: who writes, what is left, and whether
the turn has come. -/
def write? : Agent × Job → Option (Agent × Bytes × Bool)
  | (a, .write rest begun) => some (a, rest, begun)
  | (_, .shutdown) => none

section Lines

variable {P : Type}

/-- The writes in line for the write half. -/
def writing (l : StreamLink P) : List (Agent × Bytes × Bool) := l.writers.filterMap write?

variable {l : StreamLink P} {a : Agent}

theorem writing_leave (l : StreamLink P) (a : Agent) :
    (l.leave a).writing = l.writing.filter fun u => u.1 ≠ a := by
  have hlines : ∀ ws : List (Agent × Job), (ws.filter fun w => w.1 ≠ a).filterMap write?
      = (ws.filterMap write?).filter fun u => u.1 ≠ a := by
    intro ws
    induction ws with
    | nil => rfl
    | cons w ws ih =>
      obtain ⟨b, job⟩ := w
      by_cases hb : b = a <;> cases job <;> simp [write?, hb] at ih ⊢ <;> exact ih
  exact hlines l.writers

theorem shutdown_leave {b : Agent} (h : (b, .shutdown) ∈ (l.leave a).writers) :
    b ≠ a ∧ (b, .shutdown) ∈ l.writers := by
  obtain ⟨hb, hne⟩ := List.mem_filter.mp h
  exact ⟨by simpa using hne, hb⟩

/-- Whoever may be moved on and does not read is first in line for the write half. -/
theorem first_of_ready [Port P] (hr : l.ready a = true) (ha : l.readers.head? ≠ some a) :
    ∃ job others, l.writers = (a, job) :: others ∧ l.canWork job = true := by
  unfold ready at hr
  have hhead : (l.readers.head? == some a) = false := by simpa using ha
  rw [hhead, Bool.false_and, Bool.false_or] at hr
  split at hr
  · rename_i b job others hw
    simp only [Bool.and_eq_true, beq_iff_eq] at hr
    exact ⟨job, others, hr.1 ▸ hw, hr.2⟩
  · cases hr

end Lines

variable {l l' : StreamLink Pipe} {a : Agent} {rest : Bytes} {begun : Bool}

/-- One link leads to another: bytes were put in the pipe, and these writes are in line for
the write half. -/
structure Becomes (l : StreamLink Pipe) (now : Bytes) (u : List (Agent × Bytes × Bool))
    (l' : StreamLink Pipe) : Prop where
  taken : Port.taken l'.port = Port.taken l.port ++ now
  gone : l'.port.gone = l.port.gone
  readers : l'.readers = l.readers
  writing : l'.writing = u
  shuts : ∀ a, (a, .shutdown) ∈ l'.writers → (a, .shutdown) ∈ l.writers

/-- What a move of a write leaves: it is refused as long as its turn has not come, or its
turn comes; then it goes on in the pipe, is over, or fails because the far end is gone. -/
inductive Writes (l : StreamLink Pipe) (a : Agent) (rest : Bytes) :
    Bool → StreamLink Pipe × Progress Unit → Prop where
  | refused {l' : StreamLink Pipe} (link : l.Becomes [] [] l') :
      Writes l a rest false (l', some (.error .closed))
  | turn {l' : StreamLink Pipe} (link : l.Becomes [] [(a, rest, true)] l') :
      Writes l a rest false (l', none)
  | puts {l' : StreamLink Pipe} {now left : Bytes} (here : l.port.gone = false)
      (split : rest = now ++ left) (link : l.Becomes now [(a, left, true)] l') :
      Writes l a rest true (l', none)
  | through {l' : StreamLink Pipe} (all : rest = []) (link : l.Becomes [] [] l') :
      Writes l a rest true (l', some (.ok ()))
  | broken {l' : StreamLink Pipe} (gone : l.port.gone = true) (link : l.Becomes [] [] l') :
      Writes l a rest true (l', some (.error (.io .brokenPipe)))

/-- Whoever alone writes is out of the line when it leaves. -/
theorem becomes_leave (hone : l.writing = [(a, rest, begun)]) {k : StreamLink Pipe}
    (hwriters : k.writers = l.writers) (hreaders : k.readers = l.readers)
    (htaken : Port.taken k.port = Port.taken l.port) (hgone : k.port.gone = l.port.gone) :
    l.Becomes [] [] (k.leave a) := by
  refine ⟨htaken.trans (List.append_nil _).symm, hgone, hreaders, ?_, fun b hb => ?_⟩
  · have hsame : k.writing = [(a, rest, begun)] := by rw [writing, hwriters, ← writing, hone]
    rw [writing_leave, hsame]
    simp
  · exact hwriters ▸ (shutdown_leave hb).2

/-- Whoever alone writes stays first in line with what is left. -/
theorem becomes_keep {others : List (Agent × Job)}
    (hfirst : l.writers = (a, .write rest begun) :: others)
    (hone : l.writing = [(a, rest, begun)]) {p : Pipe} {left now : Bytes}
    (htaken : Port.taken p = Port.taken l.port ++ now) (hgone : p.gone = l.port.gone) :
    l.Becomes now [(a, left, true)]
      (({ l with port := p } : StreamLink Pipe).keepWriting a left) := by
  have hothers : others.filterMap write? = [] := by
    have hcons : l.writing = (a, rest, begun) :: others.filterMap write? := by
      rw [writing, hfirst]
      rfl
    exact (List.cons.inj (hcons.symm.trans hone)).2
  have hline : (({ l with port := p } : StreamLink Pipe).keepWriting a left).writers
      = (a, .write left true) :: others := by
    simp only [keepWriting, hfirst, List.tail_cons]
  refine ⟨htaken, hgone, rfl, ?_, fun b hb => ?_⟩
  · rw [writing, hline]
    show (a, left, true) :: others.filterMap write? = [(a, left, true)]
    rw [hothers]
  · rw [hline] at hb
    rcases List.mem_cons.mp hb with hb | hb
    · cases hb
    · rw [hfirst]
      exact List.mem_cons_of_mem _ hb

/-- The turn of a write comes, or the write is refused because the link is closed. -/
theorem writes_turn {others : List (Agent × Job)}
    (hfirst : l.writers = (a, .write rest false) :: others)
    (hone : l.writing = [(a, rest, false)]) : l.Writes a rest false (l.resumeWrite a) := by
  by_cases hclosed : l.isClosed = true
  · have hr : l.resumeWrite a = (l.release.leave a, some (.error .closed)) := by
      simp only [resumeWrite, hfirst, hclosed, if_true]
    rw [hr]
    refine .refused (becomes_leave hone ?_ ?_ ?_ ?_) <;> unfold release <;> split <;> rfl
  · by_cases hheld : l.half = .held
    · have hr : l.resumeWrite a = (l.keepWriting a rest, none) := by
        simp [resumeWrite, hfirst, hclosed, hheld]
      rw [hr]
      exact .turn (becomes_keep (p := l.port) hfirst hone (List.append_nil _).symm rfl)
    · have hr : l.resumeWrite a = (l.leave a, some (.error .closed)) := by
        simp [resumeWrite, hfirst, hclosed, hheld]
      rw [hr]
      exact .refused (becomes_leave hone rfl rfl rfl rfl)

/-- A write whose turn has come puts in the pipe what there is room for, is over, or fails
because the far end is gone. -/
theorem writes_on {others : List (Agent × Job)}
    (hfirst : l.writers = (a, .write rest true) :: others)
    (hone : l.writing = [(a, rest, true)]) : l.Writes a rest true (l.resumeWrite a) := by
  cases rest with
  | nil =>
    have hr : l.resumeWrite a = (l.leave a, some (.ok ())) := by
      simp only [resumeWrite, hfirst, Port.flush]
    rw [hr]
    exact .through rfl (becomes_leave hone rfl rfl rfl rfl)
  | cons b r =>
    cases hgone : l.port.gone with
    | true =>
      have hr : l.resumeWrite a = (l.leave a, some (.error (.io .brokenPipe))) := by
        simp only [resumeWrite, hfirst, Port.write, Pipe.write, hgone, if_true, leave]
      rw [hr]
      exact .broken hgone (becomes_leave hone rfl rfl rfl rfl)
    | false =>
      set room := l.port.capacity - l.port.outbound.length with hroom
      have hr : l.resumeWrite a = (({ l with port := { l.port with
            outbound := l.port.outbound ++ (b :: r).take room } } : StreamLink Pipe).keepWriting a
          ((b :: r).drop ((b :: r).take room).length), none) := by
        simp only [resumeWrite, hfirst, Port.write, Pipe.write, hgone, Bool.false_eq_true,
          if_false, ← hroom]
      have hputs : Port.taken ({ l.port with
          outbound := l.port.outbound ++ (b :: r).take room } : Pipe)
            = Port.taken l.port ++ (b :: r).take room := (List.append_assoc _ _ _).symm
      rw [hr]
      refine .puts hgone ?_ (becomes_keep hfirst hone hputs rfl)
      exact (List.prefix_iff_eq_append.mp (List.take_prefix room (b :: r))).symm

/-- **A write that is moved on** when no other write is in line. -/
theorem writes_resume {others : List (Agent × Job)}
    (hfirst : l.writers = (a, .write rest begun) :: others)
    (hone : l.writing = [(a, rest, begun)]) : l.Writes a rest begun (l.resumeWrite a) := by
  cases begun with
  | false => exact writes_turn hfirst hone
  | true => exact writes_on hfirst hone

end StreamLink

/-! ### The line before the link -/

namespace Outlet

open StreamLink

/-- The line and the link agree: only the first in line has a write below, if its turn has
come, and it has put `put` in the pipe behind `base`. What is in the pipe no longer matters
once the far end is gone. -/
structure Places (w : Outlet) (l : StreamLink Pipe) (reads : Bool) (shuts : Agent → Prop)
    (base put : Bytes) : Prop where
  taken : Port.taken l.port = base ++ put
  behind : ∀ e ∈ w.line.tail, e.begun = false
  readers : l.readers = if reads then [.reader] else []
  shuts : ∀ a, (a, .shutdown) ∈ l.writers → shuts a
  idle : (∀ e, w.line.head? = some e → e.begun = false) →
    l.writing = [] ∧ (l.port.gone = true ∨ put = [])
  busy : ∀ e, w.line.head? = some e → e.begun = true → ∃ rest begun,
    l.writing = [(e.agent, rest, begun)] ∧
      (l.port.gone = true ∨ w.bytes e = put ++ rest ∧ (begun = false → put = []))

variable {w : Outlet} {l l' : StreamLink Pipe} {reads reads' : Bool} {shuts shuts' : Agent → Prop}
  {base put bytes : Bytes} {a : Agent} {o : Outgoing} {r : List Entry}

/-- A change below that writes nothing and leaves the write in line alone. -/
theorem Places.link (h : w.Places l reads shuts base put)
    (htaken : Port.taken l'.port = Port.taken l.port)
    (hgone : l.port.gone = true → l'.port.gone = true) (hwriting : l'.writing = l.writing)
    (hreaders : l'.readers = if reads' then [.reader] else [])
    (hshuts : ∀ a, (a, .shutdown) ∈ l'.writers → shuts' a) :
    w.Places l' reads' shuts' base put where
  taken := htaken.trans h.taken
  behind := h.behind
  readers := hreaders
  shuts := hshuts
  idle hi := by
    obtain ⟨hnone, hput⟩ := h.idle hi
    exact ⟨hwriting.trans hnone, hput.imp_left hgone⟩
  busy e he hb := by
    obtain ⟨rest, begun, hone, hput⟩ := h.busy e he hb
    exact ⟨rest, begun, hwriting.trans hone, hput.imp_left hgone⟩

/-- Joining the line changes nothing for the first. -/
theorem Places.enter (h : w.Places l reads shuts base put) (a : Agent) (o : Outgoing) :
    (w.enter a o).Places l reads shuts base put where
  taken := h.taken
  behind := behind_enter h.behind a o
  readers := h.readers
  shuts := h.shuts
  idle hi := h.idle fun e he => by
    obtain ⟨r, hr⟩ := List.head?_eq_some_iff.mp he
    obtain ⟨r', hr'⟩ := head_enter (a := a) (o := o) hr
    exact hi e (by rw [hr']; rfl)
  busy e he hb := by
    obtain ⟨r, hr⟩ := List.head?_eq_some_iff.mp he
    obtain ⟨r', hr'⟩ := head_of_enter hr hb
    exact h.busy e (by rw [hr']; rfl) hb

/-- When the write below is over, nobody's turn has come. -/
theorem places_idle {v : Outlet} (hline : v.line = r) (hbehind : ∀ e ∈ r, e.begun = false)
    (htaken : Port.taken l.port = base ++ put)
    (hreaders : l.readers = if reads then [.reader] else [])
    (hshuts : ∀ a, (a, .shutdown) ∈ l.writers → shuts a) (hnone : l.writing = [])
    (hput : l.port.gone = true ∨ put = []) : v.Places l reads shuts base put := by
  subst hline
  refine ⟨htaken, fun e he => hbehind e (List.mem_of_mem_tail he), hreaders, hshuts,
    fun _ => ⟨hnone, hput⟩, fun e he hb => ?_⟩
  rw [hbehind e (List.mem_of_mem_head? he)] at hb
  cases hb

/-- The first in line has a write below. -/
theorem places_busy {v : Outlet} {rest : Bytes} {begun : Bool} (hline : v.line = ⟨a, o, true⟩ :: r)
    (hbehind : ∀ e ∈ r, e.begun = false) (htaken : Port.taken l.port = base ++ put)
    (hreaders : l.readers = if reads then [.reader] else [])
    (hshuts : ∀ a, (a, .shutdown) ∈ l.writers → shuts a) (hone : l.writing = [(a, rest, begun)])
    (hput : l.port.gone = true ∨ v.bytes ⟨a, o, true⟩ = put ++ rest ∧ (begun = false → put = [])) :
    v.Places l reads shuts base put := by
  refine ⟨htaken, fun e he => ?_, hreaders, hshuts, fun hi => ?_, fun e he _ => ?_⟩
  · rw [hline] at he
    exact hbehind e he
  · have hfirst := hi ⟨a, o, true⟩ (by rw [hline]; rfl)
    cases hfirst
  · rw [hline] at he
    obtain rfl := Option.some.inj he
    exact ⟨rest, begun, hone, hput⟩

/-- What a move of the first in line leaves: its write goes on, or is over and in the pipe,
or there was nothing to write again, or it fails because the link is closed or the far end
is gone. -/
inductive Goes (reads : Bool) (shuts : Agent → Prop) (base put bytes : Bytes) (a : Agent)
    (o : Outgoing) (r : List Entry) : Outlet × StreamLink Pipe × Progress Written → Prop where
  | on {v : Outlet} {l : StreamLink Pipe} {put' : Bytes} (line : v.line = ⟨a, o, true⟩ :: r)
      (begins : put' = put ∨ put' <+: bytes) (places : v.Places l reads shuts base put') :
      Goes reads shuts base put bytes a o r (v, l, none)
  | through {v : Outlet} {l : StreamLink Pipe} {base' put' : Bytes} (line : v.line = r)
      (whole : base' = base ++ bytes ∧ put' = [] ∨ base' = base ∧ put' = put)
      (places : v.Places l reads shuts base' put') :
      Goes reads shuts base put bytes a o r (v, l, some (.ok .sent))
  | nothing {v : Outlet} {l : StreamLink Pipe} (line : v.line = r)
      (places : v.Places l reads shuts base put) :
      Goes reads shuts base put bytes a o r (v, l, some (.ok .nothing))
  | fails {v : Outlet} {l : StreamLink Pipe} {e : LinkError} (line : v.line = r)
      (why : e = .closed ∨ e = .io .brokenPipe ∧ l.port.gone = true)
      (places : v.Places l reads shuts base put) :
      Goes reads shuts base put bytes a o r (v, l, some (.error e))

/-- The turn of the first in line comes, and its write begins. -/
theorem goes_begins {v : Outlet} (hline : v.line = ⟨a, o, true⟩ :: r)
    (hbehind : ∀ e ∈ r, e.begun = false) (hout : ∀ e ∈ r, e.agent ≠ a)
    (hbytes : v.bytes ⟨a, o, true⟩ = bytes) (htaken : Port.taken l.port = base ++ put)
    (hreaders : l.readers = if reads then [.reader] else [])
    (hshuts : ∀ a, (a, .shutdown) ∈ l.writers → shuts a) (hnone : l.writing = [])
    (hput : l.port.gone = true ∨ put = []) :
    Goes reads shuts base put bytes a o r (v.after a (Link.beginWrite l a bytes)) := by
  by_cases hclosed : l.isClosed = true
  · have hbegin : Link.beginWrite l a bytes = (l, some (.error .closed)) := by
      simp only [Link.beginWrite, StreamLink.beginWrite, hclosed, if_true]
    rw [hbegin]
    have hleft := without_head hline hout
    exact .fails hleft (.inl rfl) (places_idle hleft hbehind htaken hreaders hshuts hnone hput)
  · have hbegin : Link.beginWrite l a bytes
        = ({ l with writers := l.writers ++ [(a, .write bytes false)] }, none) := by
      simp [Link.beginWrite, StreamLink.beginWrite, hclosed]
    have hone : ({ l with writers := l.writers ++ [(a, .write bytes false)] } :
        StreamLink Pipe).writing = [(a, bytes, false)] := by
      simp only [writing, List.filterMap_append] at hnone ⊢
      rw [hnone]
      rfl
    rw [hbegin]
    refine .on hline (.inl rfl) (places_busy hline hbehind htaken hreaders (fun b hb => ?_) hone ?_)
    · rcases List.mem_append.mp hb with hb | hb
      · exact hshuts b hb
      · cases List.mem_singleton.mp hb
    · refine hput.imp_right fun hnil => ⟨?_, fun _ => hnil⟩
      rw [hbytes, hnil, List.nil_append]

/-- If the write of the first in line may be moved on, it is first in line below. -/
theorem Places.first (h : w.Places l reads shuts base put) (hline : w.line = ⟨a, o, true⟩ :: r)
    (hready : l.ready a = true) (ha : a = .reader → reads = false) (hs : ¬shuts a) :
    ∃ rest turn others, l.writers = (a, .write rest turn) :: others ∧
      l.writing = [(a, rest, turn)] ∧
      (l.port.gone = true ∨ w.bytes ⟨a, o, true⟩ = put ++ rest ∧ (turn = false → put = [])) := by
  obtain ⟨rest, turn, hone, hput⟩ := h.busy _ (by rw [hline]; rfl) rfl
  have hreads : l.readers.head? ≠ some a := by
    rw [h.readers]
    intro hhead
    split at hhead
    · rename_i hreads
      rw [ha (Option.some.inj hhead).symm] at hreads
      cases hreads
    · cases hhead
  obtain ⟨job, others, hfirst, -⟩ := first_of_ready hready hreads
  cases job with
  | shutdown => exact absurd (h.shuts a (by rw [hfirst]; exact List.mem_cons_self)) hs
  | write rest' turn' =>
    have hcons : l.writing = (a, rest', turn') :: others.filterMap write? := by
      rw [writing, hfirst]
      rfl
    have hsame : (a, rest', turn') = (a, rest, turn) :=
      (List.cons.inj (hcons.symm.trans hone)).1
    cases hsame
    exact ⟨rest, turn, others, hfirst, hone, hput⟩

/-- The write of the first in line is moved on. -/
theorem Places.resume (h : w.Places l reads shuts base put) (hline : w.line = ⟨a, o, true⟩ :: r)
    (hout : ∀ e ∈ r, e.agent ≠ a) (hr : w.ready l a = true) (ha : a = .reader → reads = false)
    (hs : ¬shuts a) : Goes reads shuts base put (w.bytes ⟨a, o, true⟩) a o r (w.move l a) := by
  have hbehind := behind_first h.behind hline
  have hready : l.ready a = true := by simpa [ready, hline, Link.ready] using hr
  obtain ⟨rest, turn, others, hfirst, hone, hput⟩ := h.first hline hready ha hs
  have hmove : w.move l a = w.after a (l.resumeWrite a) := by
    simp only [Outlet.move, hline, Link.resumeWrite]
  have hleft := without_head hline hout
  have hwrites := writes_resume hfirst hone
  rw [hmove]
  -- what a write that ends leaves behind
  have hidle : ∀ {l' : StreamLink Pipe} {base' put' : Bytes}, l.Becomes [] [] l' →
      base' ++ put' = base ++ put → l.port.gone = true ∨ put' = [] →
      (w.without a).Places l' reads shuts base' put' := by
    intro l' base' put' hl heq hput'
    refine places_idle hleft hbehind ?_ (hl.readers.trans h.readers)
      (fun b hb => h.shuts b (hl.shuts b hb)) hl.writing (hput'.imp_left hl.gone.trans)
    rw [hl.taken, List.append_nil, h.taken, heq]
  have hbusy : ∀ {l' : StreamLink Pipe} {now left : Bytes}, l.Becomes now [(a, left, true)] l' →
      (l.port.gone = true ∨ w.bytes ⟨a, o, true⟩ = (put ++ now) ++ left) →
      w.Places l' reads shuts base (put ++ now) := by
    intro l' now left hl hbytes
    refine places_busy hline hbehind ?_ (hl.readers.trans h.readers)
      (fun b hb => h.shuts b (hl.shuts b hb)) hl.writing ?_
    · rw [hl.taken, h.taken, List.append_assoc]
    · exact hbytes.imp hl.gone.trans fun heq => ⟨heq, by rintro ⟨⟩⟩
  generalize l.resumeWrite a = q at hwrites
  cases hwrites with
  | refused hl =>
    have hnil : l.port.gone = true ∨ put = [] := hput.imp_right fun hput => hput.2 rfl
    exact .fails hleft (.inl rfl) (hidle hl rfl hnil)
  | turn hl =>
    have hplaces := hbusy hl (hput.imp_right fun hput => by rw [hput.1, List.append_nil])
    rw [List.append_nil] at hplaces
    exact .on hline (.inl rfl) hplaces
  | @puts l' now left here split hl =>
    rcases hput with hgone | ⟨hbytes, -⟩
    · rw [hgone] at here
      cases here
    · have heq : w.bytes ⟨a, o, true⟩ = (put ++ now) ++ left := by
        rw [hbytes, split, List.append_assoc]
      exact .on hline (.inr ⟨left, heq.symm⟩) (hbusy hl (.inr heq))
  | through all hl =>
    rcases hput with hgone | ⟨hbytes, -⟩
    · exact .through hleft (.inr ⟨rfl, rfl⟩) (hidle hl rfl (.inl hgone))
    · refine .through hleft (.inl ⟨rfl, rfl⟩) (hidle hl ?_ (.inr rfl))
      rw [hbytes, all, List.append_nil, List.append_nil]
  | broken hgone hl =>
    exact .fails hleft (.inr ⟨rfl, hl.gone.trans hgone⟩) (hidle hl rfl (.inl hgone))

/-- **A move of the first in line** before a pipe. -/
theorem Places.move (h : w.Places l reads shuts base put) {begun : Bool}
    (hline : w.line = ⟨a, o, begun⟩ :: r) (hn : (w.line.map Entry.agent).Nodup)
    (hr : w.ready l a = true) (ha : a = .reader → reads = false) (hs : ¬shuts a) :
    Goes reads shuts base put (w.bytes ⟨a, o, begun⟩) a o r (w.move l a) := by
  have hbehind := behind_first h.behind hline
  have hout := ne_first hn hline
  cases begun with
  | true => exact h.resume hline hout hr ha hs
  | false =>
    obtain ⟨hnone, hput⟩ := h.idle fun e he => by
      rw [hline] at he
      rw [← Option.some.inj he]
    rcases move_begins l hline with ⟨v, hv, hbytes, -, hmove⟩ | ⟨-, hmove⟩
    · rw [hmove]
      exact goes_begins hv hbehind hout hbytes h.taken h.readers h.shuts hnone hput
    · have hleft := without_head hline hout
      rw [hmove]
      exact .nothing hleft (places_idle hleft hbehind h.taken h.readers h.shuts hnone hput)

/-! ### Giving up -/

/-- The part of an agent's write that is in the pipe, if it is some and not all of it. -/
def torn (w : Outlet) (l : StreamLink Pipe) (a : Agent) : Option Bytes :=
  match w.line.find? (·.agent = a), l.writing.find? (·.1 = a) with
  | some e, some (_, rest, _) =>
    let put := (w.bytes e).take ((w.bytes e).length - rest.length)
    if put = [] ∨ rest = [] then none else some put
  | _, _ => none

/-- What is torn is some of a write, from its beginning on, and not all of it. -/
theorem torn_part {p : Bytes} (h : w.torn l a = some p) :
    ∃ e ∈ w.line, e.agent = a ∧ p <+: w.bytes e ∧ p ≠ [] ∧ p ≠ w.bytes e := by
  unfold torn at h
  split at h
  · rename_i e b rest turn he hu
    simp only at h
    split at h
    · cases h
    · rename_i hne
      obtain rfl := Option.some.inj h
      obtain ⟨hput, hrest⟩ := not_or.mp hne
      refine ⟨e, List.mem_of_find?_eq_some he, by simpa using List.find?_some he,
        List.take_prefix _ _, hput, fun hall => ?_⟩
      have hlength := congrArg List.length hall
      have hleft := List.length_pos_iff.mpr hrest
      have hsome := List.length_pos_iff.mpr hput
      rw [hall] at hsome
      rw [List.length_take] at hlength
      omega
  · cases h

/-- The first in line is given up, and its write below with it. What it has put in the pipe
stays there, whole or torn. -/
theorem Places.leave_busy (h : w.Places l reads shuts base put)
    (hn : (w.line.map Entry.agent).Nodup) (hline : w.line = ⟨a, o, true⟩ :: r)
    (ha : a ≠ .reader) :
    ∃ base' put', (w.leave l a).1.Places (w.leave l a).2 reads shuts base' put' ∧
      (base' = base ∧ put' = put ∨ put' = [] ∧ base' = base ++ put ∧
        ((∃ e ∈ w.line, put = w.bytes e) ∨ w.torn l a = some put)) := by
  obtain ⟨rest, turn, hone, hput⟩ := h.busy _ (by rw [hline]; rfl) rfl
  have hleave : w.leave l a = (w.without a, l.cancel a) := by
    simp [Outlet.leave, hline, Link.cancel]
  have hreaders : (l.cancel a).readers = if reads then [.reader] else [] := by
    show l.readers.erase a = _
    rw [h.readers]
    cases reads with
    | false => rfl
    | true => exact List.erase_of_not_mem (by simpa using ha)
  have hnone : (l.cancel a).writing = [] := by
    have hcancel : (l.cancel a).writing = l.writing.filter fun u => u.1 ≠ a :=
      writing_leave ({ l with readers := l.readers.erase a } : StreamLink Pipe) a
    rw [hcancel, hone]
    simp
  have hplaces : ∀ {base' put' : Bytes}, base' ++ put' = base ++ put →
      (l.port.gone = true ∨ put' = []) →
      (w.without a).Places (l.cancel a) reads shuts base' put' := fun heq hput' =>
    places_idle (without_head hline (ne_first hn hline)) (behind_first h.behind hline)
      (h.taken.trans heq.symm) hreaders (fun b hb => h.shuts b (shutdown_leave hb).2) hnone hput'
  rw [hleave]
  rcases hput with hgone | ⟨hbytes, -⟩
  · exact ⟨base, put, hplaces rfl (.inl hgone), .inl ⟨rfl, rfl⟩⟩
  · refine ⟨base ++ put, [], hplaces (List.append_nil _) (.inr rfl), ?_⟩
    by_cases hrest : rest = []
    · refine .inr ⟨rfl, rfl, .inl ⟨⟨a, o, true⟩, by rw [hline]; exact List.mem_cons_self, ?_⟩⟩
      rw [hbytes, hrest, List.append_nil]
    · by_cases hnil : put = []
      · exact .inl ⟨by rw [hnil, List.append_nil], hnil.symm⟩
      · refine .inr ⟨rfl, rfl, .inr ?_⟩
        have htake : (w.bytes ⟨a, o, true⟩).take
            ((w.bytes ⟨a, o, true⟩).length - rest.length) = put := by
          rw [hbytes, List.length_append, Nat.add_sub_cancel, List.take_left]
        simp [torn, hline, hone, htake, hrest, hnil]

/-- Whoever only stands in line leaves everything as it is. -/
theorem Places.leave_waiting (h : w.Places l reads shuts base put) {e : Entry}
    (hline : w.line = e :: r) (hwaits : ¬(e.begun = true ∧ e.agent = a)) :
    (w.leave l a).1.Places (w.leave l a).2 reads shuts base put := by
  have hbehind := behind_first h.behind hline
  have hfiltered : ∀ e' ∈ (r.filter fun e => e.agent ≠ a), e'.begun = false :=
    fun e' he' => hbehind e' (List.mem_filter.mp he').1
  have hany : (w.line.any fun e => e.agent == a && e.begun) = false := by
    rw [hline, List.any_eq_false]
    intro e' he' hboth
    simp only [Bool.and_eq_true, beq_iff_eq] at hboth
    rcases List.mem_cons.mp he' with rfl | he'
    · exact hwaits ⟨hboth.2, hboth.1⟩
    · rw [hbehind e' he'] at hboth
      cases hboth.2
  have hleave : w.leave l a = (w.without a, l) := by
    simp only [Outlet.leave, hany, Bool.false_eq_true, if_false]
  rw [hleave]
  by_cases hea : e.agent = a
  · have hb : e.begun = false := Bool.eq_false_iff.mpr fun hb => hwaits ⟨hb, hea⟩
    obtain ⟨hnone, hput⟩ := h.idle fun e' he' => by
      rw [hline] at he'
      rw [← Option.some.inj he', hb]
    have hleft : (w.without a).line = r.filter fun e => e.agent ≠ a := by
      simp [without, hline, hea]
    exact places_idle hleft hfiltered h.taken h.readers h.shuts hnone hput
  · have hleft : (w.without a).line = e :: r.filter fun e => e.agent ≠ a := by
      simp [without, hline, hea]
    have hhead : (w.without a).line.head? = w.line.head? := by rw [hleft, hline]; rfl
    refine ⟨h.taken, fun e' he' => ?_, h.readers, h.shuts, fun hi => h.idle (hhead ▸ hi),
      fun e' he' hb => h.busy e' (hhead ▸ he') hb⟩
    rw [hleft] at he'
    exact hfiltered e' he'

/-- **An agent is given up.** What it has put in the pipe stays there, whole or torn. -/
theorem Places.leave (h : w.Places l reads shuts base put) (hn : (w.line.map Entry.agent).Nodup)
    (ha : a ≠ .reader) :
    ∃ base' put', (w.leave l a).1.Places (w.leave l a).2 reads shuts base' put' ∧
      (base' = base ∧ put' = put ∨ put' = [] ∧ base' = base ++ put ∧
        ((∃ e ∈ w.line, put = w.bytes e) ∨ w.torn l a = some put)) := by
  cases hline : w.line with
  | nil =>
    have hsame : w.leave l a = (w, l) := by
      obtain ⟨line, last⟩ := w
      cases hline
      rfl
    rw [hsame]
    exact ⟨base, put, h, .inl ⟨rfl, rfl⟩⟩
  | cons e r =>
    rw [← hline]
    by_cases hbusy : e.begun = true ∧ e.agent = a
    · obtain ⟨agent, o, begun⟩ := e
      obtain ⟨rfl, rfl⟩ := hbusy
      exact h.leave_busy hn hline ha
    · exact ⟨base, put, h.leave_waiting hline hbusy, .inl ⟨rfl, rfl⟩⟩

/-! ### What is in the pipe -/

/-- Whoever wants to write stands in line, and line and link agree: what is in the pipe are
things that are said, whole, and a beginning of one. -/
structure Laid (w : Outlet) (l : StreamLink Pipe) (reads : Bool) (shuts : Agent → Prop)
    (wants : Agent → Option Outgoing) (said : Bytes → Prop) : Prop where
  serves : Serves w.line wants
  last : ∀ bytes, w.last = some bytes → said bytes
  places : ∃ (pieces : List Bytes) (put : Bytes), w.Places l reads shuts pieces.flatten put ∧
    (∀ p ∈ pieces, said p) ∧ ∃ whole, said whole ∧ put <+: whole

variable {wants wants' : Agent → Option Outgoing} {said said' : Bytes → Prop}

/-- A change below that writes nothing. -/
theorem Laid.link (h : w.Laid l reads shuts wants said)
    (htaken : Port.taken l'.port = Port.taken l.port)
    (hgone : l.port.gone = true → l'.port.gone = true) (hwriting : l'.writing = l.writing)
    (hreaders : l'.readers = if reads' then [.reader] else [])
    (hshuts : ∀ a, (a, .shutdown) ∈ l'.writers → shuts' a) :
    w.Laid l' reads' shuts' wants said := by
  obtain ⟨pieces, put, hplaces, hpieces, hwhole⟩ := h.places
  exact ⟨h.serves, h.last, pieces, put, hplaces.link htaken hgone hwriting hreaders hshuts,
    hpieces, hwhole⟩

/-- The same is wanted, and more is said. -/
theorem Laid.agrees (h : w.Laid l reads shuts wants said) (hwants : ∀ a, wants' a = wants a)
    (hshuts : ∀ a, shuts a → shuts' a) (hsaid : ∀ p, said p → said' p) :
    w.Laid l reads shuts' wants' said' := by
  obtain rfl : wants' = wants := funext hwants
  obtain ⟨pieces, put, hplaces, hpieces, whole, hwhole, hput⟩ := h.places
  refine ⟨h.serves, fun p hp => hsaid p (h.last p hp), pieces, put, ?_,
    fun p hp => hsaid p (hpieces p hp), whole, hsaid whole hwhole, hput⟩
  exact hplaces.link rfl id rfl hplaces.readers fun a ha => hshuts a (hplaces.shuts a ha)

theorem Laid.readers (h : w.Laid l reads shuts wants said) :
    l.readers = if reads then [.reader] else [] := by
  obtain ⟨_, _, hplaces, -⟩ := h.places
  exact hplaces.readers

theorem Laid.shutting (h : w.Laid l reads shuts wants said) (a : Agent)
    (ha : (a, .shutdown) ∈ l.writers) : shuts a := by
  obtain ⟨_, _, hplaces, -⟩ := h.places
  exact hplaces.shuts a ha

/-- Whoever does not want to write has no write below. -/
theorem Laid.writing_others (h : w.Laid l reads shuts wants said) (ha : wants a = none) :
    (l.writing.filter fun u => u.1 ≠ a) = l.writing := by
  obtain ⟨pieces, put, hplaces, -⟩ := h.places
  refine List.filter_eq_self.mpr fun u hu => ?_
  cases hhead : w.line.head? with
  | none =>
    rw [(hplaces.idle (by rw [hhead]; nofun)).1] at hu
    cases hu
  | some e =>
    cases hb : e.begun with
    | false =>
      have hidle := hplaces.idle fun e' he' => by
        rw [← Option.some.inj (hhead.symm.trans he'), hb]
      rw [hidle.1] at hu
      cases hu
    | true =>
      obtain ⟨rest, turn, hone, -⟩ := hplaces.busy e hhead hb
      rw [hone] at hu
      have hwants := (h.serves.wants e.agent e.outgoing).mpr
        ⟨e, List.mem_of_mem_head? hhead, rfl, rfl⟩
      have hne : e.agent ≠ a := by
        rintro rfl
        rw [ha] at hwants
        cases hwants
      rw [List.mem_singleton.mp hu]
      simpa using hne

/-- Whoever wants to write joins the line. -/
theorem Laid.enter (h : w.Laid l reads shuts wants said) (hnone : wants a = none)
    (ha : wants' a = some o) (hother : ∀ b ≠ a, wants' b = wants b) :
    (w.enter a o).Laid l reads shuts wants' said := by
  obtain ⟨pieces, put, hplaces, hpieces, hwhole⟩ := h.places
  exact ⟨h.serves.enter hnone ha hother, h.last, pieces, put, hplaces.enter a o, hpieces, hwhole⟩

/-- Everything that stands to be written is said. -/
structure Spoken (wants : Agent → Option Outgoing) (said : Bytes → Prop) : Prop where
  ack : said [ackByte]
  frame : ∀ a bytes, wants a = some (.frame bytes) → said bytes

/-- What stands to be written is said, or nothing. -/
theorem Laid.said_bytes (h : w.Laid l reads shuts wants said) (hs : Spoken wants said) {e : Entry}
    (he : e ∈ w.line) : said (w.bytes e) ∨ w.bytes e = [] := by
  have hwants := (h.serves.wants e.agent e.outgoing).mpr ⟨e, he, rfl, rfl⟩
  unfold bytes
  split
  · rename_i bytes ho
    rw [ho] at hwants
    exact .inl (hs.frame e.agent bytes hwants)
  · exact .inl hs.ack
  · cases hw : w.last with
    | some bytes => exact .inl (h.last bytes hw)
    | none => exact .inr rfl

/-- What a move of the first in line leaves: it goes on, or it is out of the line. -/
inductive Speaks (reads : Bool) (shuts : Agent → Prop) (wants : Agent → Option Outgoing)
    (said : Bytes → Prop) (a : Agent) : Outlet × StreamLink Pipe × Progress Written → Prop where
  | on {v : Outlet} {l : StreamLink Pipe} (laid : v.Laid l reads shuts wants said) :
      Speaks reads shuts wants said a (v, l, none)
  | ends {v : Outlet} {l : StreamLink Pipe} {p : Except LinkError Written}
      (laid : ∀ wants', wants' a = none → (∀ b ≠ a, wants' b = wants b) →
        v.Laid l reads shuts wants' said)
      (why : ∀ e, p = .error e → e = .closed ∨ e = .io .brokenPipe ∧ l.port.gone = true) :
      Speaks reads shuts wants said a (v, l, some p)

/-- Only the turn of a frame changes which frame is kept, and that frame is said. -/
theorem last_said {L : Type} [Link L] {l : L} {begun : Bool} (hline : w.line = ⟨a, o, begun⟩ :: r)
    (hlast : ∀ bytes, w.last = some bytes → said bytes)
    (hframe : ∀ bytes, o = .frame bytes → said bytes) :
    ∀ bytes, (w.move l a).1.last = some bytes → said bytes := by
  intro bytes hw
  have hold : w.last = some bytes ∨ o = .frame bytes := by
    obtain ⟨-, hmove⟩ := move_first l hline rfl
    rw [hmove] at hw
    cases o with
    | frame u =>
      cases begun with
      | false => exact .inr (congrArg Outgoing.frame (Option.some.inj hw))
      | true => exact .inl hw
    | ack | again => exact .inl hw
  exact hold.elim (hlast bytes) (hframe bytes)

/-- **A move of the first in line** leaves nothing torn. -/
theorem Laid.move (h : w.Laid l reads shuts wants said) (hs : Spoken wants said)
    (hr : w.ready l a = true) (ha : a = .reader → reads = false) (hshuts : ¬shuts a) :
    Speaks reads shuts wants said a (w.move l a) := by
  obtain ⟨⟨a, o, begun⟩, r, hline, rfl⟩ := ready_agent hr
  obtain ⟨pieces, put, hplaces, hpieces, whole, hwhole, hput⟩ := h.places
  have hgoes := hplaces.move hline h.serves.once hr ha hshuts
  have hbytes := h.said_bytes hs (e := ⟨a, o, begun⟩) (by rw [hline]; exact List.mem_cons_self)
  have hserves := h.serves
  rw [hline] at hserves
  have hkeep := last_said (l := l) hline h.last fun bytes ho => hs.frame a bytes (ho ▸ hserves.head)
  simp only at hgoes hkeep ⊢
  generalize w.move l a = q at hgoes hkeep
  cases hgoes with
  | @on v l put' hl hbegins hp =>
    refine .on ⟨hl ▸ hserves.begin, hkeep, pieces, put', hp, hpieces, ?_⟩
    rcases hbegins with rfl | hpart
    · exact ⟨whole, hwhole, hput⟩
    · rcases hbytes with hbytes | hnil
      · exact ⟨_, hbytes, hpart⟩
      · rw [hnil, List.prefix_nil] at hpart
        exact ⟨whole, hwhole, hpart ▸ List.nil_prefix⟩
  | @through v l base' put' hl hwritten hp =>
    refine .ends (fun wants' hnone hother => ⟨hl ▸ hserves.leave hnone hother, hkeep, ?_⟩) nofun
    rcases hwritten with ⟨rfl, rfl⟩ | ⟨rfl, rfl⟩
    · rcases hbytes with hbytes | hnil
      · refine ⟨pieces ++ [w.bytes ⟨a, o, begun⟩], [], ?_, fun p hp => ?_, whole, hwhole,
          List.nil_prefix⟩
        · rw [List.flatten_append, List.flatten_singleton]
          exact hp
        · rcases List.mem_append.mp hp with hp | hp
          · exact hpieces p hp
          · exact List.mem_singleton.mp hp ▸ hbytes
      · rw [hnil, List.append_nil] at hp
        exact ⟨pieces, [], hp, hpieces, whole, hwhole, List.nil_prefix⟩
    · exact ⟨pieces, put', hp, hpieces, whole, hwhole, hput⟩
  | nothing hl hp =>
    exact .ends (fun wants' hnone hother => ⟨hl ▸ hserves.leave hnone hother, hkeep, pieces, put,
      hp, hpieces, whole, hwhole, hput⟩) nofun
  | fails hl why hp =>
    refine .ends (fun wants' hnone hother => ⟨hl ▸ hserves.leave hnone hother, hkeep, pieces, put,
      hp, hpieces, whole, hwhole, hput⟩) ?_
    rintro _ ⟨⟩
    exact why

/-- Whoever leaves the line wherever it stands wants nothing more. -/
theorem Serves.without (h : Serves w.line wants) (ha : wants' a = none)
    (hother : ∀ b ≠ a, wants' b = wants b) : Serves (w.without a).line wants' := by
  refine ⟨h.once.sublist (List.filter_sublist.map _), fun b p => ?_⟩
  simp only [Outlet.without, List.mem_filter, decide_eq_true_eq]
  by_cases hb : b = a
  · subst hb
    rw [ha]
    refine iff_of_false (by rintro ⟨⟩) ?_
    rintro ⟨e, ⟨-, hne⟩, hea, -⟩
    exact hne hea
  · rw [hother b hb, h.wants]
    constructor
    · rintro ⟨e, he, rfl, hep⟩
      exact ⟨e, ⟨he, hb⟩, rfl, hep⟩
    · rintro ⟨e, ⟨he, -⟩, hep⟩
      exact ⟨e, he, hep⟩

/-- **Giving an agent up** leaves nothing in the pipe but what is said and what was torn. -/
theorem Laid.leave (h : w.Laid l reads shuts wants said) (hs : Spoken wants said)
    (ha : a ≠ .reader) (hnone : wants' a = none) (hother : ∀ b ≠ a, wants' b = wants b)
    (hsaid : ∀ p, said p → said' p) (htorn : ∀ p, w.torn l a = some p → said' p) :
    (w.leave l a).1.Laid (w.leave l a).2 reads shuts wants' said' := by
  obtain ⟨pieces, put, hplaces, hpieces, whole, hwhole, hput⟩ := h.places
  obtain ⟨base', put', hp, hcases⟩ := hplaces.leave h.serves.once ha
  refine ⟨h.serves.without hnone hother, fun p hlast => hsaid p (h.last p hlast), ?_⟩
  have hpieces' : ∀ p ∈ pieces, said' p := fun p hmem => hsaid p (hpieces p hmem)
  rcases hcases with ⟨rfl, rfl⟩ | ⟨rfl, rfl, hwhole'⟩
  · exact ⟨pieces, put', hp, hpieces', whole, hsaid whole hwhole, hput⟩
  · have hkeep : said' put ∨ put = [] := by
      rcases hwhole' with ⟨e, he, rfl⟩ | ht
      · exact (h.said_bytes hs he).imp_left (hsaid _)
      · exact .inl (htorn put ht)
    rcases hkeep with hkeep | rfl
    · refine ⟨pieces ++ [put], [], ?_, fun p hmem => ?_, whole, hsaid whole hwhole, List.nil_prefix⟩
      · rw [List.flatten_append, List.flatten_singleton]
        exact hp
      · rcases List.mem_append.mp hmem with hmem | hmem
        · exact hpieces' p hmem
        · exact List.mem_singleton.mp hmem ▸ hkeep
    · rw [List.append_nil] at hp
      exact ⟨pieces, [], hp, hpieces', whole, hsaid whole hwhole, List.nil_prefix⟩

end Outlet

end ProbeLink
