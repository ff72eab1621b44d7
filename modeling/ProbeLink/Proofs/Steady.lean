/-
# Links in working order

On a link in working order nothing ends or fails: a read waits or gives the next byte,
and a write puts its bytes on the wire in order, all at once or piece by piece. Work goes
on below for a bounded time, and once there is nothing left to do there, everything that
was sent is read and everything on the wire has arrived.

A link says itself what working order is; that nobody but the reading agent reads, and
that at most one agent writes, is part of it. Before such a link only the first in line
has anything on the wire whose write is not over (`Outlet.Below`).

Key definitions: `Steady`, `Outlet.Below`, `Outlet.Moved`.
Key theorem: `Outlet.Below.move`.
-/
import Mathlib.Algebra.GroupWithZero.Nat
import ProbeLink.Proofs.Keeping

namespace ProbeLink

section Laws

variable {L : Type} [Link L]

/-- Nothing goes on below the link. -/
structure Still (l : L) : Prop where
  release : Link.helperReady l .release = false
  porter : Link.helperReady l .porter = false
  chance : Link.helperReady l .chance = false
  farWriter : Link.helperReady l .farWriter = false
  farReader : Link.helperReady l .farReader = false

/-- A write puts a part of the bytes on the wire and goes on with the rest, or is over
when all are there. -/
def Puts (works : L → Bool → Option (Agent × Bytes) → Prop) (l : L) (reads : Bool) (a : Agent)
    (bytes : Bytes) (r : L × Progress Unit) : Prop :=
  ∃ put rest, bytes = put ++ rest ∧ Link.wire r.1 = Link.wire l ++ put ∧
    (r.2 = some (.ok ()) ∧ rest = [] ∧ works r.1 reads none ∨
      r.2 = none ∧ works r.1 reads (some (a, rest)))

/-- Somebody below puts a part of what is being written on the wire, or nothing. -/
def Forwards (works : L → Bool → Option (Agent × Bytes) → Prop) (l : L) (reads : Bool)
    (u : Option (Agent × Bytes)) (l' : L) : Prop :=
  Link.wire l' = Link.wire l ∧ works l' reads u ∨
    ∃ a put rest, u = some (a, put ++ rest) ∧ Link.wire l' = Link.wire l ++ put ∧
      works l' reads (some (a, rest))

end Laws

/-- A link that can be in working order. -/
class Steady (L : Type) [Link L] extends FarEnd L where
  /-- The link is in working order; whether the reading agent waits to read, and who
  writes, with what is left to write. -/
  works : L → Bool → Option (Agent × Bytes) → Prop
  /-- More than the steps still to be taken below. -/
  labour : L → ℕ
  accepts_works {l : L} {reads : Bool} {u : Option (Agent × Bytes)} : works l reads u →
    accepts l = true
  works_send {l : L} {reads : Bool} {u : Option (Agent × Bytes)} (bytes : Bytes) :
    works l reads u → works (send l bytes) reads u
  begins_read {l : L} {u : Option (Agent × Bytes)} : works l false u →
    Link.wire (Link.beginRead l .reader).1 = Link.wire l ∧
      labour (Link.beginRead l .reader).1 ≤ labour l ∧
      ((∃ b, (Link.beginRead l .reader).2 = some (.ok b) ∧
          works (Link.beginRead l .reader).1 false u) ∨
        (Link.beginRead l .reader).2 = none ∧ works (Link.beginRead l .reader).1 true u)
  resumes_read {l : L} {u : Option (Agent × Bytes)} : works l true u →
    (∀ rest, u ≠ some (.reader, rest)) → Link.ready l .reader = true →
    Link.wire (Link.resumeRead l .reader).1 = Link.wire l ∧
      labour (Link.resumeRead l .reader).1 ≤ labour l ∧
      ∃ b, (Link.resumeRead l .reader).2 = some (.ok b) ∧
        works (Link.resumeRead l .reader).1 false u
  begins_write {l : L} {reads : Bool} (a : Agent) (bytes : Bytes) : works l reads none →
    Puts works l reads a bytes (Link.beginWrite l a bytes) ∧
      labour (Link.beginWrite l a bytes).1 ≤ labour l + 2 * bytes.length + 2
  resumes_write {l : L} {reads : Bool} {a : Agent} {rest : Bytes} :
    works l reads (some (a, rest)) → (a = .reader → reads = false) → Link.ready l a = true →
    Puts works l reads a rest (Link.resumeWrite l a) ∧
      labour (Link.resumeWrite l a).1 < labour l
  helps {l : L} {reads : Bool} {u : Option (Agent × Bytes)} {a : Agent} : works l reads u →
    Link.helperReady l a = true →
    Forwards works l reads u (Link.helperMove l a) ∧ labour (Link.helperMove l a) < labour l
  /-- At rest whoever waits to read has read everything. -/
  all_read {l : L} {u : Option (Agent × Bytes)} : works l true u →
    (∀ rest, u ≠ some (.reader, rest)) → Still l → Link.ready l .reader = false →
    incoming l = []
  /-- At rest nobody who writes is kept waiting. -/
  write_ready {l : L} {reads : Bool} {a : Agent} {rest : Bytes} :
    works l reads (some (a, rest)) → Still l → Link.ready l a = true
  /-- At rest the target has got everything. -/
  all_delivered {l : L} {reads : Bool} : works l reads none → Still l →
    Link.delivered l = Link.wire l

/-! ### Scripted links -/

namespace ScriptLink

/-- The link is open, no write fails, and no fault is to be read. -/
structure InOrder (l : ScriptLink) (reads : Bool) (u : Option (Agent × Bytes)) : Prop where
  isOpen : l.isClosed = false
  noFault : ∀ n, l.writeFault n = none
  isClear : clear l.inbox = true
  readers : l.readers = if reads then [.reader] else []
  idle : u = none

variable {l : ScriptLink} {reads : Bool} {u : Option (Agent × Bytes)}

theorem InOrder.read (h : l.InOrder reads u) : (l.read = (l, none) ∧ l.inbox = []) ∨
    ∃ b l', l.read = (l', some (.ok b)) ∧ l'.InOrder reads u ∧ l'.wire = l.wire := by
  have hclear := h.isClear
  rw [ScriptLink.read, if_neg (by simp [h.isOpen])]
  cases hi : l.inbox with
  | nil => exact .inl ⟨rfl, rfl⟩
  | cons item r =>
    rw [hi] at hclear
    cases item with
    | byte b =>
      refine .inr ⟨b, _, rfl, ⟨h.isOpen, h.noFault, hclear, h.readers, h.idle⟩, ?_⟩
      exact rfl
    | fault e => cases hclear

theorem clear_append : ∀ {items : List Item}, clear items = true → ∀ bytes : Bytes,
    clear (items ++ bytes.map .byte) = true
  | [], _, [] => rfl
  | [], h, b :: bytes => by
    have ih := clear_append h bytes
    exact ih
  | .byte b :: r, h, bytes => by
    have ih := clear_append (show clear r = true from h) bytes
    exact ih

end ScriptLink

instance : Steady ScriptLink where
  works := ScriptLink.InOrder
  labour _ := 0
  accepts_works h := h.isClear
  works_send bytes h := ⟨h.isOpen, h.noFault, ScriptLink.clear_append h.isClear bytes,
    h.readers, h.idle⟩
  begins_read {l u} h := by
    simp only [Link.beginRead, ScriptLink.beginRead]
    rcases h.read with ⟨hr, -⟩ | ⟨b, l', hr, h', hw⟩ <;> rw [hr]
    · refine ⟨rfl, Nat.le_refl _, .inr ⟨rfl, h.isOpen, h.noFault, h.isClear, ?_, h.idle⟩⟩
      simp [h.readers]
    · exact ⟨hw, Nat.le_refl _, .inl ⟨b, rfl, h'⟩⟩
  resumes_read {l u} h _ hready := by
    simp only [Link.resumeRead, ScriptLink.resumeRead]
    rcases h.read with ⟨-, hi⟩ | ⟨b, l', hr, h', hw⟩
    · simp [Link.ready, h.isOpen, hi] at hready
    · rw [hr]
      refine ⟨hw, Nat.le_refl _, b, rfl, h'.isOpen, h'.noFault, h'.isClear, ?_, h'.idle⟩
      simp [h'.readers]
  begins_write {l reads} a bytes h := by
    have hwrite : Link.beginWrite l a bytes
        = (({ l with attempts := l.attempts + 1 } : ScriptLink).note (.wrote bytes),
          some (.ok ())) := by
      simp only [Link.beginWrite, ScriptLink.write, h.isOpen, h.noFault, Bool.false_eq_true,
        if_false]
    rw [hwrite]
    refine ⟨⟨bytes, [], (List.append_nil _).symm, ?_, .inl ⟨rfl, rfl, ?_⟩⟩, Nat.zero_le _⟩
    · refine (ScriptLink.wire_foldl (bytes ++ []) l.record).trans ?_
      rw [List.append_nil]
      rfl
    · exact ⟨h.isOpen, h.noFault, h.isClear, h.readers, rfl⟩
  resumes_write h := nomatch h.idle
  helps _ h := nomatch h
  all_read {l u} h _ _ hready := by
    rcases h.read with ⟨-, hi⟩ | ⟨b, l', hr, -⟩
    · simp [FarEnd.incoming, hi, ScriptLink.bytesAhead]
    · have hne : l.inbox ≠ [] := by
        intro hi
        simp [ScriptLink.read, h.isOpen, hi] at hr
      simp [Link.ready, h.readers, hne] at hready
  write_ready h := nomatch h.idle
  all_delivered _ _ := rfl

/-! ### Serial lines -/

namespace SerialLine

/-- The line is open and the target's end is there. Whoever writes has handed its write over,
and if the porter has done it the outcome is there. -/
structure InOrder (l : SerialLine) (reads : Bool) (u : Option (Agent × Bytes)) : Prop where
  isOpen : l.isClosed = false
  isUp : l.hungUp = false
  readers : l.readers = if reads then [.reader] else []
  idle : u = none → l.jobs = [] ∧ l.outcomes = []
  busy : ∀ a rest, u = some (a, rest) →
    l.jobs = [{ agent := a, bytes := rest }] ∧ l.outcomes = [] ∨
      rest = [] ∧ l.jobs = [] ∧ l.outcomes = [(a, .ok ())]

/-- A new line is in working order. -/
theorem inOrder_new : ({} : SerialLine).InOrder false none :=
  ⟨rfl, rfl, rfl, fun _ => ⟨rfl, rfl⟩, nofun⟩

/-- The moves still to be made by the porter and by those who wait for it. -/
def labour (l : SerialLine) : ℕ := 2 * l.jobs.length + l.outcomes.length

variable {l : SerialLine} {reads : Bool} {u : Option (Agent × Bytes)}

theorem InOrder.draw (h : l.InOrder reads u) : (l.draw = (l, none) ∧ l.inbox = []) ∨
    ∃ b l', l.draw = (l', some (.ok b)) ∧ l'.InOrder reads u ∧ l'.sent = l.sent ∧
      l'.labour = l.labour := by
  rw [SerialLine.draw]
  cases hi : l.inbox with
  | nil => exact .inl ⟨by simp [h.isUp], rfl⟩
  | cons b r =>
    exact .inr ⟨b, _, rfl, ⟨h.isOpen, h.isUp, h.readers, h.idle, h.busy⟩, rfl, rfl⟩

/-- Only whoever writes gets an outcome. -/
theorem InOrder.outcome (h : l.InOrder reads u) {a : Agent} (ha : ∀ rest, u ≠ some (a, rest)) :
    l.outcome? a = none := by
  have hnone : l.outcomes = [] ∨ ∃ b ≠ a, l.outcomes = [(b, .ok ())] := by
    cases u with
    | none => exact .inl (h.idle rfl).2
    | some u =>
      obtain ⟨b, rest⟩ := u
      rcases h.busy b rest rfl with ⟨-, ho⟩ | ⟨-, -, ho⟩
      · exact .inl ho
      · exact .inr ⟨b, fun hb => ha rest (hb ▸ rfl), ho⟩
  rcases hnone with ho | ⟨b, hb, ho⟩
  · simp [outcome?, ho]
  · simp [outcome?, ho, Ne.symm hb]

/-- A read that is moved on in working order finds a byte. -/
theorem InOrder.resumeRead (h : l.InOrder true u) (hready : l.canRead = true) :
    ∃ b l', l.resumeRead .reader = (l', some (.ok b)) ∧ l'.InOrder false u ∧ l'.sent = l.sent ∧
      l'.labour = l.labour := by
  have hleft : ({ l with readers := l.readers.erase .reader, luck := 0 } :
      SerialLine).InOrder false u :=
    ⟨h.isOpen, h.isUp, by simp [h.readers], h.idle, h.busy⟩
  have hflag : l.interrupts = false := by simp [interrupts, h.isOpen]
  rcases hleft.draw with ⟨-, hi⟩ | ⟨b, l', hr, h', hsent, hlabour⟩
  · simp [canRead, hasData, h.isOpen, h.isUp, show l.inbox = [] from hi] at hready
  · exact ⟨b, l', by simp [SerialLine.resumeRead, hflag, hr], h', hsent, hlabour⟩

/-- The porter does the one write that was handed over. -/
theorem InOrder.carry (h : l.InOrder reads u) (hready : l.jobs ≠ []) :
    Forwards InOrder l reads u l.carry ∧ l.carry.labour < l.labour := by
  cases u with
  | none => exact absurd (h.idle rfl).1 hready
  | some u =>
    obtain ⟨a, rest⟩ := u
    rcases h.busy a rest rfl with ⟨hjobs, hout⟩ | ⟨-, hjobs, -⟩
    · have hnext : l.nextJob = 0 := by
        simp only [nextJob, hjobs, List.length_singleton]
        split <;> omega
      have hcarry : l.carry = { l with
          sent := l.sent ++ rest, jobs := [], outcomes := [(a, .ok ())], luck := 0 } := by
        simp [SerialLine.carry, hnext, hjobs, hout, write, h.isOpen, h.isUp]
      rw [hcarry]
      refine ⟨.inr ⟨a, rest, [], by rw [List.append_nil], rfl, h.isOpen, h.isUp, h.readers, nofun,
        ?_⟩, ?_⟩
      · rintro _ _ ⟨⟩
        exact .inr ⟨rfl, rfl, rfl⟩
      · simp [labour, hjobs, hout]
    · exact absurd hjobs hready

end SerialLine

instance : Steady SerialLine where
  works := SerialLine.InOrder
  labour := SerialLine.labour
  accepts_works _ := rfl
  works_send _ h := ⟨h.isOpen, h.isUp, h.readers, h.idle, h.busy⟩
  begins_read {l u} h := by
    have hread : l.read = l.draw := by simp [SerialLine.read, h.isOpen]
    simp only [Link.beginRead, SerialLine.beginRead, hread]
    rcases h.draw with ⟨hr, -⟩ | ⟨b, l', hr, h', hw, hlabour⟩ <;> rw [hr]
    · refine ⟨rfl, Nat.le_refl _, .inr ⟨rfl, h.isOpen, h.isUp, ?_, h.idle, h.busy⟩⟩
      simp [h.readers]
    · exact ⟨hw, Nat.le_of_eq hlabour, .inl ⟨b, rfl, h'⟩⟩
  resumes_read {l u} h hu hready := by
    have hread : l.canRead = true := by
      simp only [Link.ready, h.outcome hu, Option.isSome_none, Bool.or_false,
        Bool.and_eq_true] at hready
      exact hready.2
    obtain ⟨b, l', hr, h', hsent, hlabour⟩ := h.resumeRead hread
    simp only [Link.resumeRead, hr]
    exact ⟨hsent, Nat.le_of_eq hlabour, b, rfl, h'⟩
  begins_write {l reads} a bytes h := by
    obtain ⟨hjobs, hout⟩ := h.idle rfl
    have hbegin : Link.beginWrite l a bytes
        = ({ l with jobs := [{ agent := a, bytes }] }, none) := by
      simp [Link.beginWrite, SerialLine.beginWrite, h.isOpen, hjobs]
    rw [hbegin]
    refine ⟨⟨[], bytes, rfl, (List.append_nil _).symm, .inr ⟨rfl, h.isOpen, h.isUp, h.readers,
      nofun, ?_⟩⟩, ?_⟩
    · rintro _ _ ⟨⟩
      exact .inl ⟨rfl, hout⟩
    · simp only [SerialLine.labour, List.length_singleton, hjobs, List.length_nil]
      omega
  resumes_write {l reads a rest} h ha hready := by
    -- whoever writes can go on because the outcome is there
    have hout : rest = [] ∧ l.jobs = [] ∧ l.outcomes = [(a, .ok ())] := by
      refine (h.busy a rest rfl).resolve_left fun ⟨_, hout⟩ => ?_
      have hreads : (l.readers.head? == some a) = false := by
        rw [h.readers]
        cases reads with
        | false => rfl
        | true =>
          refine beq_eq_false_iff_ne.mpr fun hhead => ?_
          cases ha (Option.some.inj hhead).symm
      simp [Link.ready, hreads, SerialLine.outcome?, hout] at hready
    obtain ⟨rfl, hjobs, hout⟩ := hout
    have hresume : Link.resumeWrite l a = ({ l with outcomes := [] }, some (.ok ())) := by
      simp [Link.resumeWrite, SerialLine.resumeWrite, SerialLine.outcome?, SerialLine.forget, hout]
    rw [hresume]
    refine ⟨⟨[], [], rfl, (List.append_nil _).symm, .inl ⟨rfl, rfl, h.isOpen, h.isUp, h.readers,
      fun _ => ⟨hjobs, rfl⟩, nofun⟩⟩, ?_⟩
    simp [SerialLine.labour, hout]
  helps {l reads u a} h hready := by
    have hfew : l.jobs.length ≤ 1 := by
      cases u with
      | none => simp [(h.idle rfl).1]
      | some u => rcases h.busy u.1 u.2 rfl with ⟨hj, -⟩ | ⟨-, hj, -⟩ <;> simp [hj]
    cases a with
    | porter =>
      refine h.carry fun hj => ?_
      simp [Link.helperReady, SerialLine.helperReady, hj] at hready
    | chance =>
      -- with one write at most, nothing is left to chance
      simp [Link.helperReady, SerialLine.helperReady, SerialLine.choices, h.isOpen] at hready
      omega
    | _ => cases hready
  all_read {l u} h hu _ hready := by
    rcases h.draw with ⟨-, hi⟩ | ⟨b, l', hr, -⟩
    · exact hi
    · have hne : l.inbox ≠ [] := by
        intro hi
        simp [SerialLine.draw, h.isUp, hi] at hr
      simp [Link.ready, SerialLine.canRead, SerialLine.hasData, h.readers, hne] at hready
  write_ready {l reads a rest} h hstill := by
    rcases h.busy a rest rfl with ⟨hjobs, -⟩ | ⟨-, -, hout⟩
    · have hporter := hstill.porter
      simp [Link.helperReady, SerialLine.helperReady, hjobs] at hporter
    · simp [Link.ready, SerialLine.outcome?, hout]
  all_delivered _ _ := rfl

/-! ### Streams over a pipe -/

/-- The far end is there and reads, neither side has ended its stream, and there is room
for something in the pipe. -/
structure Pipe.InOrder (p : Pipe) : Prop where
  gone : p.gone = false
  ending : p.ending = false
  inbound : p.inboundEnded = false
  outbound : p.outboundEnded = false
  stalled : p.stalled = false
  capacity : 0 < p.capacity

namespace StreamLink

/-- The link and the pipe below are in working order, and nobody else is in line. -/
structure InOrder (l : StreamLink Pipe) (reads : Bool) (u : Option (Agent × Bytes)) : Prop where
  isOpen : l.isClosed = false
  half : l.half = .held
  port : l.port.InOrder
  readers : l.readers = if reads then [.reader] else []
  idle : u = none → l.writers = []
  busy : ∀ a rest, u = some (a, rest) → ∃ begun, l.writers = [(a, .write rest begun)]

/-- The steps that a write has still to take, on both sides of the pipe. -/
def Job.labour : Job → ℕ
  | .write rest begun => 2 * rest.length + if begun then 1 else 2
  | .shutdown => 0

/-- The steps still to be taken by those in line and by the far end. -/
def labour (l : StreamLink Pipe) : ℕ :=
  l.port.offered.length + l.port.outbound.length + (l.writers.map fun w => w.2.labour).sum

variable {l : StreamLink Pipe} {reads : Bool} {u : Option (Agent × Bytes)}

theorem InOrder.readers_ne (h : l.InOrder reads u) {a : Agent} (ha : a = .reader → reads = false) :
    l.readers.head? ≠ some a := by
  rw [h.readers]
  cases reads with
  | false => nofun
  | true =>
    intro hhead
    cases ha (Option.some.inj hhead).symm

/-- Where a link in working order has something to read, that is a byte. -/
theorem InOrder.draw (h : l.InOrder reads u) (hdata : l.hasData = true) :
    ∃ b l', l.draw = (l', .ok b) ∧ l'.InOrder reads u ∧ Link.wire l' = Link.wire l ∧
      l'.labour = l.labour := by
  rw [StreamLink.draw]
  cases hb : l.buffered with
  | cons b r => exact ⟨b, _, rfl, ⟨h.isOpen, h.half, h.port, h.readers, h.idle, h.busy⟩, rfl, rfl⟩
  | nil =>
    have hne : l.port.inbound.take Pipe.readAhead ≠ [] := by
      intro hnil
      have hin : l.port.inbound = [] := by
        rcases List.take_eq_nil_iff.mp hnil with hz | hin
        · exact absurd hz (by decide)
        · exact hin
      simp [hasData, Port.canRead, Pipe.canRead, hb, hin, h.port.inbound] at hdata
    obtain ⟨b, r, hbr⟩ := List.exists_cons_of_ne_nil hne
    refine ⟨b, { l with
        port := { l.port with inbound := l.port.inbound.drop Pipe.readAhead }
        buffered := r }, ?_, ?_, rfl, rfl⟩
    · simp only [Port.read, Pipe.read, hbr]
    · exact ⟨h.isOpen, h.half, ⟨h.port.gone, h.port.ending, h.port.inbound, h.port.outbound,
        h.port.stalled, h.port.capacity⟩, h.readers, h.idle, h.busy⟩

/-- A read that is moved on in working order finds a byte. -/
theorem InOrder.resumeRead (h : l.InOrder true u) (hready : l.canRead = true) :
    ∃ b l', l.resumeRead .reader = (l', some (.ok b)) ∧ l'.InOrder false u ∧
      Link.wire l' = Link.wire l ∧ l'.labour = l.labour := by
  have hleft : ({ l with readers := l.readers.erase .reader, flagFirst := false } :
      StreamLink Pipe).InOrder false u :=
    ⟨h.isOpen, h.half, h.port, by simp [h.readers], h.idle, h.busy⟩
  have hflag : l.interrupts = false := by simp [interrupts, h.isOpen]
  have hdata : l.hasData = true := by simpa [canRead, h.isOpen] using hready
  obtain ⟨b, l', hr, h', hwire, hlabour⟩ := hleft.draw hdata
  refine ⟨b, l', ?_, h', hwire, hlabour⟩
  simp only [StreamLink.resumeRead, hflag, Bool.false_eq_true, if_false, hr]

/-- Only the one who writes is in line for the write half, so leaving empties the line. -/
theorem InOrder.left (h : l.InOrder reads u) {p : Pipe} (hp : p.InOrder)
    {writers : List (Agent × Job)} (hw : writers = []) :
    ({ l with port := p, writers } : StreamLink Pipe).InOrder reads none :=
  ⟨h.isOpen, h.half, hp, h.readers, fun _ => hw, nofun⟩

theorem InOrder.keeps (h : l.InOrder reads u) {p : Pipe} (hp : p.InOrder) {a : Agent}
    {rest : Bytes} {begun : Bool} {writers : List (Agent × Job)}
    (hw : writers = [(a, .write rest begun)]) :
    ({ l with port := p, writers } : StreamLink Pipe).InOrder reads (some (a, rest)) := by
  refine ⟨h.isOpen, h.half, hp, h.readers, nofun, ?_⟩
  rintro _ _ ⟨⟩
  exact ⟨begun, hw⟩

/-- **A write that is moved on in working order** puts something on the wire, or is over. -/
theorem InOrder.resumeWrite {a : Agent} {rest : Bytes} (h : l.InOrder reads (some (a, rest)))
    (ha : a = .reader → reads = false) (hready : Link.ready l a = true) :
    Puts StreamLink.InOrder l reads a rest (l.resumeWrite a) ∧
      (l.resumeWrite a).1.labour < l.labour := by
  obtain ⟨begun, hw⟩ := h.busy a rest rfl
  have hwork : l.canWork (.write rest begun) = true := by
    simpa [Link.ready, ready, h.readers_ne ha, hw] using hready
  cases begun with
  | false =>
    have hr : l.resumeWrite a = (l.keepWriting a rest, none) := by
      simp [StreamLink.resumeWrite, hw, h.isOpen, h.half]
    rw [hr]
    refine ⟨⟨[], rest, rfl, (List.append_nil _).symm, .inr ⟨rfl, ?_⟩⟩, ?_⟩
    · exact h.keeps h.port (by rw [hw]; rfl)
    · simp [labour, keepWriting, hw, Job.labour]
  | true =>
    cases rest with
    | nil =>
      have hr : l.resumeWrite a = (l.leave a, some (.ok ())) := by
        simp [StreamLink.resumeWrite, hw, Port.flush]
      rw [hr]
      refine ⟨⟨[], [], rfl, (List.append_nil _).symm, .inl ⟨rfl, rfl, ?_⟩⟩, ?_⟩
      · exact h.left h.port (by rw [hw]; simp)
      · simp [labour, leave, hw, Job.labour]
    | cons b r =>
      have hroom : l.port.outbound.length < l.port.capacity := by
        simpa [canWork, Port.canWrite, Pipe.canWrite, h.port.gone] using hwork
      set room := l.port.capacity - l.port.outbound.length with hdef
      have hr : l.resumeWrite a = (({ l with port := { l.port with
            outbound := l.port.outbound ++ (b :: r).take room } } : StreamLink Pipe).keepWriting a
          ((b :: r).drop ((b :: r).take room).length), none) := by
        simp only [StreamLink.resumeWrite, hw, Port.write, Pipe.write, h.port.gone,
          Bool.false_eq_true, if_false, hdef]
      have hp : ({ l.port with outbound := l.port.outbound ++ (b :: r).take room } :
          Pipe).InOrder := ⟨h.port.gone, h.port.ending, h.port.inbound, h.port.outbound,
        h.port.stalled, h.port.capacity⟩
      rw [hr]
      refine ⟨⟨(b :: r).take room, (b :: r).drop ((b :: r).take room).length, ?_, ?_,
        .inr ⟨rfl, h.keeps hp (by rw [hw]; rfl)⟩⟩, ?_⟩
      · exact (List.prefix_iff_eq_append.mp (List.take_prefix room (b :: r))).symm
      · simp [Link.wire, Port.taken, keepWriting, List.append_assoc]
      · simp only [labour, keepWriting, hw, Job.labour, List.length_append, List.length_take,
          List.length_drop, List.length_cons, List.map_cons, List.map_nil, List.sum_cons,
          List.sum_nil, List.tail_cons, if_true]
        omega

end StreamLink

instance : Steady (StreamLink Pipe) where
  works := StreamLink.InOrder
  labour := StreamLink.labour
  accepts_works h := by simp [FarEnd.accepts, h.port.gone, h.port.ending]
  works_send bytes h := by
    have hoffer : ∀ p : Pipe, p.InOrder → (p.offer bytes).InOrder := by
      intro p hp
      simp only [Pipe.offer, hp.gone, hp.ending, Bool.or_self, Bool.false_eq_true, if_false]
      exact ⟨rfl, rfl, hp.inbound, hp.outbound, hp.stalled, hp.capacity⟩
    exact ⟨h.isOpen, h.half, hoffer _ h.port, h.readers, h.idle, h.busy⟩
  begins_read {l u} h := by
    have hr : Link.beginRead l .reader = ({ l with readers := l.readers ++ [.reader] }, none) := by
      simp only [Link.beginRead, StreamLink.beginRead, h.isOpen, Bool.false_eq_true, if_false]
    rw [hr]
    refine ⟨rfl, Nat.le_refl _, .inr ⟨rfl, h.isOpen, h.half, h.port, ?_, h.idle, h.busy⟩⟩
    simp [h.readers]
  resumes_read {l u} h hu hready := by
    have hread : l.canRead = true := by
      simp only [Link.ready, StreamLink.ready, Bool.or_eq_true, Bool.and_eq_true] at hready
      rcases hready with hr | hw
      · exact hr.2
      · cases u with
        | none => simp [h.idle rfl] at hw
        | some u =>
          obtain ⟨a, rest⟩ := u
          obtain ⟨begun, hl⟩ := h.busy a rest rfl
          simp only [hl, Bool.and_eq_true, beq_iff_eq] at hw
          exact absurd (by rw [hw.1]) (hu rest)
    obtain ⟨b, l', hr, h', hwire, hlabour⟩ := h.resumeRead hread
    simp only [Link.resumeRead, hr]
    exact ⟨hwire, Nat.le_of_eq hlabour, b, rfl, h'⟩
  begins_write {l reads} a bytes h := by
    have hw : l.writers = [] := h.idle rfl
    have hr : Link.beginWrite l a bytes
        = ({ l with writers := [(a, .write bytes false)] }, none) := by
      simp [Link.beginWrite, StreamLink.beginWrite, h.isOpen, hw]
    rw [hr]
    refine ⟨⟨[], bytes, rfl, (List.append_nil _).symm, .inr ⟨rfl, h.keeps h.port rfl⟩⟩, ?_⟩
    simp only [StreamLink.labour, StreamLink.Job.labour, hw, List.map_cons, List.map_nil,
      List.sum_cons, List.sum_nil, Bool.false_eq_true, if_false]
    omega
  resumes_write h ha hready := h.resumeWrite ha hready
  helps {l reads u a} h hready := by
    cases a with
    | release => simp [Link.helperReady, StreamLink.helperReady, h.half] at hready
    | chance =>
      simp [Link.helperReady, StreamLink.helperReady, StreamLink.wavers, h.isOpen] at hready
    | farWriter =>
      have hcan : l.port.offered ≠ [] ∧ l.port.inbound.length < l.port.capacity := by
        simp only [Link.helperReady, StreamLink.helperReady, Port.helperReady, Pipe.farCanWrite,
          h.port.gone, h.port.inbound, h.port.ending] at hready
        cases ho : l.port.offered with
        | nil => simp [ho] at hready
        | cons b r => simpa [ho] using hready
      have hne : l.port.offered.isEmpty = false := by simpa using hcan.1
      have hpos := List.length_pos_iff.mpr hcan.1
      simp only [Link.helperMove, StreamLink.helperMove, Port.helperMove, Pipe.farWrite, hne,
        Bool.false_eq_true, if_false]
      refine ⟨.inl ⟨rfl, h.isOpen, h.half, ⟨h.port.gone, h.port.ending, h.port.inbound,
        h.port.outbound, h.port.stalled, h.port.capacity⟩, h.readers, h.idle, h.busy⟩, ?_⟩
      simp only [StreamLink.labour, List.length_drop]
      omega
    | farReader =>
      have hne : l.port.outbound ≠ [] := by
        intro ho
        simp [Link.helperReady, StreamLink.helperReady, Port.helperReady, Pipe.farCanRead, ho,
          h.port.outbound] at hready
      have hpos := List.length_pos_iff.mpr hne
      refine ⟨.inl ⟨?_, h.isOpen, h.half, ⟨h.port.gone, h.port.ending, h.port.inbound,
        h.port.outbound, h.port.stalled, h.port.capacity⟩, h.readers, h.idle, h.busy⟩, ?_⟩
      · simp [Link.wire, Link.helperMove, StreamLink.helperMove, Port.taken, Port.helperMove,
          Pipe.farRead]
      · simp only [StreamLink.labour, Link.helperMove, StreamLink.helperMove, Port.helperMove,
          Pipe.farRead, List.length_nil]
        omega
    | reader | call n | porter => cases hready
  all_read {l u} h hu hstill hready := by
    have hread : l.canRead = false := by
      simp only [Link.ready, StreamLink.ready, h.readers, if_true, List.head?_cons,
        beq_self_eq_true, Bool.true_and, Bool.or_eq_false_iff] at hready
      exact hready.1
    simp only [StreamLink.canRead, StreamLink.hasData, Port.canRead, Pipe.canRead,
      Bool.or_eq_false_iff, Bool.not_eq_false', List.isEmpty_iff] at hread
    obtain ⟨-, hb, hi, -⟩ := hread
    have ho : l.port.offered = [] := by
      have hw := hstill.farWriter
      have hroom := Nat.ne_of_gt h.port.capacity
      by_contra hne
      simp [Link.helperReady, StreamLink.helperReady, Port.helperReady, Pipe.farCanWrite,
        h.port.gone, h.port.inbound, hi, hne, hroom] at hw
    simp [FarEnd.incoming, StreamLink.underWay, hb, hi, ho]
  write_ready {l reads a rest} h hstill := by
    obtain ⟨begun, hw⟩ := h.busy a rest rfl
    have hout : l.port.outbound = [] := by
      have hr := hstill.farReader
      by_contra hne
      simp [Link.helperReady, StreamLink.helperReady, Port.helperReady, Pipe.farCanRead,
        h.port.gone, h.port.stalled, hne] at hr
    have hwork : l.canWork (.write rest begun) = true := by
      unfold StreamLink.canWork
      split
      · simp [Port.canWrite, Pipe.canWrite, hout, h.port.capacity]
      · rfl
    simp [Link.ready, StreamLink.ready, hw, hwork]
  all_delivered {l reads} h hstill := by
    have hout : l.port.outbound = [] := by
      have hr := hstill.farReader
      by_contra hne
      simp [Link.helperReady, StreamLink.helperReady, Port.helperReady, Pipe.farCanRead,
        h.port.gone, h.port.stalled, hne] at hr
    simp [Link.delivered, Link.wire, Port.delivered, Port.taken, hout]

/-! ### The line before a link in working order -/

namespace Outlet

/-- What stands to be written for an entry. -/
def bytes (w : Outlet) (e : Entry) : Bytes :=
  match e.outgoing with
  | .frame bytes => bytes
  | .ack => [ackByte]
  | .again => w.last.getD []

section Line

variable {w : Outlet} {a : Agent} {o : Outgoing} {r : List Entry}

/-- Nobody who joins the line has begun. -/
theorem behind_enter (h : ∀ e ∈ w.line.tail, e.begun = false) (a : Agent) (o : Outgoing) :
    ∀ e ∈ (w.enter a o).line.tail, e.begun = false := by
  intro e he
  cases hw : w.line with
  | nil =>
    rw [Outlet.enter, hw] at he
    cases he
  | cons first r =>
    rw [Outlet.enter, hw] at he
    rcases List.mem_append.mp he with he | he
    · exact h e (by rw [hw]; exact he)
    · rw [List.mem_singleton.mp he]

/-- Nobody behind the first in line has begun. -/
theorem behind_first (h : ∀ e ∈ w.line.tail, e.begun = false) {e : Entry}
    (hline : w.line = e :: r) : ∀ e' ∈ r, e'.begun = false := fun e' he =>
  h e' (by rw [hline]; exact he)

/-- The first in line does not stand there again. -/
theorem ne_first (hn : (w.line.map Entry.agent).Nodup) {e : Entry} (hline : w.line = e :: r) :
    ∀ e' ∈ r, e'.agent ≠ e.agent := by
  rw [hline, List.map_cons, List.nodup_cons] at hn
  exact fun e' he hea => hn.1 (List.mem_map.mpr ⟨e', he, hea⟩)

theorem without_head {v : Outlet} {begun : Bool} (hline : v.line = ⟨a, o, begun⟩ :: r)
    (hout : ∀ e ∈ r, e.agent ≠ a) : (v.without a).line = r := by
  simp only [without, hline, List.filter_cons, ne_eq, not_true_eq_false, decide_false,
    Bool.false_eq_true, if_false]
  exact List.filter_eq_self.mpr fun e he => by simpa using hout e he

/-- **The turn of the first in line comes:** its write begins, if there is anything to
write. -/
theorem move_begins {L : Type} [Link L] (l : L) (hline : w.line = ⟨a, o, false⟩ :: r) :
    (∃ v : Outlet, v.line = ⟨a, o, true⟩ :: r ∧
      v.bytes ⟨a, o, true⟩ = w.bytes ⟨a, o, false⟩ ∧ (o = .again → v.last ≠ none) ∧
      w.move l a = v.after a (Link.beginWrite l a (w.bytes ⟨a, o, false⟩))) ∨
    o = .again ∧ w.move l a = (w.without a, l, some (.ok .nothing)) := by
  have hbegin : w.begin.line = ⟨a, o, true⟩ :: r := by simp only [begin, hline]
  have hlast : w.begin.last = w.last := by simp only [begin, hline]
  cases o with
  | frame bytes =>
    exact .inl ⟨{ w.begin with last := some bytes }, hbegin, rfl, by rintro ⟨⟩, by
      simp only [Outlet.move, hline, Outlet.bytes]⟩
  | ack =>
    exact .inl ⟨w.begin, hbegin, rfl, by rintro ⟨⟩,
      by simp only [Outlet.move, hline, Outlet.bytes]⟩
  | again =>
    cases hw : w.last with
    | some bytes =>
      refine .inl ⟨w.begin, hbegin, by simp only [Outlet.bytes, hlast], fun _ => ?_, ?_⟩
      · rw [hlast, hw]
        rintro ⟨⟩
      · simp only [Outlet.move, hline, Outlet.bytes, hw, Option.getD_some]
    | none => exact .inr ⟨rfl, by simp only [Outlet.move, hline, hw]⟩

end Line

variable {L : Type} [Link L] [Steady L]

/-- The line and the link agree: only the turn of the first in line has come, if any, and
it has put `put` on the wire behind `base`. -/
structure Below (w : Outlet) (l : L) (reads : Bool) (base put : Bytes) : Prop where
  wire : Link.wire l = base ++ put
  behind : ∀ e ∈ w.line.tail, e.begun = false
  idle : (∀ e, w.line.head? = some e → e.begun = false) → put = [] ∧ Steady.works l reads none
  busy : ∀ e, w.line.head? = some e → e.begun = true →
    ∃ rest, w.bytes e = put ++ rest ∧ Steady.works l reads (some (e.agent, rest))

variable {w : Outlet} {l l' : L} {reads reads' : Bool} {base put : Bytes}

/-- Who writes is the first in line. -/
theorem Below.works (h : w.Below l reads base put) : ∃ u, Steady.works l reads u ∧
    ∀ a rest, u = some (a, rest) → ∃ e, w.line.head? = some e ∧ e.agent = a := by
  cases hw : w.line.head? with
  | none =>
    have hidle := h.idle (by rw [hw]; nofun)
    exact ⟨none, hidle.2, nofun⟩
  | some e =>
    cases hb : e.begun with
    | false =>
      have hidle := h.idle fun e' he' => by rw [← Option.some.inj (hw.symm.trans he'), hb]
      exact ⟨none, hidle.2, nofun⟩
    | true =>
      obtain ⟨rest, -, hworks⟩ := h.busy e hw hb
      refine ⟨_, hworks, ?_⟩
      rintro _ _ ⟨⟩
      exact ⟨e, rfl, rfl⟩

/-- A change of the link that puts nothing on the wire and leaves who writes alone. -/
theorem Below.link (h : w.Below l reads base put) (hwire : Link.wire l' = Link.wire l)
    (hworks : ∀ u, (∀ a rest, u = some (a, rest) → ∃ e, w.line.head? = some e ∧ e.agent = a) →
      Steady.works l reads u → Steady.works l' reads' u) : w.Below l' reads' base put where
  wire := hwire.trans h.wire
  behind := h.behind
  idle hi := ⟨(h.idle hi).1, hworks none nofun (h.idle hi).2⟩
  busy e he hb := by
    obtain ⟨rest, hbytes, hw⟩ := h.busy e he hb
    refine ⟨rest, hbytes, hworks _ ?_ hw⟩
    rintro _ _ ⟨⟩
    exact ⟨e, he, rfl⟩

/-- Whatever goes on below the link may go on with what is being written. -/
theorem Below.helps {a : Agent} (h : w.Below l reads base put)
    (hr : Link.helperReady l a = true) :
    (∃ put', w.Below (Link.helperMove l a) reads base put') ∧
      Steady.labour (Link.helperMove l a) < Steady.labour l := by
  by_cases hbegun : ∃ e, w.line.head? = some e ∧ e.begun = true
  · obtain ⟨e, he, hb⟩ := hbegun
    obtain ⟨rest, hbytes, hworks⟩ := h.busy e he hb
    obtain ⟨hforwards, hlabour⟩ := Steady.helps hworks hr
    refine ⟨?_, hlabour⟩
    have hfirst : ∀ e', w.line.head? = some e' → e' = e := fun e' he' =>
      Option.some.inj (he'.symm.trans he)
    rcases hforwards with ⟨hwire, hworks'⟩ | ⟨_, now, left, hu, hwire, hworks'⟩
    · refine ⟨put, hwire.trans h.wire, h.behind, fun hidle => ?_, fun e' he' _ => ?_⟩
      · exact absurd (hidle e he) (by simp [hb])
      · exact hfirst e' he' ▸ ⟨rest, hbytes, hworks'⟩
    · obtain ⟨rfl, rfl⟩ := Prod.mk.inj (Option.some.inj hu)
      refine ⟨put ++ now, ?_, h.behind, fun hidle => ?_, fun e' he' _ => ?_⟩
      · rw [hwire, h.wire, List.append_assoc]
      · exact absurd (hidle e he) (by simp [hb])
      · exact hfirst e' he' ▸ ⟨left, by rw [hbytes, List.append_assoc], hworks'⟩
  · have hnone : ∀ e, w.line.head? = some e → e.begun = false := fun e he =>
      Bool.eq_false_iff.mpr fun hb => hbegun ⟨e, he, hb⟩
    obtain ⟨rfl, hworks⟩ := h.idle hnone
    obtain ⟨hforwards, hlabour⟩ := Steady.helps hworks hr
    refine ⟨⟨[], ?_⟩, hlabour⟩
    rcases hforwards with ⟨hwire, hworks'⟩ | ⟨_, _, _, hu, -⟩
    · exact ⟨hwire.trans h.wire, h.behind, fun _ => ⟨rfl, hworks'⟩,
        fun e he hb => absurd hb (by simp [hnone e he])⟩
    · cases hu

/-- Joining the line changes nothing for the first. -/
theorem Below.enter (h : w.Below l reads base put) (a : Agent) (o : Outgoing) :
    (w.enter a o).Below l reads base put where
  wire := h.wire
  behind := behind_enter h.behind a o
  idle hi := h.idle fun e he => by
    obtain ⟨r, hr⟩ := List.head?_eq_some_iff.mp he
    obtain ⟨r', hr'⟩ := head_enter (a := a) (o := o) hr
    exact hi e (by rw [hr']; rfl)
  busy e he hb := by
    obtain ⟨r, hr⟩ := List.head?_eq_some_iff.mp he
    obtain ⟨r', hr'⟩ := head_of_enter hr hb
    exact h.busy e (by rw [hr']; rfl) hb

/-- What a move of the first in line leaves on a link in working order: its write goes on,
or is over and on the wire, or there was nothing to write again. -/
inductive Moved (reads : Bool) (base bytes : Bytes) (a : Agent) (o : Outgoing) (r : List Entry) :
    Outlet × L × Progress Written → Prop where
  | on {v : Outlet} {l : L} {put : Bytes} (line : v.line = ⟨a, o, true⟩ :: r)
      (below : v.Below l reads base put) : Moved reads base bytes a o r (v, l, none)
  | through {v : Outlet} {l : L} (line : v.line = r) (below : v.Below l reads (base ++ bytes) []) :
      Moved reads base bytes a o r (v, l, some (.ok .sent))
  | nothing {v : Outlet} {l : L} (line : v.line = r) (again : o = .again)
      (below : v.Below l reads base []) : Moved reads base bytes a o r (v, l, some (.ok .nothing))

variable {a : Agent} {o : Outgoing} {r : List Entry}

/-- When the first in line is through, nobody's turn has come. -/
theorem below_idle {v : Outlet} (hline : v.line = r) (hbehind : ∀ e ∈ r, e.begun = false)
    (hwire : Link.wire l = base) (hworks : Steady.works l reads none) :
    v.Below l reads base [] := by
  subst hline
  refine ⟨hwire.trans (List.append_nil _).symm, fun e he => hbehind e (List.mem_of_mem_tail he),
    fun _ => ⟨rfl, hworks⟩, fun e he hb => ?_⟩
  rw [hbehind e (List.mem_of_mem_head? he)] at hb
  cases hb

/-- A part of a write of the first in line. -/
theorem moved_after {v : Outlet} {rest : Bytes} {q : L × Progress Unit}
    (hline : v.line = ⟨a, o, true⟩ :: r) (hbehind : ∀ e ∈ r, e.begun = false)
    (hout : ∀ e ∈ r, e.agent ≠ a) (hbytes : v.bytes ⟨a, o, true⟩ = put ++ rest)
    (hwire : Link.wire l = base ++ put) (hq : Puts Steady.works l reads a rest q) :
    Moved reads base (put ++ rest) a o r (v.after a q) := by
  obtain ⟨l', res⟩ := q
  obtain ⟨now, left, rfl, hwire', ⟨hres, rfl, hworks⟩ | ⟨hres, hworks⟩⟩ := hq <;>
    obtain rfl := hres
  · refine .through (without_head hline hout)
      (below_idle (without_head hline hout) hbehind ?_ hworks)
    rw [hwire', hwire, List.append_nil, List.append_assoc]
  · have hbelow : v.Below l' reads base (put ++ now) := by
      refine ⟨?_, fun e he => ?_, fun hi => ?_, fun e he _ => ?_⟩
      · rw [hwire', hwire, List.append_assoc]
      · rw [hline] at he
        exact hbehind e he
      · have hfirst := hi ⟨a, o, true⟩ (by rw [hline]; rfl)
        cases hfirst
      · rw [hline] at he
        obtain rfl := Option.some.inj he
        exact ⟨left, by rw [hbytes, List.append_assoc], hworks⟩
    exact .on hline hbelow

/-- The turn of the first in line comes, and its write begins. -/
theorem moved_begins {v : Outlet} {bytes : Bytes} (hline : v.line = ⟨a, o, true⟩ :: r)
    (hbehind : ∀ e ∈ r, e.begun = false) (hout : ∀ e ∈ r, e.agent ≠ a)
    (hbytes : v.bytes ⟨a, o, true⟩ = bytes) (hwire : Link.wire l = base)
    (hworks : Steady.works l reads none) :
    Moved reads base bytes a o r (v.after a (Link.beginWrite l a bytes)) ∧
      Steady.labour (v.after a (Link.beginWrite l a bytes)).2.1
        < Steady.labour l + (2 * bytes.length + 3) := by
  obtain ⟨hputs, hlabour⟩ := Steady.begins_write a bytes hworks
  have hall : v.bytes ⟨a, o, true⟩ = [] ++ bytes := hbytes
  have hnothing : Link.wire l = base ++ [] := hwire.trans (List.append_nil _).symm
  rw [(v.after_line a (Link.beginWrite l a bytes)).1]
  exact ⟨moved_after hline hbehind hout hall hnothing hputs, by omega⟩

/-- **A move of the first in line** on a link in working order. -/
theorem Below.move (h : w.Below l reads base put) {begun : Bool}
    (hline : w.line = ⟨a, o, begun⟩ :: r) (hn : (w.line.map Entry.agent).Nodup)
    (hr : w.ready l a = true) (ha : a = .reader → reads = false) :
    Moved reads base (w.bytes ⟨a, o, begun⟩) a o r (w.move l a) ∧
      Steady.labour (w.move l a).2.1 < Steady.labour l
        + if begun then 0 else 2 * (w.bytes ⟨a, o, begun⟩).length + 3 := by
  have hbehind := behind_first h.behind hline
  have hout := ne_first hn hline
  cases begun with
  | true =>
    have hready : Link.ready l a = true := by simpa [ready, hline] using hr
    obtain ⟨rest, hbytes, hworks⟩ := h.busy _ (by rw [hline]; rfl) rfl
    obtain ⟨hputs, hlabour⟩ := Steady.resumes_write hworks ha hready
    have hmove : w.move l a = w.after a (Link.resumeWrite l a) := by
      simp only [Outlet.move, hline]
    rw [hmove, (w.after_line a (Link.resumeWrite l a)).1, hbytes]
    exact ⟨moved_after hline hbehind hout hbytes h.wire hputs, hlabour⟩
  | false =>
    obtain ⟨rfl, hworks⟩ := h.idle fun e he => by
      rw [hline] at he
      rw [← Option.some.inj he]
    have hwire : Link.wire l = base := h.wire.trans (List.append_nil _)
    rw [if_neg Bool.false_ne_true]
    rcases move_begins l hline with ⟨v, hv, hbytes, -, hmove⟩ | ⟨rfl, hmove⟩
    · rw [hmove]
      exact moved_begins hv hbehind hout hbytes hwire hworks
    · have hleft := without_head hline hout
      rw [hmove]
      exact ⟨.nothing hleft rfl (below_idle hleft hbehind hwire hworks),
        Nat.lt_add_of_pos_right (Nat.succ_pos _)⟩

end Outlet

end ProbeLink
