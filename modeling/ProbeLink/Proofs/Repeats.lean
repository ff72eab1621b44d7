/-
# What is sent again

Somebody writes alone, one thing after the other, on a link on which any set of writes
fails. A frame is kept from the moment its turn comes, so a frame that could not be
written is kept as well: what is sent again is the frame that was asked for last, whatever
came of it (`Errands.Kept`, kept by every step). Nothing is written only if no frame was
ever asked for.

That is the last frame that went through if none has failed since
(`Errands.again_repeats`). After a failure it is not: a command that was reported as failed
reaches the target when it asks for a repetition (`Errands.again_after_failure`).

Key definitions: `Errands`, `Errands.lastAsked`, `Errands.lastSent`, `Errands.Repeats`.
Key theorems: `Errands.Kept.step`, `Errands.again_repeats`.
-/
import Mathlib.Data.List.Basic
import Mathlib.Data.List.Induction
import ProbeLink.Outlet
import ProbeLink.Proofs.FarEnd

namespace ProbeLink

/-- The frame that is to be written. -/
def Outgoing.frame? : Outgoing → Option Bytes
  | .frame bytes => some bytes
  | .ack => none
  | .again => none

/-- Somebody who is alone gets in line and writes at once. -/
def Outlet.perform {L : Type} [Link L] (w : Outlet) (l : L) (o : Outgoing) :
    Outlet × L × Progress Written :=
  (w.enter .reader o).move l .reader

/-! ### Writes on a scripted link -/

namespace ScriptLink

theorem wire_wrote (l : ScriptLink) (bytes : Bytes) :
    (l.note (.wrote bytes)).wire = l.wire ++ bytes := by
  refine (wire_foldl (bytes ++ []) l.record).trans ?_
  rw [List.append_nil]
  rfl

/-- A write on an open link is an attempt. It puts all of the bytes on the wire, or fails
and puts nothing there. -/
theorem write_open {l : ScriptLink} (hl : l.isClosed = false) (bytes : Bytes) :
    (l.write bytes).1.isClosed = false ∧ (l.write bytes).1.writeFault = l.writeFault ∧
      (l.write bytes).1.attempts = l.attempts + 1 ∧
      (l.writeFault l.attempts = none →
        (l.write bytes).2 = .ok () ∧ (l.write bytes).1.wire = l.wire ++ bytes) ∧
      ∀ e, l.writeFault l.attempts = some e →
        (l.write bytes).2 = .error e ∧ (l.write bytes).1.wire = l.wire := by
  unfold write
  rw [if_neg (by rw [hl]; exact Bool.false_ne_true)]
  simp only
  split
  · rename_i e he
    refine ⟨hl, rfl, rfl, fun hnone => ?_, fun e' he' => ?_⟩
    · rw [he] at hnone
      cases hnone
    · obtain rfl : e = e' := Option.some.inj (he.symm.trans he')
      exact ⟨rfl, rfl⟩
  · rename_i hnone
    refine ⟨hl, rfl, rfl, fun _ => ⟨rfl, ?_⟩, fun e he => ?_⟩
    · exact wire_wrote { l with attempts := l.attempts + 1 } bytes
    · rw [hnone] at he
      cases he

end ScriptLink

/-! ### Errands -/

/-- A way onto a link, with all that was written there one after the other and what came of
it, oldest first. -/
structure Errands where
  outlet : Outlet := {}
  link : ScriptLink
  done : List (Outgoing × Progress Written) := []

namespace Errands

/-- A new way onto an open link, with the attempts that will fail. -/
def start (faults : ℕ → Option IoFault) : Errands :=
  { link := { writeFault := fun n => (faults n).map .io } }

/-- One more thing is written. -/
def step (x : Errands) (o : Outgoing) : Errands where
  outlet := (x.outlet.perform x.link o).1
  link := (x.outlet.perform x.link o).2.1
  done := x.done ++ [(o, (x.outlet.perform x.link o).2.2)]

def run (x : Errands) (os : List Outgoing) : Errands := os.foldl step x

/-- The frame that was asked for last, whatever came of it. -/
def lastAsked (x : Errands) : Option Bytes :=
  (x.done.filterMap fun d => d.1.frame?).getLast?

/-- The frame of an errand that went through. -/
def sent? : Outgoing × Progress Written → Option Bytes
  | (.frame bytes, some (.ok _)) => some bytes
  | _ => none

/-- The frame that went through last. -/
def lastSent (x : Errands) : Option Bytes := (x.done.filterMap sent?).getLast?

/-- A repetition now is one attempt to write the frame, and says whether it went through;
without a frame it writes nothing and says so. -/
def Repeats (x : Errands) (frame : Option Bytes) : Prop :=
  match frame with
  | none => (x.step .again).link = x.link ∧
      (x.step .again).done = x.done ++ [(.again, some (.ok .nothing))]
  | some bytes => (x.step .again).link.attempts = x.link.attempts + 1 ∧
      (x.link.writeFault x.link.attempts = none →
        (x.step .again).link.wire = x.link.wire ++ bytes ∧
          (x.step .again).done = x.done ++ [(.again, some (.ok .sent))]) ∧
      ∀ e, x.link.writeFault x.link.attempts = some e →
        (x.step .again).link.wire = x.link.wire ∧
          (x.step .again).done = x.done ++ [(.again, some (.error e))]

/-! ### What is kept -/

/-- Nobody is in line, the frame that was asked for last is kept, and each errand with a
frame went through or failed. -/
structure Kept (faults : ℕ → Option IoFault) (x : Errands) : Prop where
  line : x.outlet.line = []
  last : x.outlet.last = x.lastAsked
  isOpen : x.link.isClosed = false
  faults : x.link.writeFault = fun n => (faults n).map .io
  told : ∀ d ∈ x.done, d.1.frame? ≠ none →
    d.2 = some (.ok .sent) ∨ ∃ e, d.2 = some (.error (.io e))

variable {faults : ℕ → Option IoFault} {x : Errands}

/-- What a write of the only one in line leaves: nobody in line, and the answer of the
link. -/
theorem after_write {w : Outlet} {o : Outgoing} (hw : w.line = [⟨.reader, o, true⟩])
    (l : ScriptLink) (bytes : Bytes) :
    (w.after .reader (Link.beginWrite l .reader bytes)).1 = { w with line := [] } ∧
      (w.after .reader (Link.beginWrite l .reader bytes)).2.1 = (l.write bytes).1 ∧
      (w.after .reader (Link.beginWrite l .reader bytes)).2.2
        = some ((l.write bytes).2.map fun _ => .sent) := by
  have hbegin : Link.beginWrite l .reader bytes = ((l.write bytes).1, some (l.write bytes).2) := rfl
  have hleft : w.without .reader = { w with line := [] } := by
    simp [Outlet.without, hw]
  rw [hbegin]
  cases (l.write bytes).2 with
  | ok u => exact ⟨hleft, rfl, rfl⟩
  | error e => exact ⟨hleft, rfl, rfl⟩

/-- What one who is alone leaves when he has something to write. -/
theorem perform_writes {w : Outlet} (hw : w.line = []) (l : ScriptLink) {o : Outgoing}
    {bytes : Bytes} (ho : o = .frame bytes ∨ o = .ack ∧ bytes = [ackByte] ∨
      o = .again ∧ w.last = some bytes) :
    (w.perform l o).1 = ⟨[], o.frame?.or w.last⟩ ∧ (w.perform l o).2.1 = (l.write bytes).1 ∧
      (w.perform l o).2.2 = some ((l.write bytes).2.map fun _ => .sent) := by
  obtain ⟨line, last⟩ := w
  obtain rfl : line = [] := hw
  rcases ho with rfl | ⟨rfl, rfl⟩ | ⟨rfl, hlast⟩
  · exact after_write rfl l bytes
  · exact after_write rfl l [ackByte]
  · obtain rfl : last = some bytes := hlast
    exact after_write rfl l bytes

/-- Without a frame there is nothing to write again. -/
theorem perform_nothing {w : Outlet} (hw : w.line = []) (hlast : w.last = none) (l : ScriptLink) :
    w.perform l .again = (⟨[], none⟩, l, some (.ok .nothing)) := by
  obtain ⟨line, last⟩ := w
  obtain rfl : line = [] := hw
  obtain rfl : last = none := hlast
  rfl

theorem lastAsked_step (x : Errands) (o : Outgoing) :
    (x.step o).lastAsked = o.frame?.or x.lastAsked := by
  have hdone : (x.step o).done = x.done ++ [(o, (x.outlet.perform x.link o).2.2)] := rfl
  unfold lastAsked
  rw [hdone, List.filterMap_append]
  cases ho : o.frame? with
  | none => simp [ho]
  | some bytes => simp [ho]

/-- A write leaves nobody in line and keeps its frame, if it is one. -/
theorem Kept.writes (h : x.Kept faults) {o : Outgoing} {bytes : Bytes}
    (ho : o = .frame bytes ∨ o = .ack ∧ bytes = [ackByte] ∨
      o = .again ∧ x.outlet.last = some bytes) : (x.step o).Kept faults := by
  obtain ⟨hw, hl, hr⟩ := perform_writes h.line x.link ho
  obtain ⟨hopen, hsame, -, hgood, hbad⟩ := ScriptLink.write_open h.isOpen bytes
  have hlink : (x.step o).link = (x.link.write bytes).1 := hl
  have houtlet : (x.step o).outlet = ⟨[], o.frame?.or x.outlet.last⟩ := hw
  refine ⟨by rw [houtlet], ?_, by rw [hlink, hopen], by rw [hlink, hsame, h.faults],
    fun d hd hframe => ?_⟩
  · rw [houtlet, lastAsked_step, h.last]
  · have hd' : d ∈ x.done ++ [(o, (x.outlet.perform x.link o).2.2)] := hd
    rcases List.mem_append.mp hd' with hd' | hd'
    · exact h.told d hd' hframe
    · rw [List.mem_singleton.mp hd', hr]
      cases hfault : x.link.writeFault x.link.attempts with
      | none =>
        left
        rw [(hgood hfault).1]
        rfl
      | some e =>
        right
        rw [h.faults] at hfault
        obtain ⟨cause, -, rfl⟩ := Option.map_eq_some_iff.mp hfault
        refine ⟨cause, ?_⟩
        rw [(hbad _ (by rw [h.faults, hfault])).1]
        rfl

/-- **Every step keeps the frame that was asked for last.** -/
theorem Kept.step (h : x.Kept faults) (o : Outgoing) : (x.step o).Kept faults := by
  cases o with
  | frame bytes => exact h.writes (.inl rfl)
  | ack => exact h.writes (.inr (.inl ⟨rfl, rfl⟩))
  | again =>
    cases hlast : x.outlet.last with
    | some bytes => exact h.writes (.inr (.inr ⟨rfl, hlast⟩))
    | none =>
      have hperform := perform_nothing h.line hlast x.link
      have houtlet : (x.step .again).outlet = ⟨[], none⟩ := congrArg Prod.fst hperform
      have hlink : (x.step .again).link = x.link := congrArg (·.2.1) hperform
      refine ⟨by rw [houtlet], ?_, by rw [hlink, h.isOpen], by rw [hlink, h.faults],
        fun d hd hframe => ?_⟩
      · rw [houtlet, lastAsked_step, ← h.last, hlast]
        rfl
      · have hd' : d ∈ x.done ++ [(.again, (x.outlet.perform x.link .again).2.2)] := hd
        rcases List.mem_append.mp hd' with hd' | hd'
        · exact h.told d hd' hframe
        · rw [List.mem_singleton.mp hd'] at hframe
          exact absurd rfl hframe

theorem kept_start (faults : ℕ → Option IoFault) : (start faults).Kept faults where
  line := rfl
  last := rfl
  isOpen := rfl
  faults := rfl
  told := nofun

theorem Kept.run : ∀ {x : Errands} (os : List Outgoing), x.Kept faults → (x.run os).Kept faults
  | _, [], h => h
  | _, o :: os, h => Kept.run os (h.step o)

/-- What is kept is what is sent again. -/
theorem Kept.repeats (h : x.Kept faults) : x.Repeats x.lastAsked := by
  rw [← h.last]
  cases hlast : x.outlet.last with
  | none =>
    have hperform := perform_nothing h.line hlast x.link
    refine ⟨congrArg (·.2.1) hperform, ?_⟩
    show x.done ++ [(.again, (x.outlet.perform x.link .again).2.2)] = _
    rw [hperform]
  | some bytes =>
    obtain ⟨-, hl, hr⟩ := perform_writes h.line x.link (.inr (.inr ⟨rfl, hlast⟩))
    obtain ⟨-, -, hattempts, hgood, hbad⟩ := ScriptLink.write_open h.isOpen bytes
    have hlink : (x.step .again).link = (x.link.write bytes).1 := hl
    have hdone : (x.step .again).done
        = x.done ++ [(.again, some ((x.link.write bytes).2.map fun _ => .sent))] := by
      rw [← hr]
      rfl
    refine ⟨by rw [hlink, hattempts], fun hnone => ?_, fun e he => ?_⟩
    · obtain ⟨hok, hwire⟩ := hgood hnone
      exact ⟨by rw [hlink, hwire], by rw [hdone, hok]; rfl⟩
    · obtain ⟨herr, hwire⟩ := hbad e he
      exact ⟨by rw [hlink, hwire], by rw [hdone, herr]; rfl⟩

/-- No frame that failed is the last one: behind it another one went through. -/
def Recovered (done : List (Outgoing × Progress Written)) : Prop :=
  ∀ before bytes e behind, done = before ++ (.frame bytes, some (.error e)) :: behind →
    ∃ d ∈ behind, sent? d ≠ none

/-- If no failed frame is the last one, the last frame went through. -/
theorem lastSent_eq_lastAsked (done : List (Outgoing × Progress Written))
    (htold : ∀ d ∈ done, d.1.frame? ≠ none →
      d.2 = some (.ok .sent) ∨ ∃ e, d.2 = some (.error (.io e)))
    (h : Recovered done) :
    (done.filterMap sent?).getLast? = (done.filterMap fun d => d.1.frame?).getLast? := by
  -- the last errand decides, unless it has no frame
  induction done using List.reverseRecOn with
  | nil => rfl
  | append_singleton done d ih =>
    obtain ⟨o, r⟩ := d
    rw [List.filterMap_append, List.filterMap_append]
    cases o with
    | frame bytes =>
      rcases htold (.frame bytes, r) (by simp) nofun with hr | ⟨e, hr⟩
      · obtain rfl : r = some (.ok .sent) := hr
        simp [sent?, Outgoing.frame?]
      · obtain rfl : r = some (.error (.io e)) := hr
        obtain ⟨d, hd, -⟩ := h done bytes (.io e) [] rfl
        cases hd
    | ack | again =>
      have hrest : Recovered done := by
        rintro before bytes e behind rfl
        obtain ⟨d, hd, hsent⟩ := h before bytes e (behind ++ [(_, r)])
          (by rw [List.append_assoc, List.cons_append])
        rcases List.mem_append.mp hd with hd | hd
        · exact ⟨d, hd, hsent⟩
        · rw [List.mem_singleton.mp hd] at hsent
          exact absurd rfl hsent
      have hlast := ih (fun d hd => htold d (List.mem_append_left _ hd)) hrest
      simpa [sent?, Outgoing.frame?] using hlast

/-- **What is sent again is the frame that was asked for last.** Whichever writes fail, a
repetition is one attempt to write that frame, and writes nothing if there never was one.
It is the frame that went through last as long as behind each failed frame another one went
through. -/
theorem again_repeats (faults : ℕ → Option IoFault) (os : List Outgoing) :
    ((start faults).run os).Repeats ((start faults).run os).lastAsked ∧
      (Recovered ((start faults).run os).done →
        ((start faults).run os).Repeats ((start faults).run os).lastSent) := by
  have hkept := (kept_start faults).run os
  refine ⟨hkept.repeats, fun h => ?_⟩
  have hlast : ((start faults).run os).lastSent = ((start faults).run os).lastAsked :=
    lastSent_eq_lastAsked _ hkept.told h
  rw [hlast]
  exact hkept.repeats

/-- The first write fails, and it is a frame. -/
def refused : Errands :=
  (start fun n => if n = 0 then some .reset else none).run [.frame (commandFrame "vTR" "foo")]

/-- A frame that could not be written is sent again, though no frame ever went through. -/
theorem again_after_failure : refused.lastSent = none ∧ refused.link.wire = [] ∧
    (refused.step .again).link.wire = commandFrame "vTR" "foo" ∧
    ¬refused.Repeats refused.lastSent := by
  have hnone : refused.lastSent = none := rfl
  refine ⟨hnone, rfl, rfl, fun h => ?_⟩
  rw [hnone] at h
  have hsame : (refused.step .again).link.attempts = refused.link.attempts := congrArg _ h.1
  exact absurd hsame (by decide)

end Errands

end ProbeLink
