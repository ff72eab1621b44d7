/-
# Links that write all or nothing

On a link that writes all or nothing whatever is written is on the wire as one piece, or not at
all. Somebody below may put it there before whoever writes is told, and may go on with a write
that was given up (`Whole.carries`). A scripted link does neither, a serial line does both: its
porter knows nothing of those who wait (`SerialLine.Carries.carry`).

Before such a link only the first in line has a write under way, so a move of that line gets a
whole piece on the wire, or nothing, and giving an agent up leaves at most the one write behind
that was under way (`Outlet.Holds.move`, `Outlet.Holds.leave`).

Key definitions: `Pending`, `Whole`, `SerialLine.Carries`, `Outlet.Holds`, `Outlet.Pays`.
Key theorems: `SerialLine.Carries.carry`, `Outlet.Holds.leave`, `Outlet.Holds.move`.
-/
import Mathlib.Data.List.Perm.Basic
import ProbeLink.Proofs.Wire

namespace ProbeLink

/-! ### Links that write all or nothing -/

/-- A write that is not answered yet. -/
structure Pending where
  agent : Agent
  bytes : Bytes
  /-- All of it is on the wire. Before, nothing is. -/
  landed : Bool := false

/-- What is on the wire and not answered yet. -/
def Pending.due : Option Pending → List Bytes
  | some ⟨_, bytes, true⟩ => [bytes]
  | _ => []

section Laws

variable {L : Type} [Link L]

/-- What a move of a write can come to. -/
inductive Writes (carries : L → Option Pending → List (Agent × Bytes) → Prop) (l : L) (p : Pending)
    (loose : List (Agent × Bytes)) : L × Progress Unit → Prop where
  | waits {l' : L} (wire : Link.wire l' = Link.wire l) (left : carries l' (some p) loose) :
      Writes carries l p loose (l', none)
  | put {l' : L} (early : p.landed = false) (wire : Link.wire l' = Link.wire l ++ p.bytes)
      (left : carries l' none loose) : Writes carries l p loose (l', some (.ok ()))
  | told {l' : L} (landed : p.landed = true) (wire : Link.wire l' = Link.wire l)
      (left : carries l' none loose) : Writes carries l p loose (l', some (.ok ()))
  | fails {l' : L} {e : LinkError} (early : p.landed = false)
      (wire : Link.wire l' = Link.wire l) (left : carries l' none loose) :
      Writes carries l p loose (l', some (.error e))

/-- Nothing gets on the wire, and no write changes but those of `mine`. -/
structure Spares (carries : L → Option Pending → List (Agent × Bytes) → Prop)
    (mine : Agent → Prop) (l l' : L) : Prop where
  wire : Link.wire l' = Link.wire l
  carries : ∀ u loose, (∀ p, u = some p → ¬mine p.agent) → carries l u loose →
    carries l' u loose

/-- What somebody below does: nothing that can be seen but that writes which were given up may
come to nothing; or it puts all of what is being written on the wire; or all of a write that was
given up. -/
inductive Helps (carries : L → Option Pending → List (Agent × Bytes) → Prop) (l : L)
    (u : Option Pending) (loose : List (Agent × Bytes)) (l' : L) : Prop where
  | spares {loose' : List (Agent × Bytes)} (wire : Link.wire l' = Link.wire l)
      (fewer : loose'.Subperm loose) (left : carries l' u loose')
  | lands {a : Agent} {bytes : Bytes} (mine : u = some ⟨a, bytes, false⟩)
      (wire : Link.wire l' = Link.wire l ++ bytes)
      (left : carries l' (some ⟨a, bytes, true⟩) loose)
  | strays {w : Agent × Bytes} {loose' : List (Agent × Bytes)} (split : loose.Perm (w :: loose'))
      (wire : Link.wire l' = Link.wire l ++ w.2) (left : carries l' u loose')

end Laws

/-- A link whose writes put all of their bytes on the wire or none. -/
class Whole (L : Type) [Link L] where
  /-- The link carries a write that is not answered yet, and writes that were given up and may
  still get on the wire. -/
  carries : L → Option Pending → List (Agent × Bytes) → Prop
  beginWrite {l : L} {loose : List (Agent × Bytes)} (a : Agent) (bytes : Bytes) :
    carries l none loose →
    Writes carries l { agent := a, bytes } loose (Link.beginWrite l a bytes)
  resumeWrite {l : L} {p : Pending} {loose : List (Agent × Bytes)} : carries l (some p) loose →
    Writes carries l p loose (Link.resumeWrite l p.agent)
  /-- Whoever wrote can be told that all of it is on the wire. -/
  ready {l : L} {a : Agent} {bytes : Bytes} {loose : List (Agent × Bytes)} :
    carries l (some ⟨a, bytes, true⟩) loose → Link.ready l a = true
  beginRead (l : L) (a : Agent) : Spares carries (· = a) l (Link.beginRead l a).1
  resumeRead (l : L) (a : Agent) : Spares carries (· = a) l (Link.resumeRead l a).1
  beginShutdown (l : L) (a : Agent) : Spares carries (· = a) l (Link.beginShutdown l a).1
  resumeShutdown (l : L) (a : Agent) : Spares carries (· = a) l (Link.resumeShutdown l a).1
  cancel (l : L) (a : Agent) : Spares carries (· = a) l (Link.cancel l a)
  /-- A write that is given up may still get on the wire, if it is not there. -/
  giveUp {l : L} {a : Agent} {bytes : Bytes} {landed : Bool} {loose : List (Agent × Bytes)} :
    carries l (some ⟨a, bytes, landed⟩) loose → carries (Link.cancel l a) none loose ∨
      landed = false ∧ carries (Link.cancel l a) none ((a, bytes) :: loose)
  close (l : L) : Spares carries (fun _ => False) l (Link.close l)
  helperMove {l : L} {u : Option Pending} {loose : List (Agent × Bytes)} (a : Agent) :
    carries l u loose → Helps carries l u loose (Link.helperMove l a)

namespace ScriptLink

variable (l : ScriptLink)

/-- A read gets nothing on the wire. -/
theorem wire_read : l.read.1.wire = l.wire := by
  unfold read
  split
  · rfl
  · split <;> rename_i hi <;> rfl

theorem wire_close : l.close.wire = l.wire := by
  unfold close
  split <;> rfl

theorem wire_shutdown : l.shutdown.1.wire = l.wire := by
  unfold shutdown
  split <;> exact l.wire_close

end ScriptLink

/-- A scripted link writes at once. -/
instance : Whole ScriptLink where
  carries _ u loose := u = none ∧ loose = []
  beginWrite {l loose} a bytes h := by
    simp only [Link.beginWrite, ScriptLink.write]
    split
    · exact .fails rfl rfl h
    · split
      · exact .fails rfl rfl h
      · refine .put rfl ?_ h
        refine (ScriptLink.wire_foldl (bytes ++ []) l.record).trans ?_
        rw [List.append_nil]
        rfl
  resumeWrite h := nomatch h.1
  ready h := nomatch h.1
  beginRead l a := by
    have hwire := l.wire_read
    refine ⟨?_, fun _ _ _ => id⟩
    simp only [Link.beginRead, ScriptLink.beginRead]
    split <;> rename_i hr <;> rw [hr] at hwire <;> exact hwire
  resumeRead l a := by
    have hwire := l.wire_read
    refine ⟨?_, fun _ _ _ => id⟩
    simp only [Link.resumeRead, ScriptLink.resumeRead]
    split <;> rename_i hr <;> rw [hr] at hwire <;> exact hwire
  beginShutdown l _ := ⟨l.wire_shutdown, fun _ _ _ => id⟩
  resumeShutdown _ _ := ⟨rfl, fun _ _ _ => id⟩
  cancel _ _ := ⟨rfl, fun _ _ _ => id⟩
  giveUp h := nomatch h.1
  close l := ⟨l.wire_close, fun _ _ _ => id⟩
  helperMove _ h := .spares rfl (List.Subperm.refl _) h

namespace SerialLine

/-- The writes that nobody waits for, and those that somebody does. -/
def loose (l : SerialLine) : List (Agent × Bytes) :=
  (l.jobs.filter fun job => !job.awaited).map fun job => (job.agent, job.bytes)

def awaited (l : SerialLine) : List Job := l.jobs.filter Job.awaited

/-- Who waits for what came of a write, and the writes that nobody waits for. -/
structure Carries (l : SerialLine) (u : Option Pending) (loose : List (Agent × Bytes)) : Prop where
  loose : l.loose.Perm loose
  idle : u = none → l.awaited = [] ∧ l.outcomes = []
  early : ∀ a bytes, u = some ⟨a, bytes, false⟩ →
    l.awaited = [{ agent := a, bytes }] ∧ l.outcomes = [] ∨
      l.awaited = [] ∧ ∃ e, l.outcomes = [(a, .error e)]
  landed : ∀ a bytes, u = some ⟨a, bytes, true⟩ → l.awaited = [] ∧ l.outcomes = [(a, .ok ())]

variable {l l' : SerialLine} {u : Option Pending} {loose : List (Agent × Bytes)}

/-- What does not touch the writes changes nothing about them. -/
theorem Carries.same (h : l.Carries u loose) (hjobs : l'.jobs = l.jobs)
    (houtcomes : l'.outcomes = l.outcomes) : l'.Carries u loose := by
  refine ⟨?_, ?_, ?_, ?_⟩
  · rw [SerialLine.loose, hjobs]
    exact h.loose
  all_goals
    rw [awaited, hjobs, houtcomes]
  · exact h.idle
  · exact h.early
  · exact h.landed

theorem draw_writes_nothing (l : SerialLine) : l.draw.1.sent = l.sent ∧ l.draw.1.jobs = l.jobs ∧
    l.draw.1.outcomes = l.outcomes := by
  unfold draw
  repeat' split
  all_goals exact ⟨rfl, rfl, rfl⟩

theorem beginRead_writes_nothing (l : SerialLine) (a : Agent) :
    (l.beginRead a).1.sent = l.sent ∧ (l.beginRead a).1.jobs = l.jobs ∧
      (l.beginRead a).1.outcomes = l.outcomes := by
  have hread : l.read.1.sent = l.sent ∧ l.read.1.jobs = l.jobs ∧
      l.read.1.outcomes = l.outcomes := by
    unfold read
    split
    · exact ⟨rfl, rfl, rfl⟩
    · exact l.draw_writes_nothing
  unfold beginRead
  split <;> rename_i hr <;> rw [hr] at hread <;> exact hread

theorem resumeRead_writes_nothing (l : SerialLine) (a : Agent) :
    (l.resumeRead a).1.sent = l.sent ∧ (l.resumeRead a).1.jobs = l.jobs ∧
      (l.resumeRead a).1.outcomes = l.outcomes := by
  have hdraw := draw_writes_nothing { l with readers := l.readers.erase a, luck := 0 }
  unfold resumeRead
  dsimp only
  split
  · exact ⟨rfl, rfl, rfl⟩
  · split
    · rename_i hr
      rwa [hr] at hdraw
    · exact ⟨rfl, rfl, rfl⟩

/-- Whoever has no write under way gives none up. -/
theorem jobs_cancel {a : Agent} (h : ∀ job ∈ l.awaited, job.agent ≠ a) :
    (l.cancel a).jobs = l.jobs := by
  refine (List.map_congr_left fun job hjob => ?_).trans (List.map_id _)
  obtain ⟨agent, bytes, awaited⟩ := job
  cases awaited with
  | false => rfl
  | true =>
    have hne := h _ (List.mem_filter.mpr ⟨hjob, rfl⟩)
    simpa using hne

/-- The one write that somebody waits for is given up. -/
theorem cancel_awaited {a : Agent} {bytes : Bytes} (h : l.awaited = [{ agent := a, bytes }]) :
    (l.cancel a).awaited = [] ∧ (l.cancel a).loose.Perm ((a, bytes) :: l.loose) := by
  have hnone : ∀ job ∈ (l.cancel a).jobs, job.awaited = false := by
    intro job hjob
    obtain ⟨job, hmem, rfl⟩ := List.mem_map.mp hjob
    cases hawaited : job.awaited with
    | false => rfl
    | true =>
      have hin : job ∈ l.awaited := List.mem_filter.mpr ⟨hmem, hawaited⟩
      rw [h] at hin
      rw [List.mem_singleton.mp hin]
      simp
  refine ⟨List.filter_eq_nil_iff.mpr fun job hjob => by simp [hnone job hjob], ?_⟩
  have hall : (l.cancel a).loose = l.jobs.map fun job => (job.agent, job.bytes) := by
    rw [SerialLine.loose, List.filter_eq_self.mpr fun job hjob => by simp [hnone job hjob]]
    exact List.map_map
  have hsplit : (l.awaited ++ l.jobs.filter fun job => !job.awaited).Perm l.jobs :=
    List.filter_append_perm _ _
  rw [hall, SerialLine.loose]
  rw [h] at hsplit
  exact (hsplit.map _).symm

/-- What does not concern whoever writes concerns no write. -/
theorem Carries.cancel_others (h : l.Carries u loose) {a : Agent}
    (hu : ∀ p, u = some p → p.agent ≠ a) : (l.cancel a).Carries u loose := by
  have hothers : (∀ job ∈ l.awaited, job.agent ≠ a) ∧ ∀ o ∈ l.outcomes, o.1 ≠ a := by
    match u, h with
    | none, h => simp [h.idle rfl]
    | some ⟨b, bytes, true⟩, h =>
      have hb : b ≠ a := hu _ rfl
      simp [h.landed b bytes rfl, hb]
    | some ⟨b, bytes, false⟩, h =>
      have hb : b ≠ a := hu _ rfl
      rcases h.early b bytes rfl with ⟨hone, hout⟩ | ⟨hnone, e, hout⟩
      · simp [hone, hout, hb]
      · simp [hnone, hout, hb]
  exact h.same (jobs_cancel hothers.1)
    (List.filter_eq_self.mpr fun o ho => by simpa using hothers.2 o ho)

/-- A write that was handed over and is given up is still to be done. -/
theorem Carries.giveUp {a : Agent} {bytes : Bytes} {landed : Bool}
    (h : l.Carries (some ⟨a, bytes, landed⟩) loose) : (l.cancel a).Carries none loose ∨
      landed = false ∧ (l.cancel a).Carries none ((a, bytes) :: loose) := by
  have hdone : ∀ r, l.awaited = [] → l.outcomes = [(a, r)] → (l.cancel a).Carries none loose := by
    intro r hnone hout
    have hjobs : (l.cancel a).jobs = l.jobs := jobs_cancel (by rw [hnone]; nofun)
    refine ⟨?_, fun _ => ⟨?_, by simp [cancel, forget, hout]⟩, nofun, nofun⟩
    · rw [SerialLine.loose, hjobs]
      exact h.loose
    · rw [awaited, hjobs]
      exact hnone
  cases landed with
  | true =>
    obtain ⟨hnone, hout⟩ := h.landed a bytes rfl
    exact .inl (hdone _ hnone hout)
  | false =>
    rcases h.early a bytes rfl with ⟨hone, hout⟩ | ⟨hnone, e, hout⟩
    · obtain ⟨hnone, hloose⟩ := cancel_awaited hone
      have hforgot : (l.cancel a).outcomes = [] := by simp [cancel, forget, hout]
      exact .inr ⟨rfl, hloose.trans (h.loose.cons _), fun _ => ⟨hnone, hforgot⟩, nofun, nofun⟩
    · exact .inl (hdone _ hnone hout)

/-- What the porter does about one of the writes. -/
theorem carried (l : SerialLine) : l.carry = l ∨ ∃ job jobs r, l.jobs.Perm (job :: jobs) ∧
    l.carry.jobs = jobs ∧
    l.carry.outcomes = (if job.awaited then l.outcomes ++ [(job.agent, r)] else l.outcomes) ∧
    (r = .ok () ∧ l.carry.sent = l.sent ++ job.bytes ∨
      ∃ e, r = .error e ∧ l.carry.sent = l.sent) := by
  unfold carry
  cases hjob : l.jobs[l.nextJob]? with
  | none => exact .inl rfl
  | some job =>
    right
    obtain ⟨hlt, rfl⟩ := List.getElem?_eq_some_iff.mp hjob
    refine ⟨_, _, (write { l with jobs := l.jobs.eraseIdx l.nextJob, luck := 0 }
      l.jobs[l.nextJob].bytes).2, (List.getElem_cons_eraseIdx_perm hlt).symm, ?_⟩
    dsimp only
    unfold write
    repeat' split
    all_goals first
      | exact ⟨rfl, by simp_all, .inl ⟨rfl, rfl⟩⟩
      | exact ⟨rfl, by simp_all, .inr ⟨_, rfl, rfl⟩⟩

/-- The porter does the write that somebody waits for. -/
theorem Carries.carry_awaited (h : l.Carries u loose) {job : Job} {jobs : List Job}
    {r : Except LinkError Unit} (ha : job.awaited = true) (hperm : l.jobs.Perm (job :: jobs))
    (hjobs : l'.jobs = jobs) (houtcomes : l'.outcomes = l.outcomes ++ [(job.agent, r)])
    (hsent : r = .ok () ∧ l'.sent = l.sent ++ job.bytes ∨ ∃ e, r = .error e ∧ l'.sent = l.sent) :
    Helps Carries l u loose l' := by
  have hawaited : l.awaited.Perm (job :: l'.awaited) := by
    have hfilter := hperm.filter Job.awaited
    rwa [List.filter_cons_of_pos ha, ← hjobs] at hfilter
  have hloose : l'.loose.Perm loose := by
    have hfilter := hperm.filter fun job => !job.awaited
    rw [List.filter_cons_of_neg (by simp [ha]), ← hjobs] at hfilter
    exact (hfilter.map _).symm.trans h.loose
  have hne : l.awaited ≠ [] := fun hnil => by
    rw [hnil] at hawaited
    cases hawaited.symm.eq_nil
  obtain ⟨a, bytes, rfl⟩ : ∃ a bytes, u = some ⟨a, bytes, false⟩ := by
    match u, h with
    | none, h => exact absurd (h.idle rfl).1 hne
    | some ⟨a, bytes, true⟩, h => exact absurd (h.landed a bytes rfl).1 hne
    | some ⟨a, bytes, false⟩, _ => exact ⟨a, bytes, rfl⟩
  obtain ⟨hone, hnone⟩ := (h.early a bytes rfl).resolve_right fun hnil => hne hnil.1
  rw [hone] at hawaited
  obtain ⟨rfl, hleft⟩ := List.cons.inj (List.perm_singleton.mp hawaited.symm)
  rw [hnone] at houtcomes
  rcases hsent with ⟨rfl, hsent⟩ | ⟨e, rfl, hsent⟩
  · refine .lands rfl hsent ⟨hloose, nofun, nofun, ?_⟩
    rintro _ _ ⟨⟩
    exact ⟨hleft, houtcomes⟩
  · refine .spares hsent (List.Subperm.refl _) ⟨hloose, nofun, ?_, nofun⟩
    rintro _ _ ⟨⟩
    exact .inr ⟨hleft, e, houtcomes⟩

/-- The porter does a write that was given up. -/
theorem Carries.carry_loose (h : l.Carries u loose) {job : Job} {jobs : List Job}
    (ha : job.awaited = false) (hperm : l.jobs.Perm (job :: jobs)) (hjobs : l'.jobs = jobs)
    (houtcomes : l'.outcomes = l.outcomes)
    (hsent : l'.sent = l.sent ++ job.bytes ∨ l'.sent = l.sent) : Helps Carries l u loose l' := by
  have hawaited : l'.awaited.Perm l.awaited := by
    have hfilter := hperm.filter Job.awaited
    rw [List.filter_cons_of_neg (by simp [ha]), ← hjobs] at hfilter
    exact hfilter.symm
  have hloose : loose.Perm ((job.agent, job.bytes) :: l'.loose) := by
    have hfilter := hperm.filter fun job => !job.awaited
    rw [List.filter_cons_of_pos (by simp [ha]), ← hjobs] at hfilter
    exact h.loose.symm.trans (hfilter.map _)
  have hnil : l.awaited = [] → l'.awaited = [] := fun hnil =>
    (hnil ▸ hawaited).eq_nil
  have hleft : l'.Carries u l'.loose := by
    refine ⟨List.Perm.refl _, fun hu => ?_, fun a bytes hu => ?_, fun a bytes hu => ?_⟩ <;>
      rw [houtcomes]
    · exact (h.idle hu).imp_left hnil
    · refine (h.early a bytes hu).imp (And.imp_left fun hone => ?_) (And.imp_left hnil)
      exact List.perm_singleton.mp (hone ▸ hawaited)
    · exact (h.landed a bytes hu).imp_left hnil
  rcases hsent with hsent | hsent
  · exact .strays hloose hsent hleft
  · exact .spares hsent ((List.sublist_cons_self _ _).subperm.trans hloose.symm.subperm) hleft

/-- **The porter does one of the writes**, whether or not anybody waits for it. -/
theorem Carries.carry (h : l.Carries u loose) : Helps Carries l u loose l.carry := by
  obtain hsame | ⟨job, jobs, r, hperm, hjobs, houtcomes, hsent⟩ := l.carried
  · rw [hsame]
    exact .spares rfl (List.Subperm.refl _) h
  cases ha : job.awaited with
  | true => exact h.carry_awaited ha hperm hjobs (houtcomes.trans (if_pos ha)) hsent
  | false =>
    refine h.carry_loose ha hperm hjobs (houtcomes.trans (if_neg (by simp [ha]))) ?_
    exact hsent.imp And.right fun ⟨_, _, hsame⟩ => hsame

end SerialLine

/-- A serial line hands a write over. One that is given up goes on without whoever wrote it. -/
instance : Whole SerialLine where
  carries := SerialLine.Carries
  beginWrite {l loose} a bytes h := by
    obtain ⟨hnone, hout⟩ := h.idle rfl
    simp only [Link.beginWrite, SerialLine.beginWrite]
    split
    · exact .fails rfl rfl h
    · refine .waits rfl ⟨?_, nofun, ?_, nofun⟩
      · rw [SerialLine.loose, List.filter_append, List.filter_cons_of_neg (by simp),
          List.filter_nil, List.append_nil]
        exact h.loose
      · rintro _ _ ⟨⟩
        left
        rw [SerialLine.awaited, List.filter_append, List.filter_cons_of_pos rfl, List.filter_nil]
        exact ⟨congrArg (· ++ _) hnone, hout⟩
  resumeWrite {l p loose} h := by
    obtain ⟨a, bytes, landed⟩ := p
    have hforget : ∀ r, l.outcomes = [(a, r)] → (l.forget a).outcomes = [] := fun r hr => by
      simp [SerialLine.forget, hr]
    have hover : ∀ r, l.awaited = [] → l.outcomes = [(a, r)] →
        (l.forget a).Carries none loose := fun r hnone hr =>
      ⟨h.loose, fun _ => ⟨hnone, hforget r hr⟩, nofun, nofun⟩
    simp only [Link.resumeWrite, SerialLine.resumeWrite, SerialLine.outcome?]
    cases landed with
    | true =>
      obtain ⟨hnone, hout⟩ := h.landed a bytes rfl
      simp only [hout, List.lookup_cons_self]
      exact .told rfl rfl (hover _ hnone hout)
    | false =>
      rcases h.early a bytes rfl with ⟨hone, hout⟩ | ⟨hnone, e, hout⟩
      · simp only [hout, List.lookup_nil]
        exact .waits rfl h
      · simp only [hout, List.lookup_cons_self]
        exact .fails rfl rfl (hover _ hnone hout)
  ready {l a bytes loose} h := by
    obtain ⟨-, hout⟩ := h.landed a bytes rfl
    simp [Link.ready, SerialLine.outcome?, hout]
  beginRead l a := by
    obtain ⟨hsent, hjobs, hout⟩ := l.beginRead_writes_nothing a
    exact ⟨hsent, fun _ _ _ h => h.same hjobs hout⟩
  resumeRead l a := by
    obtain ⟨hsent, hjobs, hout⟩ := l.resumeRead_writes_nothing a
    exact ⟨hsent, fun _ _ _ h => h.same hjobs hout⟩
  beginShutdown _ _ := ⟨rfl, fun _ _ _ h => h.same rfl rfl⟩
  resumeShutdown _ _ := ⟨rfl, fun _ _ _ h => h⟩
  cancel _ _ := ⟨rfl, fun _ _ hu h => h.cancel_others hu⟩
  giveUp h := h.giveUp
  close _ := ⟨rfl, fun _ _ _ h => h.same rfl rfl⟩
  helperMove {l u loose} a h := by
    cases a with
    | porter => exact h.carry
    | _ => exact .spares rfl (List.Subperm.refl _) (h.same rfl rfl)

/-! ### The line before such a link -/

namespace Outlet

/-- The line and the link agree: only the turn of the first in line has come, if any, and
what it writes is the write that is under way. -/
structure Holds (w : Outlet) (u : Option Pending) (wants : Agent → Option Outgoing)
    (said : Bytes → Prop) : Prop where
  serves : Serves w.line wants
  last : ∀ bytes, w.last = some bytes → said bytes
  behind : ∀ e ∈ w.line.tail, e.begun = false
  idle : (∀ e, w.line.head? = some e → e.begun = false) → u = none
  busy : ∀ e, w.line.head? = some e → e.begun = true →
    (∃ landed, u = some ⟨e.agent, w.bytes e, landed⟩) ∧ (e.outgoing = .again → w.last ≠ none)

variable {w : Outlet} {u u' : Option Pending} {wants wants' : Agent → Option Outgoing}
  {said said' : Bytes → Prop} {a : Agent} {o : Outgoing} {r : List Entry}

/-- Whose write is under way is the first in line, and wants to write. -/
theorem Holds.first (h : w.Holds u wants said) {p : Pending} (hu : u = some p) :
    ∃ e r, w.line = e :: r ∧ e.begun = true ∧ p.agent = e.agent ∧ p.bytes = w.bytes e ∧
      wants e.agent = some e.outgoing := by
  subst hu
  cases hline : w.line with
  | nil =>
    have hnone := h.idle (by rw [hline]; nofun)
    cases hnone
  | cons e r =>
    have hhead : w.line.head? = some e := by rw [hline]; rfl
    cases hb : e.begun with
    | true =>
      obtain ⟨⟨landed, hp⟩, -⟩ := h.busy e hhead hb
      obtain rfl := Option.some.inj hp
      exact ⟨e, r, rfl, hb, rfl, rfl, (hline ▸ h.serves).head⟩
    | false =>
      have hnone := h.idle fun e' he' => by rw [← Option.some.inj (hhead.symm.trans he'), hb]
      cases hnone

/-- Whose write is under way wants to write. -/
theorem Holds.wants_of_under (h : w.Holds u wants said) {p : Pending} (hu : u = some p) :
    wants p.agent ≠ none := by
  obtain ⟨e, r, -, -, hagent, -, hwants⟩ := h.first hu
  rw [hagent, hwants]
  nofun

/-- The same is wanted, and more may be said. -/
theorem Holds.agrees (h : w.Holds u wants said) (hwants : ∀ a, wants' a = wants a)
    (hsaid : ∀ bytes, said bytes → said' bytes) : w.Holds u wants' said' :=
  ⟨(funext hwants : wants' = wants) ▸ h.serves, fun bytes hw => hsaid bytes (h.last bytes hw),
    h.behind, h.idle, h.busy⟩

/-- What is under way gets on the wire. -/
theorem Holds.lands {bytes : Bytes} (h : w.Holds (some ⟨a, bytes, false⟩) wants said) :
    w.Holds (some ⟨a, bytes, true⟩) wants said := by
  refine ⟨h.serves, h.last, h.behind, fun hidle => ?_, fun e he hb => ?_⟩
  · cases h.idle hidle
  · obtain ⟨⟨landed, hp⟩, hagain⟩ := h.busy e he hb
    cases hp
    exact ⟨⟨true, rfl⟩, hagain⟩

/-- Somebody who wants to write now joins the line. -/
theorem Holds.enter (h : w.Holds u wants said) (hnone : wants a = none) (ha : wants' a = some o)
    (hother : ∀ b ≠ a, wants' b = wants b) : (w.enter a o).Holds u wants' said := by
  refine ⟨h.serves.enter hnone ha hother, h.last, behind_enter h.behind a o,
    fun hidle => h.idle fun e he => ?_, fun e he hb => ?_⟩
  · obtain ⟨r, hr⟩ := List.head?_eq_some_iff.mp he
    obtain ⟨r', hr'⟩ := head_enter (a := a) (o := o) hr
    exact hidle e (by rw [hr']; rfl)
  · obtain ⟨r, hr⟩ := List.head?_eq_some_iff.mp he
    obtain ⟨r', hr'⟩ := head_of_enter hr hb
    exact h.busy e (by rw [hr']; rfl) hb

/-- When nobody's turn has come, nothing is under way. -/
theorem holds_idle {v : Outlet} (hline : v.line = r) (hserves : Serves r wants)
    (hlast : ∀ bytes, v.last = some bytes → said bytes) (hbehind : ∀ e ∈ r, e.begun = false) :
    v.Holds none wants said := by
  subst hline
  refine ⟨hserves, hlast, fun e he => hbehind e (List.mem_of_mem_tail he), fun _ => rfl,
    fun e he hb => ?_⟩
  rw [hbehind e (List.mem_of_mem_head? he)] at hb
  cases hb

/-- What giving up an agent leaves: nothing of its was under way, or it was the one whose write
was. -/
theorem Holds.leave {L : Type} [Link L] (h : w.Holds u wants said) (l : L) (hnone : wants' a = none)
    (hother : ∀ b ≠ a, wants' b = wants b) :
    (w.leave l a).1.Holds u wants' said ∧ (w.leave l a).2 = l ∨
    (∃ bytes landed, u = some ⟨a, bytes, landed⟩) ∧
      (w.line.any fun e => e.agent == a && e.begun) = true ∧
      (w.leave l a).1.Holds none wants' said ∧ (w.leave l a).2 = Link.cancel l a := by
  have hserves : Serves (w.without a).line wants' := h.serves.without hnone hother
  have hline : (w.leave l a).1 = w.without a := rfl
  cases hany : w.line.any fun e => e.agent == a && e.begun with
  | true =>
    right
    obtain ⟨e, he, hea⟩ := List.any_eq_true.mp hany
    rw [Bool.and_eq_true, beq_iff_eq] at hea
    obtain ⟨rfl, hb⟩ := hea
    obtain ⟨e', r, hcons⟩ := List.exists_cons_of_ne_nil (List.ne_nil_of_mem he)
    -- whose turn has come is the first in line
    obtain rfl : e = e' := by
      rw [hcons] at he
      rcases List.mem_cons.mp he with he | he
      · exact he
      · rw [behind_first h.behind hcons e he] at hb
        cases hb
    obtain ⟨⟨landed, hu⟩, -⟩ := h.busy e (by rw [hcons]; rfl) hb
    have hrest : (w.without e.agent).line = r := by
      obtain ⟨a, o, begun⟩ := e
      exact without_head hcons (ne_first h.serves.once hcons)
    refine ⟨⟨_, landed, hu⟩, rfl, ?_, if_pos hany⟩
    rw [hline]
    exact holds_idle hrest (hrest ▸ hserves) h.last (behind_first h.behind hcons)
  | false =>
    left
    have hout : ∀ e ∈ w.line, e.begun = true → e.agent ≠ a := fun e he hb hea => by
      have hno := List.any_eq_false.mp hany e he
      rw [hea, hb] at hno
      exact hno (by simp)
    refine ⟨?_, if_neg (by rw [hany]; nofun)⟩
    rw [hline]
    refine ⟨hserves, h.last, fun e he => ?_, fun hidle => h.idle fun e he => ?_,
      fun e he hb => ?_⟩
    · exact h.behind e (List.filter_sublist.tail.mem he)
    · refine Bool.eq_false_iff.mpr fun hb => ?_
      obtain ⟨r, hcons⟩ := List.head?_eq_some_iff.mp he
      have hne := hout e (List.mem_of_mem_head? he) hb
      have hfirst := hidle e (by simp [Outlet.without, hcons, hne])
      rw [hb] at hfirst
      cases hfirst
    · have hin : e ∈ w.line := List.mem_of_mem_filter (List.mem_of_mem_head? he)
      refine h.busy e ?_ hb
      obtain ⟨e', r, hcons⟩ := List.exists_cons_of_ne_nil (List.ne_nil_of_mem hin)
      rw [hcons] at hin
      rcases List.mem_cons.mp hin with rfl | hr
      · rw [hcons]
        rfl
      · rw [behind_first h.behind hcons e hr] at hb
        cases hb

/-! ### A move of the first in line -/

/-- The bytes are what somebody wants to get on the wire. -/
def Matches (said : Bytes → Prop) : Outgoing → Bytes → Prop
  | .frame frame, bytes => bytes = frame
  | .ack, bytes => bytes = [ackByte]
  | .again, bytes => said bytes

theorem due_early {p : Pending} (h : p.landed = false) : Pending.due (some p) = [] := by
  obtain ⟨a, bytes, landed⟩ := p
  cases h
  rfl

theorem due_landed {p : Pending} (h : p.landed = true) : Pending.due (some p) = [p.bytes] := by
  obtain ⟨a, bytes, landed⟩ := p
  cases h
  rfl

section Moves

variable {L : Type} [Link L] {l l' : L} {loose : List (Agent × Bytes)}

/-- All of the bytes are on the wire: they were there and due, or are there now. -/
inductive Paid (u : Option Pending) (l l' : L) (bytes : Bytes) : Prop where
  | before (due : Pending.due u = [bytes]) (wire : Link.wire l' = Link.wire l)
  | now (due : Pending.due u = []) (wire : Link.wire l' = Link.wire l ++ bytes)

/-- What a move of the first in line leaves: it goes on, its bytes are all on the wire, there was
no frame to send again, or nothing is there. -/
inductive Pays [Whole L] (wants : Agent → Option Outgoing) (said : Bytes → Prop) (l : L)
    (u : Option Pending) (loose : List (Agent × Bytes)) (a : Agent) (o : Outgoing) :
    Outlet × L × Progress Written → Prop where
  | on {v : Outlet} {l' : L} {u' : Option Pending} (holds : v.Holds u' wants said)
      (left : Whole.carries l' u' loose) (due : Pending.due u' = Pending.due u)
      (wire : Link.wire l' = Link.wire l) : Pays wants said l u loose a o (v, l', none)
  | sent {v : Outlet} {l' : L} {bytes : Bytes} (paid : Paid u l l' bytes)
      (fits : Matches said o bytes) (left : Whole.carries l' none loose)
      (holds : ∀ wants', wants' a = none → (∀ b ≠ a, wants' b = wants b) →
        v.Holds none wants' said) : Pays wants said l u loose a o (v, l', some (.ok .sent))
  | nothing {v : Outlet} (again : o = .again) (idle : u = none)
      (holds : ∀ wants', wants' a = none → (∀ b ≠ a, wants' b = wants b) →
        v.Holds none wants' said) : Pays wants said l u loose a o (v, l, some (.ok .nothing))
  | fails {v : Outlet} {l' : L} {e : LinkError} (due : Pending.due u = [])
      (wire : Link.wire l' = Link.wire l) (left : Whole.carries l' none loose)
      (holds : ∀ wants', wants' a = none → (∀ b ≠ a, wants' b = wants b) →
        v.Holds none wants' said) : Pays wants said l u loose a o (v, l', some (.error e))

omit [Link L] in
theorem last_after (w : Outlet) (a : Agent) (q : L × Progress Unit) :
    (w.after a q).1.last = w.last := by
  obtain ⟨l, _ | (e | _)⟩ := q <;> rfl

variable [Whole L]

/-- What a move of the write below leaves, where `p` is under way or about to be. -/
theorem pays_after {v : Outlet} {q : L × Progress Unit} {landed : Bool}
    (hline : v.line = ⟨a, o, true⟩ :: r) (hserves : Serves (⟨a, o, true⟩ :: r) wants)
    (hbehind : ∀ e ∈ r, e.begun = false) (hlast : ∀ bytes, v.last = some bytes → said bytes)
    (hagain : o = .again → v.last ≠ none)
    (hdue : Pending.due (some ⟨a, v.bytes ⟨a, o, true⟩, landed⟩) = Pending.due u)
    (hq : Writes Whole.carries l ⟨a, v.bytes ⟨a, o, true⟩, landed⟩ loose q) :
    Pays wants said l u loose a o (v.after a q) := by
  have hout : ∀ e ∈ r, e.agent ≠ a := fun e he =>
    ne_first (w := v) (hline ▸ hserves.once) hline e he
  have hleft := without_head hline hout
  have hgone : ∀ wants', wants' a = none → (∀ b ≠ a, wants' b = wants b) →
      (v.without a).Holds none wants' said := fun wants' hnone hother =>
    holds_idle hleft (hserves.leave hnone hother) hlast hbehind
  have hfits : Matches said o (v.bytes ⟨a, o, true⟩) := by
    cases o with
    | frame frame => rfl
    | ack => rfl
    | again =>
      obtain ⟨bytes, hbytes⟩ := Option.ne_none_iff_exists'.mp (hagain rfl)
      have hsame : v.bytes ⟨a, .again, true⟩ = bytes := by simp only [Outlet.bytes, hbytes,
        Option.getD_some]
      exact hsame ▸ hlast bytes hbytes
  cases hq with
  | waits wire left =>
    refine .on ⟨hline ▸ hserves, hlast, fun e he => ?_, fun hidle => ?_, fun e he _ => ?_⟩ left
      hdue wire
    · rw [hline] at he
      exact hbehind e he
    · have hfirst := hidle ⟨a, o, true⟩ (by rw [hline]; rfl)
      cases hfirst
    · rw [hline] at he
      obtain rfl := Option.some.inj he
      exact ⟨⟨landed, rfl⟩, hagain⟩
  | put early wire left => exact .sent (.now (hdue ▸ due_early early) wire) hfits left hgone
  | told landed wire left => exact .sent (.before (hdue ▸ due_landed landed) wire) hfits left hgone
  | fails early wire left => exact .fails (hdue ▸ due_early early) wire left hgone

/-- **A move of the first in line** gets all of its bytes on the wire, or none. -/
theorem Holds.move (h : w.Holds u wants said) (hl : Whole.carries l u loose)
    (hframe : ∀ a bytes, wants a = some (.frame bytes) → said bytes) (hr : w.ready l a = true)
    (ha : wants a = some o) : Pays wants said l u loose a o (w.move l a) := by
  obtain ⟨⟨a, o', begun⟩, r, hline, rfl⟩ := ready_agent hr
  have hserves := h.serves
  rw [hline] at hserves
  obtain rfl : o' = o := Option.some.inj (hserves.head.symm.trans ha)
  have hbehind := behind_first h.behind hline
  have hkeep := last_said (l := l) hline h.last fun bytes ho => hframe a bytes (ho ▸ ha)
  cases begun with
  | true =>
    obtain ⟨⟨landed, rfl⟩, hagain⟩ := h.busy ⟨a, o', true⟩ (by rw [hline]; rfl) rfl
    have hmove : w.move l a = w.after a (Link.resumeWrite l a) := by
      simp only [Outlet.move, hline]
    rw [hmove]
    exact pays_after hline hserves hbehind h.last hagain rfl (Whole.resumeWrite hl)
  | false =>
    obtain rfl := h.idle fun e he => by
      rw [hline] at he
      rw [← Option.some.inj he]
    rcases move_begins l hline with ⟨v, hv, hbytes, hagain, hmove⟩ | ⟨hagain, hmove⟩
    · have hlast : (w.move l a).1.last = v.last := by
        rw [hmove]
        exact last_after _ _ _
      rw [hlast] at hkeep
      rw [hmove]
      have hbegins : Writes Whole.carries l ⟨a, v.bytes ⟨a, o', true⟩, false⟩ loose
          (Link.beginWrite l a (w.bytes ⟨a, o', false⟩)) := by
        rw [hbytes]
        exact Whole.beginWrite a _ hl
      refine pays_after hv hserves.begin hbehind hkeep hagain ?_ hbegins
      rfl
    · have hleft := without_head hline (ne_first h.serves.once hline)
      rw [hmove]
      exact .nothing hagain rfl fun wants' hnone hother =>
        holds_idle hleft (hserves.leave hnone hother) h.last hbehind

end Moves

end Outlet

end ProbeLink
