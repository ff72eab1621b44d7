/-
# Notifications come out as they went in

Any number of sinks push into one queue, are cloned and are dropped; at the other end packets
are looked for, waited for and drained, and the queue itself may be dropped. A receive that
waits looks at the queue again and again, and may be given up between two looks, so each
`Event.receive` is one look. Beside the queue `Traffic` keeps what was pushed, with the answer
of each push, and what was received. Which sinks exist is told from the events alone
(`Lives`). As long as there is a queue nothing is lost, doubled or overtaken (`InOrder`).

Key definitions: `Notifications.Event`, `Notifications.Traffic`, `Notifications.Lives`,
`Notifications.InOrder`.
Key theorem: `Notifications.comes_out_in_order`.
-/
import Mathlib.Data.List.Induction
import ProbeLink.Notifications

namespace ProbeLink

/-- The packet that is met, if one is. -/
def Reception.packet? : Reception → Option Packet
  | .packet p => some p
  | .waiting => none
  | .ended => none

namespace Notifications

/-- Takes the oldest packet if there is one, whatever may still come. -/
def tryReceive (q : Notifications) : Notifications × Option Packet :=
  (q.receive.1, q.receive.2.bind Reception.packet?)

/-- Takes packets one by one until there is none, at most `n`. -/
def takeAll : ℕ → Notifications → Notifications × List Packet
  | 0, q => (q, [])
  | n + 1, q =>
    match q.tryReceive with
    | (q', some p) => ((takeAll n q').1, p :: (takeAll n q').2)
    | (q', none) => (q', [])

/-- What is done at either end of a queue. -/
inductive Event where
  | push (sink : ℕ) (p : Packet)
  | clone (sink : ℕ)
  | dropSink (sink : ℕ)
  | dropQueue
  | tryReceive
  | drain
  /-- A receive that waits looks at the queue. -/
  | receive
  deriving DecidableEq, Repr

/-- A queue, and what has gone in and out so far. -/
structure Traffic where
  queue : Notifications := {}
  /-- The packets that were pushed, each with the answer of its push. -/
  pushed : List (Packet × Bool) := []
  received : List Packet := []
  deriving DecidableEq, Repr

namespace Traffic

/-- One event. A sink that does not exist pushes nothing. -/
def act (t : Traffic) : Event → Traffic
  | .push i p =>
    if t.queue.hasSink i then
      { t with queue := (t.queue.push p).1, pushed := t.pushed ++ [(p, (t.queue.push p).2)] }
    else t
  | .clone i => { t with queue := t.queue.clone i }
  | .dropSink i => { t with queue := t.queue.dropSink i }
  | .dropQueue => { t with queue := t.queue.dropQueue }
  | .tryReceive =>
    { t with queue := t.queue.tryReceive.1, received := t.received ++ t.queue.tryReceive.2.toList }
  | .drain =>
    { t with queue := t.queue.drain.1, received := t.received ++ t.queue.drain.2.getD [] }
  | .receive =>
    { t with
      queue := t.queue.receive.1
      received := t.received ++ (t.queue.receive.2.bind Reception.packet?).toList }

/-- The packets that were pushed, in their order. -/
def packets (t : Traffic) : List Packet := t.pushed.map Prod.fst

end Traffic

/-- What has become of a new queue with its one sink. -/
def after (es : List Event) : Traffic := es.foldl Traffic.act {}

theorem after_concat (es : List Event) (e : Event) : after (es ++ [e]) = (after es).act e :=
  List.foldl_append

/-! ### Sinks -/

/-- How many sinks were made from others. -/
def clones (es : List Event) : ℕ :=
  es.countP fun
    | .clone _ => true
    | _ => false

/-- Sink `i` exists: it was there at the start or was made from one that existed, and it was not
dropped since. A sink that is made bears the next number. -/
inductive Lives : List Event → ℕ → Prop
  | first : Lives [] 0
  | cloned {es : List Event} {i : ℕ} : Lives es i → Lives (es ++ [.clone i]) (clones es + 1)
  | kept {es : List Event} {i : ℕ} {e : Event} :
      Lives es i → e ≠ .dropSink i → Lives (es ++ [e]) i

theorem clones_concat (es : List Event) (e : Event) :
    clones (es ++ [e]) = clones es + clones [e] := List.countP_append ..

theorem lives_nil {i : ℕ} : Lives [] i ↔ i = 0 := by
  constructor
  · intro h
    generalize hes : ([] : List Event) = es at h
    cases h with
    | first => rfl
    | cloned _ | kept _ _ => exact absurd hes.symm (List.append_ne_nil_of_right_ne_nil _ nofun)
  · rintro rfl
    exact .first

/-- A sink exists behind an event if it did and is not the one dropped, or was made by it. -/
theorem lives_concat {es : List Event} {e : Event} {i : ℕ} :
    Lives (es ++ [e]) i ↔
      (Lives es i ∧ e ≠ .dropSink i) ∨ ∃ j, e = .clone j ∧ Lives es j ∧ i = clones es + 1 := by
  constructor
  · intro h
    generalize hes : es ++ [e] = es' at h
    cases h with
    | first => exact absurd hes (List.append_ne_nil_of_right_ne_nil _ nofun)
    | cloned hj =>
      obtain ⟨rfl, he⟩ := List.append_inj' hes rfl
      exact .inr ⟨_, List.singleton_inj.mp he, hj, rfl⟩
    | kept hi hne =>
      obtain ⟨rfl, he⟩ := List.append_inj' hes rfl
      exact .inl ⟨hi, List.singleton_inj.mp he ▸ hne⟩
  · rintro (⟨hi, hne⟩ | ⟨j, rfl, hj, rfl⟩)
    · exact hi.kept hne
    · exact hj.cloned

variable {q : Notifications} {ps : List Packet} {p : Packet} {i j : ℕ}

@[simp] theorem receive_sinks (q : Notifications) : q.receive.1.sinks = q.sinks := by
  unfold receive
  split <;> rfl

@[simp] theorem push_sinks (q : Notifications) (p : Packet) : (q.push p).1.sinks = q.sinks := by
  unfold push
  split <;> rfl

@[simp] theorem drain_sinks (q : Notifications) : q.drain.1.sinks = q.sinks := rfl

theorem hasSink_congr {q q' : Notifications} (h : q'.sinks = q.sinks) (i : ℕ) :
    q'.hasSink i = q.hasSink i := by
  rw [hasSink, hasSink, h]

theorem hasSink_iff : q.hasSink i = true ↔ q.sinks[i]? = some true := by
  rw [hasSink, List.getD_eq_getElem?_getD]
  cases q.sinks[i]? <;> simp

/-- A sink that was made from another exists if that one does. -/
theorem hasSink_clone :
    (q.clone j).hasSink i = true ↔
      q.hasSink i = true ∨ (q.hasSink j = true ∧ i = q.sinks.length) := by
  rw [hasSink_iff, hasSink_iff, clone, List.getElem?_append]
  by_cases hlt : i < q.sinks.length
  · simp [hlt, Nat.ne_of_lt hlt]
  · have hno : q.sinks[i]? = none := List.getElem?_eq_none (Nat.le_of_not_lt hlt)
    rw [if_neg hlt, hno, List.getElem?_singleton]
    by_cases hi : i = q.sinks.length
    · simp [hi]
    · have : i - q.sinks.length ≠ 0 := by omega
      simp [hi, this]

theorem hasSink_dropSink :
    (q.dropSink j).hasSink i = true ↔ q.hasSink i = true ∧ j ≠ i := by
  rw [hasSink_iff, hasSink_iff, dropSink, List.getElem?_set]
  by_cases hij : j = i
  · subst hij
    by_cases hlt : j < q.sinks.length <;> simp [hlt]
  · simp [hij]

/-- Some sink exists just if the list of sinks says so of one. -/
theorem any_sinks : q.sinks.any id = true ↔ ∃ i, q.hasSink i = true := by
  simp only [hasSink_iff, List.any_eq_true, id_eq, List.mem_iff_getElem?]
  constructor
  · rintro ⟨b, ⟨i, hi⟩, rfl⟩
    exact ⟨i, hi⟩
  · rintro ⟨i, hi⟩
    exact ⟨true, ⟨i, hi⟩, rfl⟩

/-! ### Packets -/

/-- A look at a queue takes the oldest packet, if there is one. -/
theorem receive_queued (h : q.queued = some ps) :
    q.receive.1.queued = some ps.tail ∧
      q.receive.2.bind Reception.packet? = ps.head? := by
  cases ps with
  | nil =>
    simp only [receive, h]
    split <;> exact ⟨rfl, rfl⟩
  | cons p ps =>
    simp only [receive, h]
    exact ⟨rfl, rfl⟩

/-- Without a queue there is nothing to look at. -/
theorem receive_gone (h : q.queued = none) : q.receive = (q, none) := by
  simp only [receive, h]

theorem receive_packet :
    q.receive.2 = some (.packet p) ↔ ∃ ps, q.queued = some (p :: ps) := by
  unfold receive
  split
  · simp_all
  · simp_all
  · rename_i h
    rw [h]
    split <;> simp

theorem receive_waiting :
    q.receive.2 = some .waiting ↔ q.queued = some [] ∧ q.sinks.any id = true := by
  unfold receive
  split <;> simp_all

theorem receive_ended :
    q.receive.2 = some .ended ↔ q.queued = some [] ∧ ¬ q.sinks.any id = true := by
  unfold receive
  split <;> simp_all

/-- Taking packet after packet until there is none is to drain the queue. -/
theorem takeAll_eq_drain (h : q.queued = some ps) {n : ℕ} (hn : ps.length < n) :
    takeAll n q = (q.drain.1, ps) := by
  induction ps generalizing q n with
  | nil =>
    obtain ⟨n, rfl⟩ := Nat.exists_eq_add_one_of_ne_zero (Nat.ne_zero_of_lt hn)
    obtain ⟨hq, hp⟩ := receive_queued h
    have hrest : q.receive.1 = q.drain.1 := by
      cases q
      simp_all [receive, drain]
    simp only [takeAll, tryReceive, hp, List.head?_nil, hrest]
  | cons p ps ih =>
    obtain ⟨n, rfl⟩ := Nat.exists_eq_add_one_of_ne_zero (Nat.ne_zero_of_lt hn)
    obtain ⟨hq, hp⟩ := receive_queued h
    have hrest := ih hq (Nat.lt_of_succ_lt_succ hn)
    have hdrain : q.receive.1.drain.1 = q.drain.1 := by
      simp only [drain, hq, h, receive_sinks, Option.map_some]
    simp only [takeAll, tryReceive, hp, List.head?_cons, hrest, hdrain]

/-! ### One event after the other -/

/-- What is so after the events `es`. -/
structure InOrder (es : List Event) (t : Traffic) : Prop where
  /-- The queue exists until it is dropped. -/
  gone : t.queue.queued = none ↔ .dropQueue ∈ es
  /-- What was received and what is queued are what was pushed, -/
  whole : ∀ ps, t.queue.queued = some ps → t.received ++ ps = t.packets
  /-- and every push was answered well. -/
  taken : ∀ ps, t.queue.queued = some ps → ∀ x ∈ t.pushed, x.2 = true
  /-- What was received is a beginning of what was pushed, with or without a queue. -/
  begins : t.received <+: t.packets
  sinks : ∀ i, t.queue.hasSink i = true ↔ Lives es i
  many : t.queue.sinks.length = clones es + 1

theorem inOrder_nil : InOrder [] {} where
  gone := by simp
  whole ps h := by cases h; rfl
  taken _ _ x hx := nomatch hx
  begins := List.prefix_refl _
  sinks i := by
    rw [lives_nil]
    cases i <;> simp [hasSink]
  many := rfl

namespace InOrder

variable {es : List Event} {t : Traffic} {e : Event}

/-- An event that leaves the sinks alone. -/
theorem sinks_same (h : InOrder es t) {q : Notifications} (hq : q.sinks = t.queue.sinks)
    (hdrop : ∀ i, e ≠ .dropSink i) (hclone : ∀ i, e ≠ .clone i) :
    (∀ i, q.hasSink i = true ↔ Lives (es ++ [e]) i) ∧ q.sinks.length = clones (es ++ [e]) + 1 := by
  constructor
  · intro i
    rw [hasSink_congr hq, h.sinks i, lives_concat]
    constructor
    · intro hi
      exact .inl ⟨hi, hdrop i⟩
    · rintro (⟨hi, -⟩ | ⟨j, hj, -⟩)
      · exact hi
      · exact absurd hj (hclone j)
  · have hnone : clones [e] = 0 := by
      cases e <;> first | rfl | exact absurd rfl (hclone _)
    rw [hq, h.many, clones_concat, hnone]

/-- An event that takes packets from the front of the queue. -/
theorem takes (h : InOrder es t) {q : Notifications} {got : List Packet}
    (hq : q.sinks = t.queue.sinks) (hdrop : ∀ i, e ≠ .dropSink i) (hclone : ∀ i, e ≠ .clone i)
    (hstays : e ≠ .dropQueue)
    (hnone : t.queue.queued = none → q.queued = none ∧ got = [])
    (hsome : ∀ ps, t.queue.queued = some ps → ∃ rest, q.queued = some rest ∧ got ++ rest = ps) :
    InOrder (es ++ [e]) { t with queue := q, received := t.received ++ got } := by
  have hsinks := h.sinks_same hq hdrop hclone
  have hmem : .dropQueue ∈ es ++ [e] ↔ .dropQueue ∈ es := by
    simp [hstays.symm]
  cases hqueued : t.queue.queued with
  | none =>
    obtain ⟨hgone, rfl⟩ := hnone hqueued
    exact {
      gone := by rw [hmem, ← h.gone]; exact iff_of_true hgone hqueued
      whole := fun ps hps => nomatch hgone.symm.trans hps
      taken := fun ps hps => nomatch hgone.symm.trans hps
      begins := by rw [List.append_nil]; exact h.begins
      sinks := hsinks.1
      many := hsinks.2 }
  | some ps =>
    obtain ⟨rest, hrest, hgot⟩ := hsome ps hqueued
    have hwhole : (t.received ++ got) ++ rest = t.packets := by
      rw [List.append_assoc, hgot, h.whole ps hqueued]
    exact {
      gone := by rw [hmem, ← h.gone, hqueued]; exact iff_of_false (by simp [hrest]) nofun
      whole := fun ps' hps' => by
        cases hrest.symm.trans hps'
        exact hwhole
      taken := fun ps' _ => h.taken ps hqueued
      begins := ⟨rest, hwhole⟩
      sinks := hsinks.1
      many := hsinks.2 }

/-- A look at the queue, by a receive that waits or by one that does not. -/
theorem looks (h : InOrder es t) (hdrop : ∀ i, e ≠ .dropSink i) (hclone : ∀ i, e ≠ .clone i)
    (hstays : e ≠ .dropQueue) :
    InOrder (es ++ [e])
      { t with
        queue := t.queue.receive.1
        received := t.received ++ (t.queue.receive.2.bind Reception.packet?).toList } := by
  apply h.takes (receive_sinks _) hdrop hclone hstays
  · intro hnone
    rw [receive_gone hnone]
    exact ⟨hnone, rfl⟩
  · intro ps hps
    obtain ⟨hq, hp⟩ := receive_queued hps
    exact ⟨ps.tail, hq, by rw [hp]; cases ps <;> rfl⟩

/-- An event that changes the sinks and not what is queued. -/
theorem resinks (h : InOrder es t) {q : Notifications} (hq : q.queued = t.queue.queued)
    (hstays : e ≠ .dropQueue) (hsinks : ∀ i, q.hasSink i = true ↔ Lives (es ++ [e]) i)
    (hmany : q.sinks.length = clones (es ++ [e]) + 1) :
    InOrder (es ++ [e]) { t with queue := q } where
  gone := by
    show q.queued = none ↔ _
    rw [hq, h.gone]
    simp [hstays.symm]
  whole ps hps := h.whole ps (hq.symm.trans hps)
  taken ps hps := h.taken ps (hq.symm.trans hps)
  begins := h.begins
  sinks := hsinks
  many := hmany

/-- A push through a sink that exists. -/
theorem pushes (h : InOrder es t) :
    InOrder (es ++ [.push i p])
      { t with queue := (t.queue.push p).1, pushed := t.pushed ++ [(p, (t.queue.push p).2)] } := by
  have hsinks := h.sinks_same (e := .push i p) (push_sinks t.queue p) nofun nofun
  have hmem : .dropQueue ∈ es ++ [.push i p] ↔ .dropQueue ∈ es := by simp
  have hpackets : (t.pushed ++ [(p, (t.queue.push p).2)]).map Prod.fst = t.packets ++ [p] := by
    rw [List.map_append, Traffic.packets, List.map_singleton]
  refine ⟨?_, ?_, ?_, ?_, hsinks.1, hsinks.2⟩
  · rw [hmem, ← h.gone]
    cases hq : t.queue.queued <;> simp [push, hq]
  · intro ps hps
    show t.received ++ ps = List.map Prod.fst _
    rw [hpackets]
    cases hq : t.queue.queued with
    | none => simp [push, hq] at hps
    | some qs =>
      simp only [push, hq, Option.some.injEq] at hps
      rw [← hps, ← List.append_assoc, h.whole qs hq]
  · intro ps hps x hx
    cases hq : t.queue.queued with
    | none => simp [push, hq] at hps
    | some qs =>
      rcases List.mem_append.mp hx with hx | hx
      · exact h.taken qs hq x hx
      · rw [List.mem_singleton.mp hx, push, hq]
  · show t.received <+: List.map Prod.fst _
    rw [hpackets]
    exact h.begins.trans (List.prefix_append _ _)

/-- **What one event keeps.** -/
theorem act (h : InOrder es t) (e : Event) : InOrder (es ++ [e]) (t.act e) := by
  cases e with
  | push i p =>
    by_cases hi : t.queue.hasSink i = true
    · rw [Traffic.act, if_pos hi]
      exact h.pushes
    · rw [Traffic.act, if_neg hi]
      have hsinks := h.sinks_same (e := .push i p) (q := t.queue) rfl nofun nofun
      exact h.resinks rfl nofun hsinks.1 hsinks.2
  | clone i =>
    refine h.resinks rfl nofun (fun k => ?_) ?_
    · rw [hasSink_clone, h.sinks k, h.sinks i, h.many, lives_concat]
      simp only [ne_eq, reduceCtorEq, not_false_eq_true, and_true, Event.clone.injEq,
        exists_eq_left']
    · show (t.queue.sinks ++ [t.queue.hasSink i]).length = _
      rw [List.length_append, h.many, clones_concat]
      rfl
  | dropSink i =>
    refine h.resinks rfl nofun (fun k => ?_) ?_
    · rw [hasSink_dropSink, h.sinks k, lives_concat]
      simp only [ne_eq, Event.dropSink.injEq, reduceCtorEq, false_and, exists_false, or_false]
    · show (t.queue.sinks.set i false).length = _
      rw [List.length_set, h.many, clones_concat]
      rfl
  | dropQueue =>
    have hsinks := h.sinks_same (e := .dropQueue) (q := t.queue.dropQueue) rfl nofun nofun
    exact {
      gone := iff_of_true rfl (List.mem_append_right _ (List.mem_singleton_self _))
      whole := nofun
      taken := nofun
      begins := h.begins
      sinks := hsinks.1
      many := hsinks.2 }
  | tryReceive => exact h.looks nofun nofun nofun
  | receive => exact h.looks nofun nofun nofun
  | drain =>
    refine h.takes (e := .drain) (drain_sinks _) nofun nofun nofun ?_ ?_
    · intro hnone
      simp only [drain, hnone, Option.map_none, Option.getD_none, and_self]
    · intro ps hps
      exact ⟨[], by simp only [drain, hps, Option.map_some, Option.getD_some,
        List.append_nil, and_self]⟩

end InOrder

/-- What any number of events keep. -/
theorem inOrder_after (es : List Event) : InOrder es (after es) := by
  induction es using List.reverseRecOn with
  | nil => exact inOrder_nil
  | append_singleton es e ih =>
    rw [after_concat]
    exact ih.act e

/-- **Notifications come out as they went in.** After any events: as long as there is a queue, what
was received and then what is queued are what was pushed, in that order, and every push was
answered well. A push through a sink that exists goes wrong just if the queue was dropped. A
receive meets the oldest packet as long as there is one; it meets the end just if nothing is queued
and no sink exists, by which time all that was pushed was received, and it waits in between. A
drain takes all that is queued, as does taking one packet after the other, and leaves nothing. -/
theorem comes_out_in_order (es : List Event) :
    let t := after es
    (.dropQueue ∉ es →
      (∃ ps, t.queue.queued = some ps ∧ t.received ++ ps = t.packets ∧
        t.queue.drain.2 = some ps ∧ t.queue.drain.1.queued = some [] ∧
        ∀ n, ps.length < n → takeAll n t.queue = (t.queue.drain.1, ps)) ∧
      ∀ x ∈ t.pushed, x.2 = true) ∧
    (∀ i p, Lives es i →
      (after (es ++ [.push i p])).pushed = t.pushed ++ [(p, decide (.dropQueue ∉ es))]) ∧
    (∀ p, t.queue.receive.2 = some (.packet p) ↔ ∃ ps, t.queue.queued = some (p :: ps)) ∧
    (t.queue.receive.2 = some .waiting ↔ t.queue.queued = some [] ∧ ∃ i, Lives es i) ∧
    (t.queue.receive.2 = some .ended ↔ t.queue.queued = some [] ∧ ∀ i, ¬ Lives es i) ∧
    (t.queue.receive.2 = some .ended → t.received = t.packets) ∧
    t.received <+: t.packets := by
  intro t
  have h : InOrder es t := inOrder_after es
  have hany : t.queue.sinks.any id = true ↔ ∃ i, Lives es i := by
    rw [any_sinks]
    exact exists_congr h.sinks
  have hended : t.queue.receive.2 = some .ended ↔
      t.queue.queued = some [] ∧ ∀ i, ¬ Lives es i := by
    rw [receive_ended, hany, not_exists]
  refine ⟨fun hqueue => ?_, fun i p hi => ?_, fun p => ?_, ?_, hended, fun hend => ?_, h.begins⟩
  · cases hq : t.queue.queued with
    | none => exact absurd (h.gone.mp hq) hqueue
    | some ps =>
      refine ⟨⟨ps, rfl, h.whole ps hq, hq, ?_, fun n hn => takeAll_eq_drain hq hn⟩, h.taken ps hq⟩
      rw [drain, hq]
      rfl
  · have hanswer : (t.queue.push p).2 = decide (.dropQueue ∉ es) := by
      have hgone := h.gone
      cases hq : t.queue.queued <;> simp_all [push]
    rw [after_concat, Traffic.act, if_pos ((h.sinks i).mpr hi), hanswer]
  · exact receive_packet
  · rw [receive_waiting, hany]
  · have hwhole := h.whole [] (hended.mp hend).1
    rwa [List.append_nil] at hwhole

/-- What the last sink pushed before it went away is received before the end. -/
example (p : Packet) :
    let t := after [.clone 0, .dropSink 0, .push 1 p, .dropSink 1]
    t.queue.receive.2 = some (.packet p) ∧ (t.act .receive).queue.receive.2 = some .ended :=
  ⟨rfl, rfl⟩

end Notifications

end ProbeLink
