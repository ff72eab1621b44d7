/-
# Agents and their moves

What happens at the same time is done by agents that move one at a time. A
system says which agents it has, which of them can move, and what a move does; a
schedule is any order of moves. An agent that cannot move waits for somebody
else.

One schedule is singled out, the fair one: agents that can move stand in a
queue, the first moves until it has to wait, and agents that its moves set free
join the queue behind those who are there (`Interplay.drain`). It comes to
rest when no agent can move (`Interplay.AtRest`).

Key definitions: `Agent`, `Interplay`, `Interplay.Moves`, `Interplay.AtRest`,
`Interplay.drain`, `Interplay.settle`.
Key theorems: `Interplay.moves_settle`, `Interplay.atRest_settle`.
-/

namespace ProbeLink

/-- Those who move while a link is in use. -/
inductive Agent where
  /-- The loop that reads the link. -/
  | reader
  /-- A call, by number. -/
  | call (n : Nat)
  /-- Whoever shuts down a half that was let go. -/
  | release
  /-- Whoever does what was handed over to be done in the background. -/
  | porter
  /-- Chance, where more than one thing could come next and nothing says which. -/
  | chance
  /-- The far end, writing. -/
  | farWriter
  /-- The far end, reading. -/
  | farReader
  deriving DecidableEq, Repr

/-- An interplay of agents. -/
class Interplay (W : Type) where
  /-- All agents that may ever move, in order of precedence. -/
  agents : W → List Agent
  /-- Whether an agent can move. -/
  ready : W → Agent → Bool
  /-- What a move does. It matters only for an agent that can move. -/
  move : W → Agent → W
  /-- More than the number of moves that can follow. -/
  effort : W → Nat

namespace Interplay

variable {W : Type} [Interplay W]

/-- One world leads to another by moves of agents that can move. -/
inductive Moves : W → W → Prop where
  | refl (w : W) : Moves w w
  | tail {v w : W} (a : Agent) : Moves v w → ready w a = true → Moves v (move w a)

/-- No agent can move. -/
def AtRest (w : W) : Prop := ∀ a, ready w a = false

/-- The agents that can move and are not in the queue. -/
def woken (w : W) (queue : List Agent) : List Agent :=
  (agents w).filter fun a => ready w a && !queue.contains a

/-- Lets the agents of the queue move, first come, first served, until the queue
is empty. The number bounds the moves and the changes of turn. -/
def drain : Nat → List Agent → W → W
  | 0, _, w => w
  | _ + 1, [], w => w
  | n + 1, a :: queue, w =>
    if ready w a then
      let w := move w a
      drain n (a :: queue ++ woken w (a :: queue)) w
    else drain n queue w

/-- Lets all agents move until none can. -/
def settle (w : W) : W := drain (effort w) (woken w []) w

theorem Moves.trans {u v w : W} (h : Moves u v) (k : Moves v w) : Moves u w := by
  induction k with
  | refl => exact h
  | tail a _ hr ih => exact .tail a ih hr

theorem moves_drain (n : Nat) (queue : List Agent) (w : W) : Moves w (drain n queue w) := by
  induction n generalizing queue w with
  | zero => exact .refl w
  | succ n ih =>
    cases queue with
    | nil => exact .refl w
    | cons a queue =>
      unfold drain
      split
      · exact (Moves.tail a (.refl w) ‹_›).trans (ih _ _)
      · exact ih _ _

/-- **The fair schedule is a schedule.** -/
theorem moves_settle (w : W) : Moves w (settle w) := moves_drain _ _ _

section Rest

-- `P k w` says that at most `k` moves can follow `w`
variable {P : Nat → W → Prop} {m : Nat}

/-- The queue that is left after a move holds everyone who can move. -/
theorem mem_queue_of_ready {w : W} {queue : List Agent}
    (hall : ∀ a, ready w a = true → a ∈ agents w) {a : Agent} (ha : ready w a = true) :
    a ∈ queue ++ woken w queue := by
  rw [List.mem_append]
  by_cases hq : a ∈ queue
  · exact .inl hq
  · exact .inr (List.mem_filter.mpr ⟨hall a ha, by simp [ha, hq]⟩)

theorem atRest_drain
    (hmove : ∀ {k w a}, P k w → ready w a = true → ∃ k' < k, P k' (move w a))
    (hall : ∀ {k w}, P k w → ∀ a, ready w a = true → a ∈ agents w)
    (hfew : ∀ {k w}, P k w → (agents w).length ≤ m) :
    ∀ (n : Nat) {k : Nat} {queue : List Agent} {w : W}, P k w →
      (∀ a, ready w a = true → a ∈ queue) → k * (m + 1) + queue.length ≤ n →
      AtRest (drain n queue w)
  | 0, k, queue, w, _, hq, hn => fun a => by
    obtain rfl : queue = [] := List.eq_nil_of_length_eq_zero (by omega)
    exact Bool.eq_false_iff.mpr fun ha => absurd (hq a ha) (List.not_mem_nil)
  | n + 1, k, [], w, _, hq, _ => fun a =>
    Bool.eq_false_iff.mpr fun ha => absurd (hq a ha) (List.not_mem_nil)
  | n + 1, k, b :: queue, w, hw, hq, hn => by
    rw [drain]
    split
    · rename_i hb
      obtain ⟨k', hlt, hw'⟩ := hmove hw hb
      refine atRest_drain hmove hall hfew n hw' (fun a ha => mem_queue_of_ready (hall hw') ha) ?_
      have hwoken : (woken (move w b) (b :: queue)).length ≤ m :=
        Nat.le_trans (List.length_filter_le _ _) (hfew hw')
      have hless : k' * (m + 1) + (m + 1) ≤ k * (m + 1) := by
        rw [← Nat.succ_mul]
        exact Nat.mul_le_mul_right _ hlt
      simp only [List.length_append, List.length_cons] at hn ⊢
      omega
    · rename_i hb
      refine atRest_drain hmove hall hfew n hw (fun a ha => ?_) (by simp at hn; omega)
      rcases List.mem_cons.mp (hq a ha) with rfl | hmem
      · exact absurd ha hb
      · exact hmem

/-- **The fair schedule comes to rest** if only so many moves can follow that the
effort allows for all of them and for the changes of turn in between. -/
theorem atRest_settle
    (hmove : ∀ {k w a}, P k w → ready w a = true → ∃ k' < k, P k' (move w a))
    (hall : ∀ {k w}, P k w → ∀ a, ready w a = true → a ∈ agents w)
    (hfew : ∀ {k w}, P k w → (agents w).length ≤ m) {k : Nat} {w : W} (hw : P k w)
    (heffort : k * (m + 1) + m ≤ effort w) : AtRest (settle w) := by
  refine atRest_drain hmove hall hfew _ hw (fun a ha => ?_) ?_
  · exact List.nil_append (woken w []) ▸ mem_queue_of_ready (hall hw) ha
  · have hwoken : (woken w []).length ≤ m := Nat.le_trans (List.length_filter_le _ _) (hfew hw)
    omega

end Rest

end Interplay

end ProbeLink
