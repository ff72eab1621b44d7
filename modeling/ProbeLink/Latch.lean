/-
# Latches

A latch is closed at most once and stays closed. Whoever waits for that is woken
when it closes, and at once if it already has.

Key definitions: `Latch`, `Latch.close`, `Latch.wait`.
-/

namespace ProbeLink

/-- A latch and those who wait for it to close, by number. -/
structure Latch where
  closed : Bool := false
  waiting : List Nat := []
  deriving DecidableEq, Repr

namespace Latch

/-- Closes the latch: whether it was open, and who is woken. -/
def close (s : Latch) : Latch × Bool × List Nat :=
  (⟨true, []⟩, !s.closed, s.waiting)

/-- Waiter `n` waits for the latch to close: who is woken. -/
def wait (s : Latch) (n : Nat) : Latch × List Nat :=
  if s.closed then (s, [n]) else ({ s with waiting := s.waiting ++ [n] }, [])

end Latch

end ProbeLink
