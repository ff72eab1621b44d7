/-
# Spans of time as text

A span is a whole number of milliseconds. From one second on it is written in
seconds with at most three decimals and no trailing zero, below that in
milliseconds, and the empty span in nanoseconds.

Key definition: `Duration.text`.
-/

namespace ProbeLink.Duration

/-- The decimals of `ms` thousandths, without trailing zeros. -/
def decimals (ms : Nat) : String :=
  if ms = 0 then ""
  else if ms % 100 = 0 then "." ++ toString (ms / 100)
  else if ms % 10 = 0 then "." ++ (if ms < 100 then "0" else "") ++ toString (ms / 10)
  else "." ++ (if ms < 10 then "00" else if ms < 100 then "0" else "") ++ toString ms

/-- A span of `ms` milliseconds as text. -/
def text (ms : Nat) : String :=
  if ms = 0 then "0ns"
  else if ms < 1000 then toString ms ++ "ms"
  else toString (ms / 1000) ++ decimals (ms % 1000) ++ "s"

end ProbeLink.Duration
