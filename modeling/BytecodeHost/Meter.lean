/-!
# Instruction meters

A meter counts what is charged to it against an optional limit. All amounts are 64-bit words; the
total wraps, the remainder never does.
-/

namespace BytecodeHost

/-- A count of charged instructions against a limit; a limit of zero is no limit. -/
structure Meter where
  /-- The most that is granted between two resets, or zero. -/
  limit : UInt64
  /-- What is left; zero without a limit. -/
  remaining : UInt64
  /-- What was charged since the last reset, granted or not. -/
  used : UInt64
  deriving DecidableEq

namespace Meter

/-- A fresh meter. -/
def new (limit : UInt64) : Meter :=
  ⟨limit, limit, 0⟩

/-- Charges an amount and tells whether it was granted. A refused charge empties the meter. -/
def charge (m : Meter) (n : UInt64) : Meter × Bool :=
  let used := m.used + n
  if m.limit = 0 then ({ m with used := used }, true)
  else if m.remaining < n then ({ m with used := used, remaining := 0 }, false)
  else ({ m with used := used, remaining := m.remaining - n }, true)

/-- Restores the full limit. -/
def reset (m : Meter) : Meter :=
  new m.limit

end Meter

end BytecodeHost
