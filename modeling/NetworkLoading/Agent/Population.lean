/-!
# The population

How many agents are still part of a simulation, and how many were lost to it. Both are words of 64
bits which wrap around.
-/

namespace NetworkLoading

structure Population where
  living : Int64
  lost : Int64 := 0
deriving DecidableEq

namespace Population

/-- One agent is no longer alive. -/
def decLiving (p : Population) : Population :=
  { p with living := p.living - 1 }

/-- One agent more is lost. -/
def incLost (p : Population) : Population :=
  { p with lost := p.lost + 1 }

/-- A living agent is lost. -/
def lose (p : Population) : Population :=
  p.incLost.decLiving

@[simp] theorem living_lose (p : Population) : p.lose.living = p.living - 1 := rfl
@[simp] theorem lost_lose (p : Population) : p.lose.lost = p.lost + 1 := rfl

end Population

end NetworkLoading
