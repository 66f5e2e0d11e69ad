/-! Supersession of jogs. A newer jog or a cancel invalidates the tickets issued before. -/
namespace MotionControl

/-- The number of tickets issued and cancels made so far. -/
structure JogCounter where
  generation : Nat
  deriving DecidableEq, Repr

/-- Proof of having started a jog, current until a newer one or a cancel. -/
structure JogTicket where
  generation : Nat
  deriving DecidableEq, Repr

namespace JogCounter

def new : JogCounter := ⟨0⟩

/-- A new jog, which supersedes any older one. -/
def begin (g : JogCounter) : JogTicket × JogCounter := (⟨g.generation + 1⟩, ⟨g.generation + 1⟩)

/-- Every ticket out is invalidated. -/
def cancel (g : JogCounter) : JogCounter := ⟨g.generation + 1⟩

/-- Several cancels in a row. -/
def cancelTimes (g : JogCounter) (times : Nat) : JogCounter := ⟨g.generation + times⟩

def isCurrent (g : JogCounter) (ticket : JogTicket) : Bool := ticket.generation == g.generation

end JogCounter

end MotionControl
