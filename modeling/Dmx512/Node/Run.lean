import Dmx512.Node.Basic

/-!
# Runs

A run of a node is a list of actions: operations, and changes of the hardware
from outside, such as bytes that arrive or a clock that moves. `Reachable`
holds of the nodes that some run leads to from power-up.
-/

namespace Dmx512.Node

variable {H : Type} [Hardware H] {d r : Nat}

/-- A link at power-up, on hardware in a given state. -/
def powerUp (hardware : H) : Node H d r := { link := { line := { hardware } } }

/-- Change the hardware from outside. -/
def disturb (change : H → H) (s : Node H d r) : Node H d r :=
  { s with link := { s.link with line :=
    { s.link.line with hardware := change s.link.line.hardware } } }

inductive Action (H : Type) where
  | perform (operation : Operation)
  /-- A change of the hardware from outside. -/
  | disturb (change : H → H)

def act (s : Node H d r) : Action H → Checked (Node H d r)
  | .perform operation => do pure (← perform operation s).2
  | .disturb change => pure (s.disturb change)

def run (s : Node H d r) : List (Action H) → Checked (Node H d r)
  | [] => pure s
  | action :: rest => do (← s.act action).run rest

/-- Whether some run leads from power-up to a node. -/
def Reachable (s : Node H d r) : Prop :=
  ∃ (hardware : H) (actions : List (Action H)), (powerUp hardware).run actions = .ok s

end Dmx512.Node
