import CallFlow.Block

/-!
# Faults

A fault says why the shape of a script's graph leaves it without a body.
-/

namespace CallFlow

/-- Why a script has no body. -/
inductive Fault where
  /-- No block is a start block. -/
  | noStart
  /-- A connection that has to be followed leads to an id that no block carries. -/
  | noBlock (target : LocalId)
  /-- None of the blocks that a switch leads to is a default. -/
  | noDefault (switch : LocalId)
deriving DecidableEq, Repr

namespace Fault

/-- The fault in words. -/
def message : Fault → String
  | .noStart => "Could not find start block"
  | .noBlock i => "Could not find block with local id " ++ i.toInt.repr
  | .noDefault i => "Could not find default case block for switch " ++ i.toInt.repr

end Fault

end CallFlow
