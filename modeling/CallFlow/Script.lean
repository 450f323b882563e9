import CallFlow.Block

/-!
# Scripts

A script is a list of blocks and a list of connections between them. Both orders matter: the first
block with an id is the block of that id, the first start block is where a call enters, and the
first connection that leaves a block is the one that a call follows.
-/

namespace CallFlow

/-- A directed edge between two blocks of one script. -/
structure Connection where
  source : LocalId
  target : LocalId
deriving DecidableEq, Repr

/-- A block graph. -/
structure Script where
  id : ScriptId := 0
  name : String := ""
  blocks : List Block := []
  connections : List Connection := []
deriving DecidableEq, Repr

namespace Script

/-- The script with one more block, last. -/
def addBlock (s : Script) (b : Block) : Script :=
  { s with blocks := s.blocks ++ [b] }

/-- The script with one more connection, last. -/
def connect (s : Script) (source target : LocalId) : Script :=
  { s with connections := s.connections ++ [⟨source, target⟩] }

/-- The block of an id: the first one that carries it. -/
def block? (s : Script) (i : LocalId) : Option Block :=
  s.blocks.find? (·.id = i)

/-- The block at which a call enters: the first start block. -/
def start? (s : Script) : Option Block :=
  s.blocks.find? Block.isStart

/-- The targets of the connections that leave a block, in the order of the connections. -/
def targets (s : Script) (i : LocalId) : List LocalId :=
  (s.connections.filter (·.source = i)).map (·.target)

section
variable {s : Script} {b : Block} {i : LocalId}

/-- A block that is found carries the id it was looked up by. -/
theorem id_of_block? (h : s.block? i = some b) : b.id = i := by
  simpa using List.find?_some h

/-- A block that is found is a block of the script. -/
theorem mem_of_block? (h : s.block? i = some b) : b ∈ s.blocks :=
  List.mem_of_find?_eq_some h

/-- An added block is found only when no earlier block carries its id. -/
theorem block?_addBlock : (s.addBlock b).block? i =
    (s.block? i).or (if b.id = i then some b else none) := by
  simp only [block?, addBlock, List.find?_append, List.find?_singleton, decide_eq_true_eq]

/-- A connection adds a target to its source and to no other block. -/
theorem targets_connect {j k : LocalId} : (s.connect j k).targets i =
    s.targets i ++ (if j = i then [k] else []) := by
  by_cases h : j = i <;> simp [targets, connect, h]

end

end Script

end CallFlow
