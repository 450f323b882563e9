/-!
# Blocks

A block is one node of a call-handling script: an id that is local to the script, a label that
jumps can name, and a kind that says what the block does when a call reaches it.
-/

namespace CallFlow

/-- The id of a block inside one script. -/
abbrev LocalId := Int32

/-- The id of a script in a store. -/
abbrev ScriptId := Int64

/-- What a block does. The three switches branch, `caseArm` and `defaultArm` are where their
branches begin, and every other kind runs one application. -/
inductive Kind where
  | start
  | answer
  | playback (file : String)
  | background (file : String)
  | wait (seconds : UInt32)
  | setVariable (name value : String)
  | dial (destination : String) (timeout : Option UInt32)
  | queue (name : String)
  | custom (application arguments : String)
  | switch (expression : String)
  | timeSwitch
  | agiSwitch (script : String)
  | caseArm (value : String)
  | defaultArm
deriving DecidableEq, Repr

/-- One node of a script. An empty label names nothing. -/
structure Block where
  id : LocalId
  label : String
  kind : Kind
deriving DecidableEq, Repr

namespace Block

/-- Calls enter a script at a start block. -/
def isStart (b : Block) : Bool :=
  match b.kind with
  | .start => true
  | _ => false

/-- The connections that leave a switch lead to cases and to one default. -/
def isSwitch (b : Block) : Bool :=
  match b.kind with
  | .switch _ | .timeSwitch | .agiSwitch _ => true
  | _ => false

/-- The text of the block names the host that serves AGI scripts. -/
def needsHost (b : Block) : Bool :=
  match b.kind with
  | .agiSwitch _ => true
  | _ => false

/-- The block begins a branch that a switch takes on a match. -/
def isCase (b : Block) : Bool :=
  match b.kind with
  | .caseArm _ => true
  | _ => false

/-- The block begins the branch that a switch takes when nothing matches. -/
def isDefault (b : Block) : Bool :=
  match b.kind with
  | .defaultArm => true
  | _ => false

/-- What a switch compares with to take this block's branch. Only a case has such a value. -/
def caseValue (b : Block) : String :=
  match b.kind with
  | .caseArm value => value
  | _ => ""

/-- A block that needs the host is a switch. -/
theorem isSwitch_of_needsHost {b : Block} (h : b.needsHost = true) : b.isSwitch = true := by
  unfold needsHost at h
  unfold isSwitch
  split at h <;> simp_all

end Block

end CallFlow
