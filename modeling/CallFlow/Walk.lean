import CallFlow.Fault
import CallFlow.Script

/-!
# The walk over a script

A body is found by walking the graph. The walk follows the first connection out of each block and
renders each id once. At an id that is already rendered the branch ends in a jump there, and at a
block without connections in a hangup. A switch ends its branch too and leaves further branches to
walk: its default, next, so that a call which matches no case falls through into it, and then its
cases, the last one first.

`Script.walk` records what is done in a `Trace`. The lines of the body and the log of the walk are
both read off the trace, so neither plays a part in how the walk goes.
-/

namespace CallFlow

/-- One thing done on a walk. -/
inductive Item where
  /-- A branch is taken up at a block. -/
  | enter (block : Block)
  /-- A block that is no switch is rendered. -/
  | plain (block : Block)
  /-- A switch is rendered, with the blocks it leads to. -/
  | fork (switch : Block) (cases : List Block) (default : Block)
  /-- A branch ends at a block whose id is already rendered. -/
  | rejoin (block : Block)
  /-- A branch ends at a block that leads nowhere. -/
  | finish
deriving DecidableEq, Repr

/-- What was done on a walk, in order, and the fault that ended it early if one did. -/
structure Trace where
  items : List Item := []
  fault : Option Fault := none
deriving DecidableEq, Repr

namespace Trace

/-- The trace with one more item in front. -/
def cons (i : Item) (t : Trace) : Trace :=
  { t with items := i :: t.items }

/-- The trace of a walk that stops at a fault. -/
def stop (f : Fault) : Trace :=
  { fault := some f }

end Trace

/-- What is still to be done on a walk: to take up a branch, or to go on with the one at hand. -/
inductive Task where
  | enter (block : Block)
  | visit (block : Block)
deriving DecidableEq, Repr

namespace Task

/-- The number of steps until the task has dealt with its block. -/
def steps : Task → Nat
  | .enter _ => 2
  | .visit _ => 1

/-- The number of steps until every task has dealt with its block. -/
def stepsAll : List Task → Nat
  | [] => 0
  | t :: ts => t.steps + stepsAll ts

end Task

/-- The ids that are left once `i` is rendered. -/
def without (fresh : List LocalId) (i : LocalId) : List LocalId :=
  fresh.filter (· ≠ i)

section
variable {fresh : List LocalId} {i j : LocalId}

/-- The ids that are left are the other ones. -/
@[simp] theorem mem_without : j ∈ without fresh i ↔ j ∈ fresh ∧ j ≠ i := by
  simp [without]

/-- Rendering an id that is not yet rendered leaves fewer ids. -/
theorem length_without_lt (h : i ∈ fresh) : (without fresh i).length < fresh.length := by
  rw [without, List.length_filter_lt_length_iff_exists]
  exact ⟨i, h, by simp⟩

end

namespace Script

/-- The block of an id that a connection leads to. -/
def follow (s : Script) (i : LocalId) : Except Fault Block :=
  match s.block? i with
  | some b => .ok b
  | none => .error (.noBlock i)

/-- Where a call goes after a block that is no switch: along the first connection, if there is
one. -/
def next (s : Script) (b : Block) : Except Fault (Option Block) :=
  match s.targets b.id with
  | [] => .ok none
  | i :: _ => (s.follow i).map some

/-- Where a call can go after a switch: to its cases and to the first default, of the blocks that
its connections lead to. Every connection has to lead to a block. -/
def branches (s : Script) (b : Block) : Except Fault (List Block × Block) := do
  let blocks ← (s.targets b.id).mapM s.follow
  match blocks.find? Block.isDefault with
  | some d => .ok (blocks.filter Block.isCase, d)
  | none => .error (.noDefault b.id)

/-- Does the tasks in order, the first one first. The ids in `fresh` are the ones that are not yet
rendered. Each step renders one of them or shortens what is to be done, so the walk ends. -/
def walkFrom (s : Script) (fresh : List LocalId) : List Task → Trace
  | [] => {}
  | .enter b :: rest => .cons (.enter b) (s.walkFrom fresh (.visit b :: rest))
  | .visit b :: rest =>
    if b.id ∈ fresh then
      if b.isSwitch then
        match s.branches b with
        | .error f => .stop f
        | .ok (cases, d) =>
          .cons (.fork b cases d) (s.walkFrom (without fresh b.id)
            (.enter d :: cases.reverse.map .enter ++ rest))
      else
        match s.next b with
        | .error f => .cons (.plain b) (.stop f)
        | .ok none => .cons (.plain b) (.cons .finish (s.walkFrom (without fresh b.id) rest))
        | .ok (some c) => .cons (.plain b) (s.walkFrom (without fresh b.id) (.visit c :: rest))
    else
      .cons (.rejoin b) (s.walkFrom fresh rest)
termination_by tasks => (fresh.length, Task.stepsAll tasks)
decreasing_by
  · exact Prod.Lex.right _ (by simp [Task.stepsAll, Task.steps])
  · exact Prod.Lex.left _ _ (length_without_lt ‹_›)
  · exact Prod.Lex.left _ _ (length_without_lt ‹_›)
  · exact Prod.Lex.left _ _ (length_without_lt ‹_›)
  · exact Prod.Lex.right _ (by simp [Task.stepsAll, Task.steps])

/-- The walk from an entry block, which need not be a block of the script. Only the entry and the
blocks of the script can be met, so their ids are all there is to render. -/
def walk (s : Script) (entry : Block) : Trace :=
  s.walkFrom (entry.id :: s.blocks.map (·.id)) [.enter entry]

/-- The walk from where a call enters the script. -/
def walkStart (s : Script) : Trace :=
  match s.start? with
  | some b => s.walk b
  | none => .stop .noStart

end Script

end CallFlow
