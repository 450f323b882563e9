import CallFlow.Event
import CallFlow.Line
import CallFlow.Walk

/-!
# Bodies

The body of a script is what the items of its walk come to as lines. A script whose walk meets a
fault has no body.
-/

namespace CallFlow

namespace Item

/-- The lines that an item adds to a body. -/
def lines : Item → List Line
  | .enter _ => []
  | .plain b => b.lines []
  | .fork b cases _ => b.lines cases
  | .rejoin b => [.jump b]
  | .finish => [.hangup]

/-- The event that an item is on a walk over the script of an id. -/
def event? (script : ScriptId) : Item → Option Event
  | .enter b => some (.branch script b)
  | .fork b cases d => some (.resolved b.id cases.length d.id)
  | _ => none

end Item

namespace Trace

/-- The lines of a walk that met no fault. -/
def lines (t : Trace) : Except Fault (List Line) :=
  match t.fault with
  | some f => .error f
  | none => .ok (t.items.flatMap Item.lines)

/-- The events of a walk over the script of an id. -/
def events (script : ScriptId) (t : Trace) : List Event :=
  t.items.filterMap (Item.event? script)

end Trace

namespace Script

/-- The text of the body from an entry block. -/
def compileFrom (s : Script) (host : String) (entry : Block) : Except Fault String :=
  (s.walk entry).lines.map (Line.textAll (some host))

/-- The lines of the body. -/
def body (s : Script) : Except Fault (List Line) :=
  s.walkStart.lines

/-- The text of the body. -/
def compile (s : Script) (host : String) : Except Fault String :=
  s.body.map (Line.textAll (some host))

/-- The events of compiling the body from an entry block. -/
def eventsFrom (s : Script) (entry : Block) : List Event :=
  (s.walk entry).events s.id

/-- The events of compiling the body as part of a dialplan. -/
def events (s : Script) : List Event :=
  s.walkStart.events s.id

/-- The events of compiling the script by itself. -/
def compileEvents (s : Script) : List Event :=
  .compiling s :: s.events

end Script

end CallFlow
