import CallFlow.Body
import CallFlow.Context

/-!
# Dialplans

A dialplan is the text of its contexts, one behind the other: a header for each context, a line for
each extension, and behind that line the body of the script that the extension carries. One script
without a body leaves the whole dialplan without a text.
-/

namespace CallFlow

namespace Extension

/-- The line of the extension. -/
def line (e : Extension) : String :=
  "exten = " ++ e.name ++ ",1,NoOp()\n"

/-- The body behind the line. Without a script it is empty. -/
def body (e : Extension) (host : String) : Except Fault String :=
  match e.script with
  | some s => s.compile host
  | none => .ok ""

/-- The text of an extension. -/
def compile (e : Extension) (host : String) : Except Fault String :=
  (e.body host).map (e.line ++ ·)

end Extension

namespace Context

/-- The header of the context. -/
def header (c : Context) : String :=
  "[" ++ c.name ++ "]\n"

/-- The text of a context. -/
def compile (c : Context) (host : String) : Except Fault String :=
  (c.extensions.mapM (Extension.compile · host)).map fun texts => c.header ++ String.join texts

end Context

namespace Dialplan

/-- The text of a dialplan. -/
def compile (cs : List Context) (host : String) : Except Fault String :=
  (cs.mapM (Context.compile · host)).map String.join

/-- The events of compiling scripts one after the other, up to the first that has no body. -/
def scriptEvents : List Script → List Event
  | [] => []
  | s :: ss => s.events ++ if s.walkStart.fault.isNone then scriptEvents ss else []

/-- The events of compiling a dialplan. -/
def events (cs : List Context) (host : String) : List Event :=
  .assembling cs.length :: scriptEvents (cs.flatMap Context.scripts) ++
    match compile cs host with
    | .ok text => [.assembled text.utf8ByteSize]
    | .error _ => []

end Dialplan

end CallFlow
