import CallFlow.Script

/-!
# Contexts

A dialplan is a list of contexts, each a list of extensions. An extension may name a script by its
id, and may carry the script itself once it has been loaded.
-/

namespace CallFlow

/-- A named entry point of a context. -/
structure Extension where
  name : String
  scriptId : Option ScriptId := none
  script : Option Script := none
deriving DecidableEq, Repr

namespace Extension

/-- The extension bound to a script that is at hand. -/
def attach (e : Extension) (s : Script) : Extension :=
  { e with scriptId := some s.id, script := some s }

/-- The extension bound to the script of an id. A script that it carries stays. -/
def refer (e : Extension) (i : ScriptId) : Extension :=
  { e with scriptId := some i }

/-- The extension without the script that it carries. -/
def detach (e : Extension) : Extension :=
  { e with script := none }

end Extension

/-- One section of a dialplan. -/
structure Context where
  name : String
  extensions : List Extension := []
deriving DecidableEq, Repr

namespace Context

/-- The context without the scripts that its extensions carry. -/
def detach (c : Context) : Context :=
  { c with extensions := c.extensions.map Extension.detach }

/-- The scripts that the extensions carry, in order. -/
def scripts (c : Context) : List Script :=
  c.extensions.filterMap (·.script)

end Context

end CallFlow
