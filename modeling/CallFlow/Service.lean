import CallFlow.Configuration
import CallFlow.Dialplan
import CallFlow.Store

/-!
# Services

A service compiles what a store holds. Asked for a whole dialplan it always answers: if the dialplan
cannot be renewed, it serves the last good one, which a cache keeps, behind a warning. A footer
stands below either.
-/

namespace CallFlow

/-- Stands above a dialplan that is not up to date. -/
def cacheWarning : String :=
  "; WARNING! Could not load dialplan. The cache is used.\n\n"

/-- How long an answer took, in milliseconds, and the time at which it was given, in words. -/
structure Timing where
  elapsed : Nat
  stamp : String
deriving DecidableEq, Repr

namespace Timing

/-- What stands below an answer. -/
def footer (t : Timing) : String :=
  "\n; Generated by Dialgraph in " ++ t.elapsed.repr ++ "ms\n; " ++ t.stamp ++ "\n"

end Timing

/-- A store and the settings to compile with. -/
structure Service where
  store : Store
  config : Configuration := {}

namespace Service

variable (v : Service)

/-- Loads the script of an id. -/
def loadScript (i : ScriptId) : Except CompileError Script :=
  (v.store.loadScript i).mapError (.scriptLoad i)

/-- Loads and compiles the script of an id. -/
def compileScript (i : ScriptId) : Except CompileError String := do
  let s ← v.loadScript i
  (s.compile v.config.host).mapError .structural

/-- The extension with the script that it names. -/
def resolve (e : Extension) : Except CompileError Extension :=
  match e.scriptId with
  | some i => (v.loadScript i).map fun s => { e with script := some s }
  | none => .ok e

/-- The context with the scripts that its extensions name. -/
def resolveContext (c : Context) : Except CompileError Context :=
  (c.extensions.mapM v.resolve).map fun es => { c with extensions := es }

/-- Loads all contexts, and after them all scripts that they name. -/
def loadContexts : Except CompileError (List Context) := do
  let cs ← v.store.loadContexts.mapError .contextLoad
  cs.mapM v.resolveContext

/-- The dialplan as the store has it now. -/
def refresh : Except CompileError String := do
  let cs ← v.loadContexts
  (Dialplan.compile cs v.config.host).mapError .structural

/-- The dialplan that is served, given the one in the cache. -/
def serve (cached : String) : String :=
  match v.refresh with
  | .ok text => text
  | .error _ => cacheWarning ++ cached

/-- What the cache holds after a dialplan was served. -/
def keep (cached : String) : String :=
  match v.refresh with
  | .ok text => text
  | .error _ => cached

/-- The answer to a request for the whole dialplan. -/
def respond (cached : String) (t : Timing) : String :=
  v.serve cached ++ t.footer

/-- The events of compiling the script of an id. -/
def compileScriptEvents (i : ScriptId) : List Event :=
  match v.loadScript i with
  | .ok s => s.compileEvents
  | .error _ => []

/-- The events of serving a dialplan. -/
def serveEvents (cached : String) : List Event :=
  (match v.loadContexts with
    | .ok cs => Dialplan.events cs v.config.host
    | .error _ => []) ++
  match v.refresh with
  | .ok _ => []
  | .error e => .refreshFailed e :: if cached.isEmpty then [.cacheEmpty] else []

end Service

end CallFlow
