import CallFlow.Error
import CallFlow.Script

/-!
# Events

What is worth a line in a log. An event has a level and a message.
-/

namespace CallFlow

/-- How much an event matters. -/
inductive Level where
  | debug
  | info
  | warn
  | error
deriving DecidableEq, Repr

/-- Something that happened. -/
inductive Event where
  /-- A script is about to be compiled by itself. -/
  | compiling (script : Script)
  /-- A branch of a script is taken up at a block. -/
  | branch (script : ScriptId) (block : Block)
  /-- It is known where a switch leads. -/
  | resolved (switch : LocalId) (cases : Nat) (default : LocalId)
  /-- A dialplan of so many contexts is about to be put together. -/
  | assembling (contexts : Nat)
  /-- A dialplan of so many bytes is there. -/
  | assembled (bytes : Nat)
  /-- A store has read its document. -/
  | loaded (scripts contexts : Nat)
  /-- A dialplan could not be renewed. -/
  | refreshFailed (error : CompileError)
  /-- There is no earlier dialplan either. -/
  | cacheEmpty
deriving DecidableEq, Repr

namespace Level

/-- The name of a level. -/
def name : Level → String
  | .debug => "DEBUG"
  | .info => "INFO"
  | .warn => "WARN"
  | .error => "ERROR"

end Level

namespace Event

/-- How much the event matters. -/
def level : Event → Level
  | .compiling _ | .branch _ _ | .resolved _ _ _ | .loaded _ _ => .debug
  | .assembling _ | .assembled _ => .info
  | .refreshFailed _ => .error
  | .cacheEmpty => .warn

/-- The event in words. -/
def message : Event → String
  | .compiling s =>
    "[DIALGRAPH] Compiling script " ++ s.id.toInt.repr ++ " '" ++ s.name ++ "' (" ++
      s.blocks.length.repr ++ " blocks, " ++ s.connections.length.repr ++ " connections)"
  | .branch script b =>
    "[CODEGEN] Script " ++ script.toInt.repr ++ ": branch from block " ++ b.id.toInt.repr ++ " (" ++
      b.label ++ ")"
  | .resolved switch cases default =>
    "[CODEGEN] Switch " ++ switch.toInt.repr ++ " resolved " ++ cases.repr ++
      " case(s), default " ++ default.toInt.repr
  | .assembling contexts => "[DIALGRAPH] Assembling " ++ contexts.repr ++ " contexts"
  | .assembled bytes => "[DIALGRAPH] Assembly complete (" ++ bytes.repr ++ " bytes)"
  | .loaded scripts contexts =>
    "[STORE] Loaded " ++ scripts.repr ++ " scripts and " ++ contexts.repr ++ " contexts"
  | .refreshFailed error => "[DIALGRAPH] Could not load dialplan: " ++ error.chain
  | .cacheEmpty => "[DIALGRAPH] Cache is empty, serving warning only"

/-- The line of the event in a log. -/
def text (e : Event) : String :=
  e.level.name ++ " " ++ e.message

end Event

end CallFlow
