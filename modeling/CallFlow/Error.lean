import CallFlow.Fault
import CallFlow.Json.Failure

/-!
# Errors

What can go wrong while a dialplan is compiled: a store does not give what it is asked for, or a
script has no body. Each error has a message, and an error that has a cause has the messages of its
causes behind its own.
-/

namespace CallFlow

/-- Why a store does not give what it is asked for. -/
inductive StoreError where
  | unavailable (reason : String)
  | scriptNotFound (id : ScriptId)
  | document (reason : Json.Failure)
  | io (reason : String)
deriving DecidableEq, Repr

namespace StoreError

/-- The error in words. -/
def message : StoreError → String
  | .unavailable reason => "Storage is unavailable: " ++ reason
  | .scriptNotFound id => "Script not found: " ++ id.toInt.repr
  | .document reason => "JSON error: " ++ reason.message
  | .io reason => "I/O error: " ++ reason

/-- The messages of the causes, the nearest first. -/
def causes : StoreError → List String
  | .unavailable _ | .scriptNotFound _ => []
  | .document reason => [reason.message]
  | .io reason => [reason]

end StoreError

/-- Why a script or a dialplan is not compiled. -/
inductive CompileError where
  | structural (fault : Fault)
  | scriptLoad (id : ScriptId) (cause : StoreError)
  | contextLoad (cause : StoreError)
deriving DecidableEq, Repr

namespace CompileError

/-- The error lies in the shape of a script, not in a store. -/
def isStructural : CompileError → Bool
  | .structural _ => true
  | _ => false

/-- The error in words. -/
def message : CompileError → String
  | .structural fault => fault.message
  | .scriptLoad id _ => "Could not load the script with id " ++ id.toInt.repr
  | .contextLoad _ => "Could not load the context list"

/-- The messages of the causes, the nearest first. -/
def causes : CompileError → List String
  | .structural _ => []
  | .scriptLoad _ cause | .contextLoad cause => cause.message :: cause.causes

/-- The message with all its causes. -/
def chain (e : CompileError) : String :=
  ": ".intercalate (e.message :: e.causes)

end CompileError

end CallFlow
