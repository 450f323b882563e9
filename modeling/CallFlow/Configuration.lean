/-!
# Configuration

What is fixed while a dialplan is compiled.
-/

namespace CallFlow

/-- The settings of a service. -/
structure Configuration where
  /-- The host that serves AGI scripts. -/
  host : String := "127.0.0.1"
deriving DecidableEq, Repr

end CallFlow
