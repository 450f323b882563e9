import CallFlow.Configuration
import CallFlow.Json.Layout
import CallFlow.Json.Print

/-!
# Configuration documents

A configuration as a record. Its host may be left out.
-/

namespace CallFlow.Configuration

open Json (Tree Layout Failure)

/-- The record of a configuration. -/
def layout : Layout Configuration :=
  ⟨"StaticConfiguration", {},
    [⟨"fast_agi_host", false, fun _ t => t.readText.map fun h c => { c with host := h }⟩]⟩

/-- The tree of a configuration. -/
def tree (c : Configuration) : Tree :=
  .ofFields [("fast_agi_host", .ofString c.host)]

/-- The configuration of a document. -/
def decode (s : String) : Except Failure Configuration :=
  Json.decode layout.read s

/-- The document of a configuration. -/
def encode (c : Configuration) : String :=
  c.tree.toText

end CallFlow.Configuration
