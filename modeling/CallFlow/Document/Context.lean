import CallFlow.Context
import CallFlow.Json.Layout
import CallFlow.Json.Print

/-!
# Context documents

Extensions and contexts as records. A script that an extension carries is not written, and a member
that looks like one is skipped.
-/

namespace CallFlow

open Json (Tree FieldReader Layout Failure)

namespace Extension

/-- The record of an extension. -/
def layout : Layout Extension :=
  ⟨"Extension", { name := "" },
    [⟨"name", true, fun _ t => t.readText.map fun n e => { e with name := n }⟩,
      ⟨"script_id", false, fun _ t =>
        (t.readOption Tree.readInt64).map fun i e => { e with scriptId := i }⟩]⟩

/-- The tree of an extension. -/
def tree (e : Extension) : Tree :=
  .ofFields [("name", .ofString e.name),
    ("script_id", .ofOption (fun i => .ofInt i.toInt) e.scriptId)]

/-- The extension of a document. -/
def decode (s : String) : Except Failure Extension :=
  Json.decode layout.read s

/-- The document of an extension. -/
def encode (e : Extension) : String :=
  e.tree.toText

end Extension

namespace Context

/-- The record of a context. -/
def layout : Layout Context :=
  ⟨"Context", { name := "" },
    [⟨"name", true, fun _ t => t.readText.map fun n c => { c with name := n }⟩,
      ⟨"extensions", false, fun d t =>
        (t.readList Extension.layout.read d).map fun es c => { c with extensions := es }⟩]⟩

/-- The tree of a context. -/
def tree (c : Context) : Tree :=
  .ofFields [("name", .ofString c.name), ("extensions", .ofList Extension.tree c.extensions)]

/-- The context of a document. -/
def decode (s : String) : Except Failure Context :=
  Json.decode layout.read s

/-- The document of a context. -/
def encode (c : Context) : String :=
  c.tree.toText

/-- The document of a list of contexts. -/
def encodeList (cs : List Context) : String :=
  (Tree.ofList tree cs).toText

end Context

end CallFlow
