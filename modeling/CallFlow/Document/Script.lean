import CallFlow.Document.Block
import CallFlow.Script

/-!
# Script documents

Connections and scripts as records. Every field of a script may be left out.
-/

namespace CallFlow

open Json (Tree FieldReader Layout Failure)

namespace Connection

/-- The record of a connection. -/
def layout : Layout Connection :=
  ⟨"Connection", ⟨0, 0⟩,
    [⟨"source_local_id", true, fun _ t => t.readInt32.map fun i c => { c with source := i }⟩,
      ⟨"target_local_id", true, fun _ t => t.readInt32.map fun i c => { c with target := i }⟩]⟩

/-- The tree of a connection. -/
def tree (c : Connection) : Tree :=
  .ofFields [("source_local_id", .ofInt c.source.toInt), ("target_local_id", .ofInt c.target.toInt)]

/-- The connection of a document. -/
def decode (s : String) : Except Failure Connection :=
  Json.decode layout.read s

/-- The document of a connection. -/
def encode (c : Connection) : String :=
  c.tree.toText

end Connection

namespace Script

/-- The record of a script. -/
def layout : Layout Script :=
  ⟨"Script", {},
    [⟨"id", false, fun _ t => t.readInt64.map fun i s => { s with id := i }⟩,
      ⟨"name", false, fun _ t => t.readText.map fun n s => { s with name := n }⟩,
      ⟨"blocks", false, fun d t =>
        (t.readList Block.read d).map fun bs s => { s with blocks := bs }⟩,
      ⟨"connections", false, fun d t =>
        (t.readList Connection.layout.read d).map fun cs s => { s with connections := cs }⟩]⟩

/-- The tree of a script. -/
def tree (s : Script) : Tree :=
  .ofFields [("id", .ofInt s.id.toInt), ("name", .ofString s.name),
    ("blocks", .ofList Block.tree s.blocks),
    ("connections", .ofList Connection.tree s.connections)]

/-- The script of a document. -/
def decode (s : String) : Except Failure Script :=
  Json.decode layout.read s

/-- The document of a script. -/
def encode (s : Script) : String :=
  s.tree.toText

end Script

end CallFlow
