import CallFlow.Document.Context
import CallFlow.Document.Script
import CallFlow.Store

/-!
# Store documents

The scripts and contexts of a store as one record.
-/

namespace CallFlow.Inventory

open Json (Layout)

/-- The record of an inventory. -/
def layout : Layout Inventory :=
  ⟨"StoreDocument", {},
    [⟨"scripts", false, fun d t =>
        (t.readList Script.layout.read d).map fun ss v => { v with scripts := ss }⟩,
      ⟨"contexts", false, fun d t =>
        (t.readList Context.layout.read d).map fun cs v => { v with contexts := cs }⟩]⟩

/-- The inventory of a document. A store tells of a document that it cannot read. -/
def decode (s : String) : Except StoreError Inventory :=
  (Json.decode layout.read s).mapError .document

end CallFlow.Inventory
