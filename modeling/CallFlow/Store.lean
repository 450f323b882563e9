import CallFlow.Context
import CallFlow.Event

/-!
# Stores

A store gives the script of an id and the list of contexts, or says why it does not. A `Catalog` is
a store that holds them itself; `Outages` cover a store and make it fail.
-/

namespace CallFlow

/-- Where scripts and contexts come from. -/
structure Store where
  loadScript : ScriptId → Except StoreError Script
  loadContexts : Except StoreError (List Context)

/-- What a store starts from. -/
structure Inventory where
  scripts : List Script := []
  contexts : List Context := []
deriving DecidableEq, Repr

/-- Scripts, one for each id, and contexts. -/
structure Catalog where
  scripts : List Script
  contexts : List Context
  /-- No two scripts have one id. -/
  nodup : (scripts.map (·.id)).Nodup

namespace Catalog

/-- The catalog that holds nothing. -/
def empty : Catalog :=
  ⟨[], [], List.nodup_nil⟩

/-- The catalog with a script in place of the one with the same id. -/
def insertScript (c : Catalog) (s : Script) : Catalog where
  scripts := s :: c.scripts.filter (·.id ≠ s.id)
  contexts := c.contexts
  nodup := by
    rw [List.map_cons, List.nodup_cons]
    exact ⟨by simp, c.nodup.sublist (List.filter_sublist.map _)⟩

/-- The catalog with one more context, last. -/
def pushContext (c : Catalog) (x : Context) : Catalog :=
  { c with contexts := c.contexts ++ [x] }

/-- The script of an id. -/
def script? (c : Catalog) (i : ScriptId) : Option Script :=
  c.scripts.find? (·.id = i)

/-- The catalog of an inventory, in which the last script of an id counts. -/
def ofInventory (v : Inventory) : Catalog :=
  { v.scripts.foldl insertScript empty with contexts := v.contexts }

/-- The event of reading the catalog from a document. -/
def event (c : Catalog) : Event :=
  .loaded c.scripts.length c.contexts.length

/-- The catalog as a store. Its contexts carry no scripts: these are loaded by their ids. -/
def store (c : Catalog) : Store where
  loadScript i :=
    match c.script? i with
    | some s => .ok s
    | none => .error (.scriptNotFound i)
  loadContexts := .ok (c.contexts.map Context.detach)

/-- An inserted script is the script of its id, and the others stay. -/
theorem script?_insertScript (c : Catalog) (s : Script) (i : ScriptId) :
    (c.insertScript s).script? i = if s.id = i then some s else c.script? i := by
  by_cases h : s.id = i
  · simp [script?, insertScript, h]
  · have hne : ∀ t : Script, (t.id ≠ s.id && decide (t.id = i)) = decide (t.id = i) := by
      intro t
      by_cases ht : t.id = i
      · simp [ht, Ne.symm h]
      · simp [ht]
    simp only [script?, insertScript, List.find?_cons, h, decide_false, if_false, List.find?_filter]
    congr 1
    funext t
    simpa using hne t

end Catalog

/-- Failures that a store is made to give in place of its answers. -/
structure Outages where
  contexts : Option StoreError := none
  /-- The failures of scripts of their own. -/
  scripts : List (ScriptId × StoreError) := []
  /-- The failure of every other script. -/
  otherScripts : Option StoreError := none
deriving DecidableEq, Repr

namespace Outages

/-- Sets or lifts the failure of the script of an id. -/
def setScript (o : Outages) (i : ScriptId) (e : Option StoreError) : Outages :=
  { o with scripts := (e.map (i, ·)).toList ++ o.scripts.filter (·.1 ≠ i) }

/-- The failure of the script of an id. -/
def script? (o : Outages) (i : ScriptId) : Option StoreError :=
  ((o.scripts.find? (·.1 = i)).map (·.2)).or o.otherScripts

/-- The store with the failures in place of its answers. -/
def cover (o : Outages) (s : Store) : Store where
  loadScript i :=
    match o.script? i with
    | some e => .error e
    | none => s.loadScript i
  loadContexts :=
    match o.contexts with
    | some e => .error e
    | none => s.loadContexts

end Outages

end CallFlow
