import CallFlow.Document.Tag
import CallFlow.Json.Layout
import CallFlow.Json.Print

/-!
# Block documents

A block is written as one object that holds the id, the label, the tag of the kind and the fields of
the kind side by side. The id and the label are read where they stand. The other members are kept
until the object ends, because only the tag says which of them are fields, and it may come last.
-/

namespace CallFlow

open Json (Tree Member FieldReader Layout Failure Mismatch)

namespace Tag

/-- Reads a tag: its name, or its number. -/
def read (t : Tree) : Except Failure Tag := do
  match ← t.found with
  | .text s =>
    match ofName? s with
    | some tag => .ok tag
    | none => .error (.mismatch (.unknownName s (all.map name)))
  | .integer (.ofNat n) =>
    match ofIndex? n with
    | some tag => .ok tag
    | none => .error (.mismatch (.outOfRange n ("variant index 0 <= i < " ++ all.length.repr)))
  | f => .error (.mismatch (.wrongType f "variant identifier"))

/-- The key of the tag. -/
def key : String := "type"

/-- Reads the one member that holds the tag. -/
def readMembers : List Member → Option Tag → Except Failure (Option Tag)
  | [], tag? => .ok tag?
  | (k, t) :: ms, tag? => do
    if (← Json.readPieces k) = key then
      match tag? with
      | some _ => .error (.mismatch (.duplicate key))
      | none => readMembers ms (some (← read t))
    else readMembers ms tag?

end Tag

namespace Kind

/-- A text field that has to be there. -/
def textField {σ : Type} (name : String) (update : String → σ → σ) : FieldReader σ :=
  ⟨name, true, fun _ t => t.readText.map update⟩

/-- A kind whose only field is a text. -/
def textLayout (tag : Tag) (name : String) : Layout String :=
  ⟨tag.name, "", [textField name fun s _ => s]⟩

/-- A kind without fields. -/
def unitLayout (tag : Tag) : Layout Unit :=
  ⟨tag.name, (), []⟩

/-- The fields of a pause. -/
def waitLayout : Layout UInt32 :=
  ⟨Tag.wait.name, 0, [⟨"seconds", true, fun _ t => t.readUInt32.map fun n _ => n⟩]⟩

/-- The fields of an assignment. -/
def setVariableLayout : Layout (String × String) :=
  ⟨Tag.setVariable.name, ("", ""),
    [textField "name" fun s v => (s, v.2), textField "value" fun s v => (v.1, s)]⟩

/-- The fields of a call. The timeout may be left out or null. -/
def dialLayout : Layout (String × Option UInt32) :=
  ⟨Tag.dial.name, ("", none),
    [textField "destination" fun s v => (s, v.2),
      ⟨"timeout", false, fun _ t => (t.readOption Tree.readUInt32).map fun n v => (v.1, n)⟩]⟩

/-- The fields of an application of any name. The arguments may be left out. -/
def customLayout : Layout (String × String) :=
  ⟨Tag.custom.name, ("", ""),
    [textField "application" fun s v => (s, v.2),
      ⟨"arguments", false, fun _ t => t.readText.map fun s v => (v.1, s)⟩]⟩

/-- Reads the fields of a kind from the members of an object. -/
def readFields (depth : Nat) (ms : List Member) (tag : Tag) : Except Failure Kind :=
  let one (name : String) := (textLayout tag name).readObject depth ms none
  let unit := (unitLayout tag).readObject depth ms none
  match tag with
  | .start => unit.map fun _ => .start
  | .answer => unit.map fun _ => .answer
  | .playback => (one "file").map .playback
  | .background => (one "file").map .background
  | .wait => (waitLayout.readObject depth ms none).map .wait
  | .setVariable => (setVariableLayout.readObject depth ms none).map fun v => .setVariable v.1 v.2
  | .dial => (dialLayout.readObject depth ms none).map fun v => .dial v.1 v.2
  | .queue => (one "name").map .queue
  | .custom => (customLayout.readObject depth ms none).map fun v => .custom v.1 v.2
  | .switch => (one "expression").map .switch
  | .timeSwitch => unit.map fun _ => .timeSwitch
  | .agiSwitch => (one "script").map .agiSwitch
  | .caseArm => (one "value").map .caseArm
  | .defaultArm => unit.map fun _ => .defaultArm

/-- Reads a kind from the members of an object: first the tag, then the fields of its kind. -/
def readMembers (depth : Nat) (ms : List Member) : Except Failure Kind := do
  match ← Tag.readMembers ms none with
  | some tag => readFields depth ms tag
  | none => .error (.mismatch (.missing Tag.key))

/-- The fields of a kind, as written. -/
def fields : Kind → List (String × Tree)
  | .start | .answer | .timeSwitch | .defaultArm => []
  | .playback file => [("file", .ofString file)]
  | .background file => [("file", .ofString file)]
  | .wait seconds => [("seconds", .ofInt seconds.toNat)]
  | .setVariable name value => [("name", .ofString name), ("value", .ofString value)]
  | .dial destination timeout =>
    [("destination", .ofString destination),
      ("timeout", .ofOption (fun n => .ofInt n.toNat) timeout)]
  | .queue name => [("name", .ofString name)]
  | .custom application arguments =>
    [("application", .ofString application), ("arguments", .ofString arguments)]
  | .switch expression => [("expression", .ofString expression)]
  | .agiSwitch script => [("script", .ofString script)]
  | .caseArm value => [("value", .ofString value)]

end Kind

namespace Block

/-- What is read of a block while its object lasts. -/
structure Draft where
  id : Option LocalId := none
  label : Option String := none
  /-- The other members, the last one first. -/
  kept : List Member := []

/-- Reads members one by one. -/
def readMembers (depth : Nat) : List Member → Draft → Except Failure Draft
  | [], d => .ok d
  | (k, t) :: ms, d => do
    let key ← Json.readPieces k
    if key = "local_id" then
      if d.id.isSome then .error (.mismatch (.duplicate key))
      else readMembers depth ms { d with id := some (← t.readInt32) }
    else if key = "label" then
      if d.label.isSome then .error (.mismatch (.duplicate key))
      else readMembers depth ms { d with label := some (← t.readText) }
    else
      t.check .read depth
      readMembers depth ms { d with kept := (k, t) :: d.kept }

/-- The block of a finished draft. -/
def ofDraft (depth : Nat) (d : Draft) : Except Failure Block :=
  match d.id with
  | none => .error (.mismatch (.missing "local_id"))
  | some id => do
    let kind ← Kind.readMembers depth d.kept.reverse
    .ok ⟨id, d.label.getD "", kind⟩

/-- Reads a block. -/
def read (depth : Nat) : Tree → Except Failure Block
  | .object members close => do
    let depth ← Json.descend depth
    let d ← readMembers depth members {}
    Json.checkClose .read close
    ofDraft depth d
  | t => t.refuse "struct Block"

/-- The tree of a block. -/
def tree (b : Block) : Tree :=
  .ofFields ([("local_id", .ofInt b.id.toInt), ("label", .ofString b.label),
    (Tag.key, .ofString b.kind.tag.name)] ++ b.kind.fields)

/-- The block of a document. -/
def decode (s : String) : Except Failure Block :=
  Json.decode read s

/-- The document of a block. -/
def encode (b : Block) : String :=
  b.tree.toText

end Block

end CallFlow
