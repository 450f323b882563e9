import CallFlow.Json.Read

/-!
# Records

A `Layout` says how a record is written: as an object, whose members may come in any order, or as an
array of the fields in their order. Members with other keys are skipped. A field may be left out if
it has a default, in an array only behind all that are there.
-/

namespace CallFlow.Json

/-- A field of a record of type `σ`. Reading its value says how it changes the record. -/
structure FieldReader (σ : Type) where
  name : String
  required : Bool
  read : Nat → Tree → Except Failure (σ → σ)

/-- A kind of record. -/
structure Layout (σ : Type) where
  title : String
  /-- The record with every field at its default. -/
  blank : σ
  fields : List (FieldReader σ)

namespace Layout

variable {σ : Type} (l : Layout σ)

/-- The field of a name. -/
def field? (name : String) : Option (FieldReader σ) :=
  l.fields.find? (·.name = name)

/-- Reads members one by one into a record. `seen` holds the names of the fields that are read. -/
def readMembers (depth : Nat) : List Member → List String → σ → Except Failure (List String × σ)
  | [], seen, v => .ok (seen, v)
  | (k, t) :: ms, seen, v => do
    let key ← readPieces k
    match l.field? key with
    | none =>
      t.check .skip depth
      readMembers depth ms seen v
    | some f =>
      if key ∈ seen then .error (.mismatch (.duplicate key))
      else
        let update ← f.read depth t
        readMembers depth ms (key :: seen) (update v)

/-- No field that has to be there is missing. -/
def checkSeen (seen : List String) : Except Failure Unit :=
  match l.fields.find? fun f => f.required && f.name ∉ seen with
  | some f => .error (.mismatch (.missing f.name))
  | none => .ok ()

/-- Reads a record from the members of an object. -/
def readObject (depth : Nat) (members : List Member) (close : Option Break) : Except Failure σ := do
  let (seen, v) ← l.readMembers depth members [] l.blank
  checkClose .read close
  l.checkSeen seen
  .ok v

/-- Reads the values of an array into the fields, where `taken` values are read already. -/
def readItems (depth : Nat) (close : Option Break) :
    List (FieldReader σ) → List Tree → Nat → σ → Except Failure σ
  | [], [], _, v => do
    checkClose .read close
    .ok v
  | [], _ :: _, _, _ => .error .malformed
  | f :: fs, [], taken, v => do
    checkClose .read close
    if f.required then .error (.mismatch (.wrongLength taken l.title l.fields.length))
    else readItems depth close fs [] taken v
  | f :: fs, t :: ts, taken, v => do
    let update ← f.read depth t
    readItems depth close fs ts (taken + 1) (update v)

/-- Reads a record. -/
def read (depth : Nat) : Tree → Except Failure σ
  | .object members close => do
    let depth ← descend depth
    l.readObject depth members close
  | .array items close => do
    let depth ← descend depth
    l.readItems depth close l.fields items 0 l.blank
  | t => t.refuse ("struct " ++ l.title)

end Layout

end CallFlow.Json
