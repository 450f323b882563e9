import CallFlow.Json.Failure
import CallFlow.Json.Tree

/-!
# Reading trees

What it takes to read a value of a given shape from a tree. Reading goes from front to back and ends
at the first failure. A value that is not wanted is checked only: it has to be well-formed, while a
value that is read must also be nested no deeper than the limit, hold no number beyond all doubles
and no lone half of a surrogate pair.
-/

namespace CallFlow.Json

/-- Whether a value is wanted. -/
inductive Mode where
  | read
  | skip
deriving DecidableEq, Repr

/-- How many arrays and objects may stand inside each other in what is read. -/
def depthLimit : Nat := 127

/-- The depth inside an array or an object that stands at a depth. -/
def descend (depth : Nat) : Except Failure Nat :=
  if depth < depthLimit then .ok (depth + 1) else .error .malformed

namespace Break

/-- What a break makes of the text. A number that is cut short is malformed to a reader who only
skips it. A text that is cut short is malformed to a reader who wants it if a half of a surrogate
pair is alone in what there is of it. -/
def failure : Mode → Break → Failure
  | _, .bad => .malformed
  | _, .ended => .truncated
  | .read, .cutNumber => .truncated
  | .skip, .cutNumber => .malformed
  | .read, .cutText ps => if Piece.joinable ps then .truncated else .malformed
  | .skip, .cutText _ => .truncated

end Break

/-- An array or an object is closed. -/
def checkClose (m : Mode) : Option Break → Except Failure Unit
  | none => .ok ()
  | some b => .error (b.failure m)

/-- The text that pieces stand for. -/
def readPieces (ps : List Piece) : Except Failure String :=
  match Piece.join ps with
  | some cs => .ok (String.ofList cs)
  | none => .error .malformed

/-- Pieces stand for a text, if it is wanted. -/
def checkPieces (m : Mode) (ps : List Piece) : Except Failure Unit :=
  match m with
  | .read => (readPieces ps).map fun _ => ()
  | .skip => .ok ()

/-- A number is no larger than every double, if it is wanted. -/
def checkNumber : Mode → Number → Except Failure Unit
  | .read, .huge => .error .malformed
  | _, _ => .ok ()

/-- The depth inside an array or an object. What is skipped has no limit. -/
def checkDepth (m : Mode) (depth : Nat) : Except Failure Nat :=
  match m with
  | .read => descend depth
  | .skip => .ok depth

namespace Tree

mutual

/-- A value is well-formed. -/
def check (m : Mode) (depth : Nat) : Tree → Except Failure Unit
  | .null => .ok ()
  | .bool _ => .ok ()
  | .number n => checkNumber m n
  | .text ps => checkPieces m ps
  | .array items close => do
    let depth ← checkDepth m depth
    checkItems m depth items
    checkClose m close
  | .object members close => do
    let depth ← checkDepth m depth
    checkMembers m depth members
    checkClose m close
  | .broken b => .error (b.failure m)

/-- The values of an array are well-formed. -/
def checkItems (m : Mode) (depth : Nat) : List Tree → Except Failure Unit
  | [] => .ok ()
  | t :: ts => do
    t.check m depth
    checkItems m depth ts

/-- The keys and values of an object are well-formed. -/
def checkMembers (m : Mode) (depth : Nat) : List (List Piece × Tree) → Except Failure Unit
  | [] => .ok ()
  | (k, t) :: ms => do
    checkPieces m k
    t.check m depth
    checkMembers m depth ms

end

/-- What a value is, to be named in a message. A number or a text is read to its end for that, an
array or an object is known from its bracket. -/
def found : Tree → Except Failure Found
  | .null => .ok .null
  | .bool b => .ok (.bool b)
  | .number (.integer n) => .ok (.integer n)
  | .number .float => .ok .float
  | .number .huge => .error .malformed
  | .text ps => (readPieces ps).map .text
  | .array _ _ => .ok .sequence
  | .object _ _ => .ok .map
  | .broken b => .error (b.failure .read)

/-- The value is not of the type that is expected. -/
def refuse {α : Type} (expected : String) (t : Tree) : Except Failure α := do
  let f ← t.found
  .error (.mismatch (.wrongType f expected))

/-- A text. -/
def readText : Tree → Except Failure String
  | .text ps => readPieces ps
  | t => t.refuse "a string"

/-- An integer between two bounds. -/
def readInteger (least greatest : Int) (expected : String) : Tree → Except Failure Int
  | .number (.integer n) =>
    if least ≤ n ∧ n ≤ greatest then .ok n else .error (.mismatch (.outOfRange n expected))
  | t => t.refuse expected

/-- A signed integer of 32 bits. -/
def readInt32 (t : Tree) : Except Failure Int32 :=
  (t.readInteger (-2147483648) 2147483647 "i32").map Int32.ofInt

/-- A signed integer of 64 bits. -/
def readInt64 (t : Tree) : Except Failure Int64 :=
  (t.readInteger (-9223372036854775808) 9223372036854775807 "i64").map Int64.ofInt

/-- An unsigned integer of 32 bits. -/
def readUInt32 (t : Tree) : Except Failure UInt32 :=
  (t.readInteger 0 4294967295 "u32").map fun n => UInt32.ofNat n.toNat

/-- A value that may be null. -/
def readOption {α : Type} (read : Tree → Except Failure α) : Tree → Except Failure (Option α)
  | .null => .ok none
  | t => (read t).map some

/-- An array of values of one shape. -/
def readList {α : Type} (read : Nat → Tree → Except Failure α) (depth : Nat) :
    Tree → Except Failure (List α)
  | .array items close => do
    let depth ← descend depth
    let values ← items.mapM (read depth)
    checkClose .read close
    .ok values
  | t => t.refuse "a sequence"

end Tree

/-- Reads a document: one value, with nothing but blanks around it. -/
def decode {α : Type} (read : Nat → Tree → Except Failure α) (s : String) : Except Failure α := do
  let b := Builder.run (lex s.toList)
  let value ← read 0 b.tree
  if b.trailing then .error .malformed else .ok value

end CallFlow.Json
