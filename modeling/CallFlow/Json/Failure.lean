import CallFlow.Text.Shown

/-!
# Why a document is refused

A text can be refused because it is no JSON, because it ends too early, or because the JSON it holds
does not have the shape that was asked for. The last is a `Mismatch`, which has a message of its
own.
-/

namespace CallFlow.Json

/-- What stands where something else was expected. -/
inductive Found where
  | null
  | bool (b : Bool)
  | integer (n : Int)
  | float
  | text (s : String)
  | sequence
  | map
deriving DecidableEq, Repr

namespace Found

/-- What was found, in words. -/
def describe : Found → String
  | .null => "null"
  | .bool true => "boolean `true`"
  | .bool false => "boolean `false`"
  | .integer n => "integer `" ++ n.repr ++ "`"
  | .float => "floating point"
  | .text s => "string " ++ Text.shown s
  | .sequence => "sequence"
  | .map => "map"

end Found

/-- How well-formed JSON fails to have the shape that was asked for. -/
inductive Mismatch where
  | missing (field : String)
  | duplicate (field : String)
  | wrongType (found : Found) (expected : String)
  | outOfRange (value : Int) (expected : String)
  | unknownName (name : String) (known : List String)
  | wrongLength (length : Nat) (title : String) (fields : Nat)
  /-- A reason that a store gives in its own words. -/
  | other (reason : String)
deriving DecidableEq, Repr

namespace Mismatch

/-- The mismatch in words. -/
def message : Mismatch → String
  | .missing field => "missing field `" ++ field ++ "`"
  | .duplicate field => "duplicate field `" ++ field ++ "`"
  | .wrongType found expected => "invalid type: " ++ found.describe ++ ", expected " ++ expected
  | .outOfRange value expected =>
    "invalid value: integer `" ++ value.repr ++ "`, expected " ++ expected
  | .unknownName name known =>
    "unknown variant `" ++ name ++ "`, expected one of " ++
      ", ".intercalate (known.map fun k => "`" ++ k ++ "`")
  | .wrongLength length title fields =>
    "invalid length " ++ length.repr ++ ", expected struct " ++ title ++ " with " ++ fields.repr ++
      " elements"
  | .other reason => reason

end Mismatch

/-- Why a text is refused. -/
inductive Failure where
  /-- The text is no JSON. -/
  | malformed
  /-- The text ends before its value does. -/
  | truncated
  /-- The text is JSON of another shape. -/
  | mismatch (m : Mismatch)
deriving DecidableEq, Repr

namespace Failure

/-- The failure in words. -/
def message : Failure → String
  | .malformed => "the text is not well-formed"
  | .truncated => "the text ends too early"
  | .mismatch m => m.message

end Failure

end CallFlow.Json
