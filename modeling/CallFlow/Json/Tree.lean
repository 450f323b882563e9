import CallFlow.Json.Token

/-!
# Trees

A document as a tree of values. A document that stops making sense still has a tree, with a `Break`
at the place where it does: in place of a value, or in place of what should close an array or an
object. Whoever reads a tree from front to back therefore meets the faults of its text where a
reader of the text would meet them, and after everything that stands before them.

`Builder` builds the tree token by token. The arrays and objects that are still open wait on a stack
of frames.
-/

namespace CallFlow.Json

/-- A value, or what there is of it. An array and an object end in their closing bracket (`none`) or
in a break. -/
inductive Tree where
  | null
  | bool (b : Bool)
  | number (n : Number)
  | text (pieces : List Piece)
  | array (items : List Tree) (close : Option Break)
  | object (members : List (List Piece × Tree)) (close : Option Break)
  | broken (b : Break)
deriving Repr

/-- A key with its value. -/
abbrev Member := List Piece × Tree

/-- An array or an object that waits for one of its values, with what stands before that value, the
last first. -/
inductive Frame where
  | array (done : List Tree)
  | object (done : List Member) (key : List Piece)

namespace Frame

/-- The tree of a value together with everything that waits for it, all of it unfinished. -/
def plug (t : Tree) : List Frame → Tree
  | [] => t
  | .array done :: stack => plug (.array (t :: done).reverse (some .ended)) stack
  | .object done key :: stack => plug (.object ((key, t) :: done).reverse (some .ended)) stack

end Frame

/-- What may come next while a tree is built. -/
inductive Builder where
  /-- A value. -/
  | value (stack : List Frame)
  /-- The first value of an array, or the end of the array. -/
  | item (stack : List Frame)
  /-- A key of an object, or, before the first one, the end of the object. -/
  | key (first : Bool) (done : List Member) (stack : List Frame)
  /-- The colon behind a key. -/
  | colon (key : List Piece) (done : List Member) (stack : List Frame)
  /-- A comma in an array, or its end. -/
  | itemEnd (done : List Tree) (stack : List Frame)
  /-- A comma in an object, or its end. -/
  | memberEnd (done : List Member) (stack : List Frame)
  /-- Nothing; `trailing` says that something came all the same. -/
  | complete (tree : Tree) (trailing : Bool)

namespace Builder

/-- A value is there. -/
def deliver (t : Tree) : List Frame → Builder
  | [] => .complete t false
  | .array done :: stack => .itemEnd (t :: done) stack
  | .object done k :: stack => .memberEnd ((k, t) :: done) stack

/-- The tree ends in a break. -/
def abandon (t : Tree) (stack : List Frame) : Builder :=
  .complete (Frame.plug t stack) false

/-- A token where a value has to begin. -/
def begin (stack : List Frame) : Token → Builder
  | .openArray => .item stack
  | .openObject => .key true [] stack
  | .null => deliver .null stack
  | .bool b => deliver (.bool b) stack
  | .number n => deliver (.number n) stack
  | .text ps => deliver (.text ps) stack
  | .broken b => abandon (.broken b) stack
  | .closeArray | .closeObject | .comma | .colon => abandon (.broken .bad) stack

/-- A token where a key has to stand. -/
def beginKey (first : Bool) (done : List Member) (stack : List Frame) : Token → Builder
  | .text ps => .colon ps done stack
  | .closeObject =>
    if first then deliver (.object done.reverse none) stack
    else abandon (.object done.reverse (some .bad)) stack
  | .broken (.cutText ps) => abandon (.object done.reverse (some (.cutText ps))) stack
  | _ => abandon (.object done.reverse (some .bad)) stack

/-- Takes one token. -/
def step : Builder → Token → Builder
  | .value stack, t => begin stack t
  | .item stack, .closeArray => deliver (.array [] none) stack
  | .item stack, t => begin (.array [] :: stack) t
  | .key first done stack, t => beginKey first done stack t
  | .colon k done stack, .colon => .value (.object done k :: stack)
  | .colon k done stack, _ => abandon (.broken .bad) (.object done k :: stack)
  | .itemEnd done stack, .comma => .value (.array done :: stack)
  | .itemEnd done stack, .closeArray => deliver (.array done.reverse none) stack
  | .itemEnd done stack, _ => abandon (.array done.reverse (some .bad)) stack
  | .memberEnd done stack, .comma => .key false done stack
  | .memberEnd done stack, .closeObject => deliver (.object done.reverse none) stack
  | .memberEnd done stack, _ => abandon (.object done.reverse (some .bad)) stack
  | .complete t _, _ => .complete t true

/-- The tree when there are no more tokens. -/
def tree : Builder → Tree
  | .value stack => Frame.plug (.broken .ended) stack
  | .item stack => Frame.plug (.array [] (some .ended)) stack
  | .key _ done stack => Frame.plug (.object done.reverse (some .ended)) stack
  | .colon k done stack => Frame.plug (.broken .ended) (.object done k :: stack)
  | .itemEnd done stack => Frame.plug (.array done.reverse (some .ended)) stack
  | .memberEnd done stack => Frame.plug (.object done.reverse (some .ended)) stack
  | .complete t _ => t

/-- Something stood behind the value. -/
def trailing : Builder → Bool
  | .complete _ b => b
  | _ => false

/-- Takes all tokens of a document. -/
def run (ts : List Token) : Builder :=
  ts.foldl step (.value [])

end Builder

end CallFlow.Json
