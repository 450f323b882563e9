import CallFlow.Block

/-!
# Lines

A body is a list of lines. A block has one header line, which runs its application; a switch also
has one conditional jump for each of its cases. A jump and a hangup end a run of lines. Lines that
jump hold the block they jump to, and their text names that block by its label.
-/

namespace CallFlow

/-- What a conditional jump tests: that an expression has a value, or that the time lies in a
span. -/
inductive Test where
  | equal (expression value : String)
  | during (span : String)
deriving DecidableEq, Repr

/-- One line of a body. -/
inductive Line where
  | header (block : Block)
  | jumpIf (test : Test) (target : Block)
  | jump (target : Block)
  | hangup
deriving DecidableEq, Repr

/-- An application of the telephony server with its arguments. -/
structure Application where
  name : String
  arguments : String
deriving DecidableEq, Repr

namespace Application

/-- The arguments stand in parentheses behind the name. -/
def text (a : Application) : String :=
  a.name ++ "(" ++ a.arguments ++ ")"

end Application

namespace Kind

/-- The variable in which an AGI script leaves its answer. -/
def agiResult : String := "$\x7bAGI_RESULT\x7d"

/-- Where an AGI script is found. Without a host its name alone is given. -/
def agiAddress (host : Option String) (script : String) : String :=
  match host with
  | some h => "agi://" ++ h ++ "/" ++ script
  | none => script

/-- The application that a block runs. The host is named by AGI switches only. -/
def application (host : Option String) : Kind → Application
  | .start => ⟨"NoOp", "Start"⟩
  | .answer => ⟨"Answer", ""⟩
  | .playback file => ⟨"Playback", file⟩
  | .background file => ⟨"Background", file⟩
  | .wait seconds => ⟨"Wait", seconds.toNat.repr⟩
  | .setVariable name value => ⟨"Set", name ++ "=" ++ value⟩
  | .dial destination none => ⟨"Dial", destination⟩
  | .dial destination (some timeout) => ⟨"Dial", destination ++ "," ++ timeout.toNat.repr⟩
  | .queue name => ⟨"Queue", name⟩
  | .custom application arguments => ⟨application, arguments⟩
  | .switch expression => ⟨"NoOp", "Switch " ++ expression⟩
  | .timeSwitch => ⟨"NoOp", "TimeSwitch"⟩
  | .agiSwitch script => ⟨"AGI", agiAddress host script⟩
  | .caseArm value => ⟨"NoOp", "Case " ++ value⟩
  | .defaultArm => ⟨"NoOp", "Default"⟩

/-- How a switch tests for a case's value. Other kinds test nothing. -/
def test? : Kind → Option (String → Test)
  | .switch expression => some (.equal expression)
  | .timeSwitch => some .during
  | .agiSwitch _ => some (.equal agiResult)
  | _ => none

end Kind

namespace Test

/-- The application that jumps on the test, without the place it jumps to. -/
def jumper : Test → String
  | .equal _ _ => "GotoIf"
  | .during _ => "GotoIfTime"

/-- The condition as an argument of its jump. -/
def text : Test → String
  | .equal expression value => "$[\"" ++ expression ++ "\" = \"" ++ value ++ "\"]"
  | .during span => span

end Test

namespace Line

/-- The label that the line carries. Only a header has one. -/
def label : Line → String
  | .header b => b.label
  | _ => ""

/-- The application that the line runs. -/
def application (host : Option String) : Line → Application
  | .header b => b.kind.application host
  | .jumpIf t b => ⟨t.jumper, t.text ++ "?" ++ b.label⟩
  | .jump b => ⟨"Goto", b.label⟩
  | .hangup => ⟨"Hangup", ""⟩

/-- A line follows the one before it; a label stands in parentheses, and no label leaves none. -/
def priority (label : String) : String :=
  if label.isEmpty then "n" else "n(" ++ label ++ ")"

/-- The text of a line, its newline included. -/
def text (host : Option String) (l : Line) : String :=
  "\tsame = " ++ priority l.label ++ "," ++ (l.application host).text ++ "\n"

/-- The text of a list of lines. -/
def textAll (host : Option String) (ls : List Line) : String :=
  String.join (ls.map (text host))

end Line

namespace Block

/-- The lines of a block: its header, and for a switch one conditional jump for each case. -/
def lines (b : Block) (cases : List Block) : List Line :=
  .header b :: match b.kind.test? with
    | some test => cases.map fun c => .jumpIf (test c.caseValue) c
    | none => []

/-- The text of a block's lines. -/
def render (b : Block) (cases : List Block) (host : Option String) : String :=
  Line.textAll host (b.lines cases)

/-- The switches are the blocks that test for cases. -/
theorem isSwitch_eq_isSome_test? (b : Block) : b.isSwitch = b.kind.test?.isSome := by
  cases hk : b.kind <;> simp [isSwitch, Kind.test?, hk]

/-- A block that is no switch has one line, whatever cases it is given. -/
theorem lines_of_not_isSwitch {b : Block} (h : b.isSwitch = false) (cases : List Block) :
    b.lines cases = [.header b] := by
  cases hk : b.kind.test? with
  | none => simp [lines, hk]
  | some t => simp [isSwitch_eq_isSome_test?, hk] at h

end Block

end CallFlow
