import CallFlow.Block

/-!
# Kinds by name

A document names the kind of a block by a tag, or gives the tag's place in the list of all tags.
-/

namespace CallFlow

/-- A kind without its fields. -/
inductive Tag where
  | start
  | answer
  | playback
  | background
  | wait
  | setVariable
  | dial
  | queue
  | custom
  | switch
  | timeSwitch
  | agiSwitch
  | caseArm
  | defaultArm
deriving DecidableEq, Repr

namespace Tag

/-- Every tag, in the order in which they are numbered. -/
def all : List Tag :=
  [start, answer, playback, background, wait, setVariable, dial, queue, custom, switch, timeSwitch,
    agiSwitch, caseArm, defaultArm]

/-- The name of a tag in a document. -/
def name : Tag → String
  | start => "Start"
  | answer => "Answer"
  | playback => "Playback"
  | background => "Background"
  | wait => "Wait"
  | setVariable => "SetVariable"
  | dial => "Dial"
  | queue => "Queue"
  | custom => "Custom"
  | switch => "Switch"
  | timeSwitch => "TimeSwitch"
  | agiSwitch => "AgiSwitch"
  | caseArm => "Case"
  | defaultArm => "FalseCase"

/-- The tag of a name. -/
def ofName? (s : String) : Option Tag :=
  all.find? (·.name = s)

/-- The tag of a number. -/
def ofIndex? (n : Nat) : Option Tag :=
  all[n]?

/-- A tag is found by its name. -/
@[simp] theorem ofName?_name (t : Tag) : ofName? t.name = some t := by
  cases t <;> rfl

end Tag

namespace Kind

/-- The tag of a kind. -/
def tag : Kind → Tag
  | .start => .start
  | .answer => .answer
  | .playback _ => .playback
  | .background _ => .background
  | .wait _ => .wait
  | .setVariable _ _ => .setVariable
  | .dial _ _ => .dial
  | .queue _ => .queue
  | .custom _ _ => .custom
  | .switch _ => .switch
  | .timeSwitch => .timeSwitch
  | .agiSwitch _ => .agiSwitch
  | .caseArm _ => .caseArm
  | .defaultArm => .defaultArm

end Kind

end CallFlow
