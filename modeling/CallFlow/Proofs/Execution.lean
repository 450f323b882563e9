import CallFlow.Line
import CallFlow.Proofs.Graph
import Mathlib.Logic.Function.Iterate

/-!
# Running a body and walking a script

What a call does is given twice. `Program.run` runs lines as a telephony server does, one at a time:
a header runs its application and falls through, a jump goes to the line that carries its label, a
hangup ends the call. `Script.call` follows the graph from block to block. Conditions are decided by
an oracle, which may look at all that happened before. Lines are `Arranged` for a script when behind
each header they go on to where the script goes on to; then the two ways agree
(`Arranged.headers_iff`, `Arranged.ended_iff`). A run is always bound for the block that the call
reaches next (`Bound`): a header takes both on, and any other line brings the run nearer.

A run reads labels off its lines, and a telephony server reads them off a text. They are the same:
a jump is written with the label that a run seeks at it (`Line.Names`, `Line.names_text_iff`), and a
line with the label by which a run finds it (`Program.step_by_text`).
-/

namespace CallFlow

/-- Something that happens in a call: a block runs its application, or a condition is decided. -/
inductive Act where
  | ran (block : Block)
  | decided (test : Test) (holds : Bool)
deriving DecidableEq, Repr

namespace Line

/-- The block that a line jumps to, on a condition or without one. -/
def target? : Line → Option Block
  | .jumpIf _ c | .jump c => some c
  | _ => none

end Line

/-- How a jump is written, and the label that it names: a jump without a condition, one on the value
of an expression, and one on the time. -/
inductive Line.Names : Line → String → String → Prop
  | goto {b : Block} {label : String} :
    Names (.jump b) label ("\tsame = n,Goto(" ++ label ++ ")\n")
  | gotoIf {expression value label : String} {b : Block} :
    Names (.jumpIf (.equal expression value) b) label
      ("\tsame = n,GotoIf($[\"" ++ expression ++ "\" = \"" ++ value ++ "\"]?" ++ label ++ ")\n")
  | gotoIfTime {span label : String} {b : Block} :
    Names (.jumpIf (.during span) b) label
      ("\tsame = n,GotoIfTime(" ++ span ++ "?" ++ label ++ ")\n")

namespace Act

/-- The header line that runs in an act. -/
def header? : Act → Option Line
  | .ran b => some (.header b)
  | .decided _ _ => none

end Act

/-- What decides the conditions of a call, given all that happened in it so far, the latest act
first. -/
abbrev Oracle := List Act → Test → Bool

/-- The header lines that ran, in order. -/
def headers (past : List Act) : List Line :=
  past.reverse.filterMap Act.header?

/-! ## Running lines -/

namespace Program

/-- Where a run is: before the first of the lines that are left, at its end after a hangup, or lost
because the lines ran out or a label was missing. -/
inductive Place where
  | before (rest : List Line)
  | ended
  | lost
deriving DecidableEq, Repr

/-- A run of lines so far. -/
structure Run where
  past : List Act
  place : Place
deriving DecidableEq, Repr

/-- The number of lines that a run has before it. -/
def Run.left (r : Run) : Nat :=
  match r.place with
  | .before ls => ls.length
  | .ended | .lost => 0

/-- The lines from the one that carries a label on. The empty label is carried by none. -/
def seek (label : String) : List Line → Option (List Line)
  | [] => none
  | l :: ls => if l.label = label ∧ label ≠ "" then some (l :: ls) else seek label ls

/-- Where a jump to a label goes. -/
def goto (p : List Line) (label : String) : Place :=
  match seek label p with
  | some ls => .before ls
  | none => .lost

/-- Runs one line. -/
def step (p : List Line) (o : Oracle) (r : Run) : Run :=
  match r.place with
  | .before (.header b :: ls) => ⟨.ran b :: r.past, .before ls⟩
  | .before (.jumpIf t c :: ls) =>
    if o r.past t then ⟨.decided t true :: r.past, goto p c.label⟩
    else ⟨.decided t false :: r.past, .before ls⟩
  | .before (.jump c :: _) => ⟨r.past, goto p c.label⟩
  | .before (.hangup :: _) => ⟨r.past, .ended⟩
  | .before [] => ⟨r.past, .lost⟩
  | .ended | .lost => r

/-- The run of lines from the first one on, after so many steps. -/
def run (p : List Line) (o : Oracle) (n : Nat) : Run :=
  (step p o)^[n] ⟨[], .before p⟩

/-- A run takes its steps one after the other. -/
theorem run_succ (p : List Line) (o : Oracle) (n : Nat) :
    run p o (n + 1) = step p o (run p o n) :=
  Function.iterate_succ_apply' _ _ _

end Program

/-! ## Walking the graph -/

/-- A call so far, and the block that it reaches next. Without one it has ended. -/
structure Call where
  past : List Act
  block : Option Block
deriving DecidableEq, Repr

/-- Takes the first case whose condition holds, and the default if none does. -/
def choose (o : Oracle) (test : String → Test) (default : Option Block) :
    List Act → List Block → Call
  | past, [] => ⟨past, default⟩
  | past, c :: cs =>
    if o past (test c.caseValue) then ⟨.decided (test c.caseValue) true :: past, some c⟩
    else choose o test default (.decided (test c.caseValue) false :: past) cs

namespace Script

/-- Where a call goes after a block: after a switch to the case that it chooses, and after any other
block along the first connection. -/
def leave (s : Script) (o : Oracle) (past : List Act) (b : Block) : Call :=
  match b.kind.test? with
  | some test =>
    choose o test ((s.arms b.id).find? Block.isDefault) past ((s.arms b.id).filter Block.isCase)
  | none => ⟨past, (s.targets b.id).head?.bind s.block?⟩

/-- Takes a call on by one block. -/
def advance (s : Script) (o : Oracle) (c : Call) : Call :=
  match c.block with
  | some b => s.leave o (.ran b :: c.past) b
  | none => c

/-- The call from where it enters the script on, after so many blocks. -/
def call (s : Script) (o : Oracle) (n : Nat) : Call :=
  (s.advance o)^[n] ⟨[], s.start?⟩

/-- A call goes on by one block after the other. -/
theorem call_succ (s : Script) (o : Oracle) (n : Nat) :
    s.call o (n + 1) = s.advance o (s.call o n) :=
  Function.iterate_succ_apply' _ _ _

end Script

/-! ## Where lines go on to -/

/-- The call that lines go on to: what happens in it before the next header or the end, and the
block of that header. -/
def ahead (o : Oracle) : List Act → List Line → Option Call
  | past, .header b :: _ => some ⟨past, some b⟩
  | past, .jumpIf t c :: ls =>
    if o past t then some ⟨.decided t true :: past, some c⟩
    else ahead o (.decided t false :: past) ls
  | past, .jump c :: _ => some ⟨past, some c⟩
  | past, .hangup :: _ => some ⟨past, none⟩
  | _, [] => none

/-- Lines that are arranged for a script: they begin with its start block, behind each header they
go on to where the script goes on to, and the label of each jump leads to the header of its block.
-/
structure Arranged (s : Script) (p : List Line) : Prop where
  start : ∃ b ls, s.start? = some b ∧ p = .header b :: ls
  leave : ∀ b ls, .header b :: ls <:+ p → ∀ o past, ahead o past ls = some (s.leave o past b)
  jump : ∀ l ∈ p, ∀ c, l.target? = some c → ∃ ls, Program.seek c.label p = some (.header c :: ls)

/-- A run is bound for a call when the lines that are left to it go on to that call. -/
def Bound (p : List Line) (o : Oracle) (r : Program.Run) (c : Call) : Prop :=
  match r.place with
  | .before ls => ls <:+ p ∧ ahead o r.past ls = some c
  | .ended => c = ⟨r.past, none⟩
  | .lost => False

/-- A run has arrived at a call when it stands before the header of the call's next block, or when
both have ended. -/
inductive Arrived (p : List Line) : Program.Run → Call → Prop
  | header : .header b :: ls <:+ p → Arrived p ⟨past, .before (.header b :: ls)⟩ ⟨past, some b⟩
  | ended : Arrived p ⟨past, .ended⟩ ⟨past, none⟩

section
variable {s : Script} {p ls : List Line} {o : Oracle} {r : Program.Run} {c : Call} {b : Block}
  {past : List Act} {l : Line} {label : String} {host : Option String}

/-- Lines up to the next header run no header. -/
theorem headers_of_ahead (h : ahead o past ls = some c) : headers c.past = headers past := by
  fun_induction ahead o past ls with
  | case1 | case4 | case5 => cases h; rfl
  | case2 => cases h; simp [headers, Act.header?]
  | case3 _ _ _ _ _ ih => rw [ih h]; simp [headers, Act.header?]
  | case6 => cases h

/-- What is sought is the rest of the lines. -/
theorem Program.suffix_of_seek {label : String} (h : seek label p = some ls) : ls <:+ p := by
  induction p with
  | nil => cases h
  | cons l p ih =>
    unfold seek at h
    split at h
    · cases h
      exact List.suffix_rfl
    · exact (ih h).trans (List.suffix_cons l p)

/-! ## Labels as they are written -/

/-- A line that carries a label is written with it. -/
theorem Line.text_of_label (h : l.label ≠ "") : l.text host =
    "\tsame = n(" ++ l.label ++ ")," ++ (l.application host).text ++ "\n" := by
  have hlabel : l.label.isEmpty = false := by simpa using h
  have hfront : "\tsame = n(" = "\tsame = " ++ "n(" := by decide
  have hback : ")," = ")" ++ "," := by decide
  rw [text, priority, hlabel, hfront, hback]
  simp only [Bool.false_eq_true, if_false, String.append_assoc]

/-- A line that carries no label is written without one. -/
theorem Line.text_of_label_eq_empty (h : l.label = "") : l.text host =
    "\tsame = n," ++ (l.application host).text ++ "\n" := by
  rw [text, h]
  rfl

/-- A jump is written with the label of the block that it goes to. -/
theorem Line.names_text (h : l.target? = some b) : l.Names b.label (l.text host) := by
  have hback : ")\n" = ")" ++ "\n" := by decide
  cases l with
  | header | hangup => cases h
  | jump c =>
    cases h
    have hfront : "\tsame = n,Goto(" = "\tsame = n," ++ ("Goto" ++ "(") := by decide
    refine Eq.mpr (congrArg _ ?_) Names.goto
    rw [text_of_label_eq_empty rfl, hfront, hback]
    simp only [application, Application.text, String.append_assoc]
  | jumpIf test c =>
    cases h
    cases test with
    | equal expression value =>
      have hfront : "\tsame = n,GotoIf($[\"" = "\tsame = n," ++ ("GotoIf" ++ ("(" ++ "$[\"")) := by
        decide
      have hmiddle : "\"]?" = "\"]" ++ "?" := by decide
      refine Eq.mpr (congrArg _ ?_) Names.gotoIf
      rw [text_of_label_eq_empty rfl, hfront, hmiddle, hback]
      simp only [application, Application.text, Test.jumper, Test.text, String.append_assoc]
    | during span =>
      have hfront : "\tsame = n,GotoIfTime(" = "\tsame = n," ++ ("GotoIfTime" ++ "(") := by decide
      refine Eq.mpr (congrArg _ ?_) Names.gotoIfTime
      rw [text_of_label_eq_empty rfl, hfront, hback]
      simp only [application, Application.text, Test.jumper, Test.text, String.append_assoc]

/-- The text of a jump names one label only. -/
theorem Line.Names.label_eq {label' text : String} (h : l.Names label text)
    (h' : l.Names label' text) : label = label' := by
  generalize htext : text = text' at h'
  cases h with
  | goto =>
    cases h' with
    | goto => simpa using htext
  | gotoIf =>
    cases h' with
    | gotoIf => simpa using htext
  | gotoIfTime =>
    cases h' with
    | gotoIfTime => simpa using htext

/-- A line is written as a jump to a label exactly if it goes to a block of that label. -/
theorem Line.names_text_iff :
    l.Names label (l.text host) ↔ ∃ b, l.target? = some b ∧ b.label = label := by
  constructor
  · intro h
    obtain ⟨b, hb⟩ : ∃ b, l.target? = some b := by
      generalize l.text host = text at h
      cases h <;> exact ⟨_, rfl⟩
    exact ⟨b, hb, (names_text hb).label_eq h⟩
  · rintro ⟨b, hb, rfl⟩
    exact names_text hb

/-- The first of the lines that are sought carries the label. -/
theorem Program.label_of_seek (h : seek label p = some ls) :
    label ≠ "" ∧ ∃ l rest, ls = l :: rest ∧ l.label = label := by
  induction p with
  | nil => cases h
  | cons l p ih =>
    unfold seek at h
    split at h
    next hl =>
      cases h
      exact ⟨hl.2, l, p, rfl, hl.1⟩
    · exact ih h

/-- **Runs go by what is written.** A run that takes a jump seeks the label that the jump is written
with, and a line that it finds there is written with this label. -/
theorem Program.step_by_text (h : l.Names label (l.text host))
    (htaken : ∀ test c, l = .jumpIf test c → o past test = true) :
    (step p o ⟨past, .before (l :: ls)⟩).place = goto p label ∧
      ∀ found, goto p label = .before found → ∃ l' rest, found = l' :: rest ∧
        l'.text host = "\tsame = n(" ++ label ++ ")," ++ (l'.application host).text ++ "\n" := by
  obtain ⟨b, hb, rfl⟩ := Line.names_text_iff.1 h
  constructor
  · cases l with
    | header | hangup => cases hb
    | jump c =>
      cases hb
      rfl
    | jumpIf test c =>
      cases hb
      simp only [step, if_pos (htaken test b rfl)]
  · intro found hfound
    unfold goto at hfound
    split at hfound
    next hseek =>
      cases hfound
      obtain ⟨hne, l', rest, rfl, hlabel⟩ := label_of_seek hseek
      rw [← hlabel] at hne ⊢
      exact ⟨l', rest, rfl, Line.text_of_label hne⟩
    · cases hfound

/-- A run has run the same headers as the call that it is bound for. -/
theorem Bound.headers_eq (h : Bound p o r c) : headers c.past = headers r.past := by
  obtain ⟨past, ls | _ | _⟩ := r
  · exact headers_of_ahead h.2
  · obtain rfl : c = ⟨past, none⟩ := h
    rfl
  · exact h.elim

/-- A jump whose label leads to its block arrives there. -/
theorem Arrived.goto (h : Program.seek b.label p = some (.header b :: ls)) :
    Arrived p ⟨past, Program.goto p b.label⟩ ⟨past, some b⟩ := by
  have hs := Program.suffix_of_seek h
  rw [Program.goto, h]
  exact .header hs

/-- A run that has arrived at a call is bound for it. -/
theorem Arrived.bound (h : Arrived p r c) : Bound p o r c := by
  cases h with
  | header h => exact ⟨h, rfl⟩
  | ended => rfl

/-- The same has happened in a run and in a call that it has arrived at. -/
theorem Arrived.past_eq (h : Arrived p r c) : r.past = c.past := by
  cases h <;> rfl

/-- A run that has arrived at a call takes it on with its next step. -/
theorem Arrived.step (ha : Arranged s p) (h : Arrived p r c) :
    Bound p o (Program.step p o r) (s.advance o c) := by
  cases h with
  | header h => exact ⟨(List.suffix_cons _ _).trans h, ha.leave _ _ h o _⟩
  | ended => rfl

/-- A run that is bound for a call has arrived there, or it arrives with its next step, or it is
bound for the call still and has fewer lines to go. -/
theorem Bound.step (ha : Arranged s p) (h : Bound p o r c) :
    Arrived p r c ∨ Arrived p (Program.step p o r) c ∨
      Bound p o (Program.step p o r) c ∧ (Program.step p o r).left < r.left := by
  obtain ⟨past, ls | _ | _⟩ := r
  · obtain ⟨hs, hc⟩ := h
    obtain _ | ⟨l, ls⟩ := ls
    · cases hc
    have hmem : l ∈ p := hs.subset List.mem_cons_self
    cases l with
    | header b =>
      cases hc
      exact .inl (.header hs)
    | jumpIf t b =>
      unfold ahead at hc
      unfold Program.step
      dsimp only
      split at hc
      · cases hc
        obtain ⟨ls, hseek⟩ := ha.jump _ hmem b rfl
        rw [if_pos ‹_›]
        exact .inr (.inl (.goto hseek))
      · rw [if_neg ‹_›]
        exact .inr (.inr ⟨⟨(List.suffix_cons _ _).trans hs, hc⟩, Nat.lt_succ_self _⟩)
    | jump b =>
      cases hc
      obtain ⟨ls, hseek⟩ := ha.jump _ hmem b rfl
      exact .inr (.inl (.goto hseek))
    | hangup =>
      cases hc
      exact .inr (.inl .ended)
  · obtain rfl : c = ⟨past, none⟩ := h
    exact .inl .ended
  · exact h.elim

/-- A run that is bound for a call arrives there. -/
theorem Bound.exists_arrived (ha : Arranged s p) (h : Bound p o r c) :
    ∃ j, Arrived p ((Program.step p o)^[j] r) c := by
  -- A run that neither has arrived nor arrives has fewer lines to go.
  induction hn : r.left using Nat.strongRecOn generalizing r with
  | _ n ih =>
    rcases h.step ha with h | h | ⟨h, hlt⟩
    · exact ⟨0, h⟩
    · exact ⟨1, h⟩
    · obtain ⟨j, hj⟩ := ih _ (hn ▸ hlt) h rfl
      exact ⟨j + 1, hj⟩

/-- Lines that are arranged for a script begin where its calls do. -/
theorem Arranged.bound_zero (ha : Arranged s p) : Bound p o (Program.run p o 0) (s.call o 0) := by
  obtain ⟨b, ls, hb, rfl⟩ := ha.start
  refine ⟨List.suffix_rfl, ?_⟩
  rw [Script.call, Function.iterate_zero_apply, hb]
  rfl

/-- At every step a run is bound for the call after some number of blocks. -/
theorem Arranged.exists_call (ha : Arranged s p) (o : Oracle) (k : Nat) :
    ∃ n, Bound p o (Program.run p o k) (s.call o n) := by
  induction k with
  | zero => exact ⟨0, ha.bound_zero⟩
  | succ k ih =>
    obtain ⟨n, hn⟩ := ih
    rw [Program.run_succ]
    rcases hn.step ha with h | h | ⟨h, -⟩
    · refine ⟨n + 1, ?_⟩
      rw [Script.call_succ]
      exact h.step ha
    · exact ⟨n, h.bound⟩
    · exact ⟨n, h⟩

/-- What a run is bound for at some step it arrives at with a later one. -/
theorem Bound.exists_run {k : Nat} (ha : Arranged s p) (h : Bound p o (Program.run p o k) c) :
    ∃ k, Arrived p (Program.run p o k) c := by
  obtain ⟨j, hj⟩ := h.exists_arrived ha
  refine ⟨j + k, ?_⟩
  rwa [Program.run, Function.iterate_add_apply]

/-- For every number of blocks a run arrives at the call after that many. -/
theorem Arranged.exists_run (ha : Arranged s p) (o : Oracle) (n : Nat) :
    ∃ k, Arrived p (Program.run p o k) (s.call o n) := by
  induction n with
  | zero => exact ha.bound_zero.exists_run ha
  | succ n ih =>
    obtain ⟨k, hk⟩ := ih
    have hstep : Bound p o (Program.run p o (k + 1)) (s.call o (n + 1)) := by
      rw [Program.run_succ, Script.call_succ]
      exact hk.step ha
    exact hstep.exists_run ha

/-- A run and a call run the same headers: what either has run at some time, the other has too. -/
theorem Arranged.headers_iff (ha : Arranged s p) (o : Oracle) (ls : List Line) :
    (∃ k, headers (Program.run p o k).past = ls) ↔ ∃ n, headers (s.call o n).past = ls := by
  constructor
  · rintro ⟨k, rfl⟩
    obtain ⟨n, hn⟩ := ha.exists_call o k
    exact ⟨n, hn.headers_eq⟩
  · rintro ⟨n, rfl⟩
    obtain ⟨k, hk⟩ := ha.exists_run o n
    exact ⟨k, by rw [hk.past_eq]⟩

/-- A run has ended exactly when the call has, with the same headers behind it. -/
theorem Arranged.ended_iff (ha : Arranged s p) (o : Oracle) (ls : List Line) :
    (∃ k, (Program.run p o k).place = .ended ∧ headers (Program.run p o k).past = ls) ↔
      ∃ n, (s.call o n).block = none ∧ headers (s.call o n).past = ls := by
  constructor
  · rintro ⟨k, hended, rfl⟩
    obtain ⟨n, hn⟩ := ha.exists_call o k
    refine ⟨n, ?_, hn.headers_eq⟩
    unfold Bound at hn
    rw [hended] at hn
    rw [hn]
  · rintro ⟨n, hnone, rfl⟩
    obtain ⟨k, hk⟩ := ha.exists_run o n
    refine ⟨k, ?_, by rw [hk.past_eq]⟩
    generalize Program.run p o k = r at hk
    generalize s.call o n = c at hk hnone
    cases hk with
    | header => cases hnone
    | ended => rfl

/-- A run is never lost. -/
theorem Arranged.not_lost (ha : Arranged s p) (o : Oracle) (k : Nat) :
    (Program.run p o k).place ≠ .lost := by
  intro hlost
  obtain ⟨n, hn⟩ := ha.exists_call o k
  unfold Bound at hn
  rw [hlost] at hn
  exact hn

end

end CallFlow
