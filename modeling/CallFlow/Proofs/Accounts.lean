import CallFlow.Proofs.Layout
import CallFlow.Proofs.Rows
import Mathlib.Algebra.BigOperators.Group.Finset.Piecewise
import Mathlib.Algebra.GroupWithZero.Nat

/-!
# What a body adds up to

How many lines of each sort a body has can be told from the graph. Each count is kept in balance by
the walk: an `Account` says what an item adds to it, what a task still owes to it, and what a
rendered block earns for it, and one step of the walk changes both sides alike. So over a walk
without a fault the items add up to what the tasks owed and the rendered blocks earned
(`Walked.balanced`). Five accounts give all the counts: branches taken up, branches ended, switches,
hangups and conditional jumps.
-/

namespace CallFlow

namespace Item

/-- A branch is taken up. -/
def isEnter : Item → Bool
  | .enter _ => true
  | _ => false

/-- A switch is rendered. -/
def isFork : Item → Bool
  | .fork _ _ _ => true
  | _ => false

end Item

namespace Event

/-- The event of a branch that is taken up. -/
def isBranch : Event → Bool
  | .branch _ _ => true
  | _ => false

/-- The event of a switch whose branches are known. -/
def isResolved : Event → Bool
  | .resolved _ _ _ => true
  | _ => false

end Event

namespace Line

/-- A jump without a condition. -/
def isJump : Line → Bool
  | .jump _ => true
  | _ => false

/-- A jump with a condition. -/
def isJumpIf : Line → Bool
  | .jumpIf _ _ => true
  | _ => false

/-- A hangup. -/
def isHangup : Line → Bool
  | .hangup => true
  | _ => false

end Line

namespace Script

/-- The id is that of a switch, on a walk from `entry`. -/
def forksAt (s : Script) (entry : Block) (i : LocalId) : Bool :=
  (s.blockFrom entry i).any Block.isSwitch

/-- The id is that of a block that is no switch and has no connections, on a walk from `entry`. -/
def endsAt (s : Script) (entry : Block) (i : LocalId) : Bool :=
  (s.blockFrom entry i).any (fun b => !b.isSwitch) && (s.targets i).isEmpty

/-- The number of connections out of an id that lead to cases. -/
def caseCount (s : Script) (i : LocalId) : Nat :=
  (s.targets i).countP fun j => (s.block? j).any Block.isCase

end Script

/-- A count that a walk keeps in balance: what an item adds to it, what a branch owes to it before
and after it is taken up, and what a block earns for it when it is rendered. -/
structure Account (s : Script) where
  item : Item → Nat
  entering : Nat
  visiting : Nat
  block : Block → Nat
  enter : ∀ b, item (.enter b) + visiting = entering
  rejoin : ∀ b, item (.rejoin b) = visiting
  fork : ∀ b cs d, b.isSwitch = true → cs.length = s.caseCount b.id →
    item (.fork b cs d) + (cs.length + 1) * entering = visiting + block b
  finish : ∀ b, b.isSwitch = false → (s.targets b.id).isEmpty = true →
    item (.plain b) + item .finish = visiting + block b
  next : ∀ b, b.isSwitch = false → (s.targets b.id).isEmpty = false → item (.plain b) = block b

/-- What a task owes to an account. -/
def Account.task {s : Script} (a : Account s) : Task → Nat
  | .enter _ => a.entering
  | .visit _ => a.visiting

section
variable {s : Script} {entry b : Block} {fresh : List LocalId} {tasks : List Task} {t : Trace}
  {items : List Item} {host text : String}

/-! ## Balance -/

/-- A switch has as many cases as connections that lead to cases. -/
theorem Script.length_cases {cs : List Block} {d : Block} (h : s.branches b = .ok (cs, d)) :
    cs.length = s.caseCount b.id := by
  obtain ⟨-, rfl, -, -⟩ := branches_eq_ok.1 h
  rw [arms, caseCount, ← List.countP_eq_length_filter, List.countP_filterMap]
  congr 1
  funext j
  cases s.block? j <;> rfl

/-- An expansion adds as much as it pays off and earns. -/
theorem Account.expand (a : Account s) (h : s.expand b = (items, .ok tasks)) :
    (items.map a.item).sum + (tasks.map a.task).sum = a.visiting + a.block b := by
  rcases Script.expand_ok_cases h with
    ⟨cs, d, hsw, hs, rfl, rfl⟩ | ⟨hsw, hn, rfl, rfl⟩ | ⟨c, hsw, hn, rfl, rfl⟩
  · have htasks : ((Task.enter d :: cs.reverse.map .enter).map a.task).sum =
        (cs.length + 1) * a.entering := by
      simp [task, Function.comp_def, Nat.add_mul, Nat.add_comm]
    rw [htasks, List.map_singleton, List.sum_singleton, a.fork b cs d hsw (Script.length_cases hs)]
  · have hnone : (s.targets b.id).isEmpty = true := by
      simpa using Script.next_eq_ok_none.1 hn
    simpa using a.finish b hsw hnone
  · have hsome : (s.targets b.id).isEmpty = false := by
      have hhead := (Script.next_eq_ok_some.1 hn).1
      cases htargets : s.targets b.id with
      | nil => simp [htargets] at hhead
      | cons _ _ => rfl
    simp [task, a.next b hsw hsome, Nat.add_comm]

/-- Over a walk without a fault the items add up to what the tasks owe and the blocks earn. -/
theorem Walked.balanced (a : Account s) (h : Walked s fresh tasks t) (hf : t.fault = none) :
    (t.items.map a.item).sum = (tasks.map a.task).sum + (t.rendered.map a.block).sum := by
  -- Each rule of the walk is balanced by one law of the account, and expanding by three.
  induction h with
  | nil => rfl
  | @enter _ b rest t _ ih =>
    have ih := ih hf
    have henter := a.enter b
    change (a.item (.enter b) :: t.items.map a.item).sum = _ + (t.rendered.map a.block).sum
    simp only [List.map_cons, List.sum_cons, Account.task] at ih ⊢
    omega
  | @rejoin _ _ t b _ _ ih =>
    have ih := ih hf
    have hrejoin := a.rejoin b
    change (a.item (.rejoin b) :: t.items.map a.item).sum = _ + (t.rendered.map a.block).sum
    simp only [List.map_cons, List.sum_cons, Account.task] at ih ⊢
    omega
  | stop => cases hf
  | go _ he _ ih =>
    have ih := ih hf
    have hexpand := a.expand he
    rw [Script.rendered_prepend he, Trace.items_prepend]
    simp only [List.map_cons, List.map_append, List.sum_cons, List.sum_append, Account.task] at ih ⊢
    omega

/-- What the blocks of a body earn is the sum over the ids that it renders. -/
theorem Script.sum_rendered (s : Script) (entry : Block) (earn : Block → Nat) :
    ((s.walk entry).rendered.map earn).sum =
      ∑ i ∈ (s.walk entry).done.toFinset, (s.blockFrom entry i).elim 0 earn := by
  have hw := s.walked_walk entry
  rw [List.sum_toFinset _ hw.nodup_done.1, Trace.done, List.map_map]
  congr 1
  refine List.map_congr_left fun b hb => ?_
  have hb : s.blockFrom entry b.id = some b := (hw.rendered_sound sourced_entry b hb).1
  rw [Function.comp_apply, hb]
  rfl

/-- Over a body without a fault the items add up to what the entry owes and the rendered ids earn.
-/
theorem Account.sum_walk (a : Account s) (hf : (s.walk entry).fault = none) :
    ((s.walk entry).items.map a.item).sum = a.entering +
      ∑ i ∈ (s.walk entry).done.toFinset, (s.blockFrom entry i).elim 0 a.block := by
  rw [(s.walked_walk entry).balanced a hf, s.sum_rendered entry]
  rfl

/-! ## Lines of a block -/

/-- A switch has a conditional jump for each case, and neither jumps nor hangs up otherwise. -/
theorem Block.countP_lines (h : b.isSwitch = true) (cs : List Block) :
    (b.lines cs).countP Line.isJumpIf = cs.length ∧ (b.lines cs).countP Line.isJump = 0 ∧
      (b.lines cs).countP Line.isHangup = 0 := by
  obtain ⟨test, -, hlines⟩ := exists_test_of_isSwitch h
  rw [hlines]
  simp [List.countP_map, Function.comp_def, Line.isJumpIf, Line.isJump, Line.isHangup]

/-- A block that is no switch neither jumps nor hangs up. -/
theorem Block.countP_lines_of_not_isSwitch (h : b.isSwitch = false) (cs : List Block) :
    (b.lines cs).countP Line.isJumpIf = 0 ∧ (b.lines cs).countP Line.isJump = 0 ∧
      (b.lines cs).countP Line.isHangup = 0 := by
  rw [lines_of_not_isSwitch h]
  simp [Line.isJumpIf, Line.isJump, Line.isHangup]

/-! ## Accounts -/

namespace Account

/-- Counts the branches that are taken up. A switch leaves its default and its cases to take up. -/
def pops (s : Script) : Account s where
  item i := if i.isEnter then 1 else 0
  entering := 1
  visiting := 0
  block b := if b.isSwitch then s.caseCount b.id + 1 else 0
  enter _ := rfl
  rejoin _ := rfl
  fork b cs d hsw hcs := by simp [Item.isEnter, hsw, hcs]
  finish b hsw _ := by simp [Item.isEnter, hsw]
  next b hsw _ := by simp [Item.isEnter, hsw]

/-- Counts the ends of branches: jumps without a condition, hangups and switches. A branch owes an
end from the beginning. -/
def ends (s : Script) : Account s where
  item i := i.lines.countP Line.isJump + i.lines.countP Line.isHangup + if i.isFork then 1 else 0
  entering := 1
  visiting := 1
  block b := if b.isSwitch then s.caseCount b.id + 1 else 0
  enter _ := rfl
  rejoin _ := rfl
  fork b cs d hsw hcs := by
    obtain ⟨-, hjump, hhangup⟩ := b.countP_lines hsw cs
    simp [Item.lines, Item.isFork, hjump, hhangup, hsw, hcs]
  finish b hsw _ := by
    obtain ⟨-, hjump, hhangup⟩ := b.countP_lines_of_not_isSwitch hsw []
    simp [Item.lines, Item.isFork, hjump, hhangup, hsw, Line.isJump, Line.isHangup]
  next b hsw _ := by
    obtain ⟨-, hjump, hhangup⟩ := b.countP_lines_of_not_isSwitch hsw []
    simp [Item.lines, Item.isFork, hjump, hhangup, hsw]

/-- Counts the switches. -/
def switches (s : Script) : Account s where
  item i := if i.isFork then 1 else 0
  entering := 0
  visiting := 0
  block b := if b.isSwitch then 1 else 0
  enter _ := rfl
  rejoin _ := rfl
  fork b cs d hsw _ := by simp [Item.isFork, hsw]
  finish b hsw _ := by simp [Item.isFork, hsw]
  next b hsw _ := by simp [Item.isFork, hsw]

/-- Counts the hangups. A block that leads nowhere earns one. -/
def hangups (s : Script) : Account s where
  item i := i.lines.countP Line.isHangup
  entering := 0
  visiting := 0
  block b := if !b.isSwitch && (s.targets b.id).isEmpty then 1 else 0
  enter _ := rfl
  rejoin _ := rfl
  fork b cs d hsw _ := by simp [Item.lines, (b.countP_lines hsw cs).2.2, hsw]
  finish b hsw hnone := by
    simp [Item.lines, (b.countP_lines_of_not_isSwitch hsw []).2.2, hsw, hnone, Line.isHangup]
  next b hsw hsome := by
    simp [Item.lines, (b.countP_lines_of_not_isSwitch hsw []).2.2, hsw, hsome]

/-- Counts the jumps with a condition. A switch earns one for each connection to a case. -/
def jumps (s : Script) : Account s where
  item i := i.lines.countP Line.isJumpIf
  entering := 0
  visiting := 0
  block b := if b.isSwitch then s.caseCount b.id else 0
  enter _ := rfl
  rejoin _ := rfl
  fork b cs d hsw hcs := by simp [Item.lines, (b.countP_lines hsw cs).1, hsw, hcs]
  finish b hsw _ := by
    simp [Item.lines, (b.countP_lines_of_not_isSwitch hsw []).1, hsw, Line.isJumpIf]
  next b hsw _ := by simp [Item.lines, (b.countP_lines_of_not_isSwitch hsw []).1, hsw]

end Account

/-! ## Bodies -/

/-- Members are counted by adding one for each. -/
theorem countP_eq_sum {α : Type} (p : α → Bool) (xs : List α) :
    xs.countP p = (xs.map fun x => if p x then 1 else 0).sum := by
  induction xs with
  | nil => rfl
  | cons x xs ih => rw [List.countP_cons, ih, List.map_cons, List.sum_cons, Nat.add_comm]

/-- A line is a header, a jump with or without a condition, or a hangup. -/
theorem Line.length_eq (ls : List Line) : ls.length =
    (ls.filterMap rendered?).length + ls.countP isJumpIf + ls.countP isJump +
      ls.countP isHangup := by
  induction ls with
  | nil => rfl
  | cons l ls ih =>
    rw [List.length_cons, ih]
    cases l <;>
      simp [List.filterMap_cons, List.countP_cons, rendered?, isJumpIf, isJump, isHangup] <;>
      omega

/-- What the switches earn by their ids alone. -/
theorem Script.sum_forksAt (R : Finset LocalId) (earn : LocalId → Nat) :
    ∑ i ∈ R, (s.blockFrom entry i).elim 0 (fun b => if b.isSwitch then earn b.id else 0) =
      ∑ i ∈ R with s.forksAt entry i, earn i := by
  rw [Finset.sum_filter]
  refine Finset.sum_congr rfl fun i _ => ?_
  unfold forksAt
  cases h : s.blockFrom entry i with
  | none => simp
  | some b => simp [id_of_blockFrom h]

/-- What the blocks that lead nowhere earn. -/
theorem Script.sum_endsAt (R : Finset LocalId) :
    ∑ i ∈ R, (s.blockFrom entry i).elim 0
        (fun b => if !b.isSwitch && (s.targets b.id).isEmpty then 1 else 0) =
      (R.filter fun i => s.endsAt entry i).card := by
  rw [Finset.card_filter]
  refine Finset.sum_congr rfl fun i _ => ?_
  unfold endsAt
  cases h : s.blockFrom entry i with
  | none => simp
  | some b => simp [id_of_blockFrom h]

/-- The events of branches and switches are those of their items. -/
theorem Script.countP_eventsFrom (s : Script) (entry : Block) :
    (s.eventsFrom entry).countP Event.isBranch = (s.walk entry).items.countP Item.isEnter ∧
      (s.eventsFrom entry).countP Event.isResolved = (s.walk entry).items.countP Item.isFork := by
  rw [eventsFrom, Trace.events, List.countP_filterMap, List.countP_filterMap]
  constructor
  · congr 1
    funext i
    cases i <;> rfl
  · congr 1
    funext i
    cases i <;> rfl

/-! The five counts, each taken by its account from the trace on one side and from the graph on the
other. -/

/-- The branches of a body: its entry, and the default and the cases of each switch. -/
theorem Script.countP_isEnter (hf : (s.walk entry).fault = none) :
    (s.walk entry).items.countP Item.isEnter =
      1 + ∑ i ∈ (s.walk entry).done.toFinset with s.forksAt entry i, (s.caseCount i + 1) := by
  rw [countP_eq_sum, ← sum_forksAt]
  exact (Account.pops s).sum_walk hf

/-- The ends of the branches of a body are as many as its branches. -/
theorem Script.countP_isJump (hf : (s.walk entry).fault = none) :
    ((s.walk entry).items.flatMap Item.lines).countP Line.isJump +
        ((s.walk entry).items.flatMap Item.lines).countP Line.isHangup +
        (s.walk entry).items.countP Item.isFork =
      1 + ∑ i ∈ (s.walk entry).done.toFinset with s.forksAt entry i, (s.caseCount i + 1) := by
  rw [List.countP_flatMap, List.countP_flatMap, countP_eq_sum Item.isFork, ← List.sum_map_add,
    ← List.sum_map_add, ← sum_forksAt]
  exact (Account.ends s).sum_walk hf

/-- The switches of a body. -/
theorem Script.countP_isFork (hf : (s.walk entry).fault = none) :
    (s.walk entry).items.countP Item.isFork =
      ((s.walk entry).done.toFinset.filter fun i => s.forksAt entry i).card := by
  rw [countP_eq_sum, Finset.card_eq_sum_ones, ← sum_forksAt]
  exact ((Account.switches s).sum_walk hf).trans (Nat.zero_add _)

/-- The hangups of a body. -/
theorem Script.countP_isHangup (hf : (s.walk entry).fault = none) :
    ((s.walk entry).items.flatMap Item.lines).countP Line.isHangup =
      ((s.walk entry).done.toFinset.filter fun i => s.endsAt entry i).card := by
  rw [List.countP_flatMap, ← sum_endsAt]
  exact ((Account.hangups s).sum_walk hf).trans (Nat.zero_add _)

/-- The jumps with a condition of a body. -/
theorem Script.countP_isJumpIf (hf : (s.walk entry).fault = none) :
    ((s.walk entry).items.flatMap Item.lines).countP Line.isJumpIf =
      ∑ i ∈ (s.walk entry).done.toFinset with s.forksAt entry i, s.caseCount i := by
  rw [List.countP_flatMap, ← sum_forksAt]
  exact ((Account.jumps s).sum_walk hf).trans (Nat.zero_add _)

/-- **The lines of a body add up.** Let `R` be the ids that a body renders, `D` the number of blocks
among them that are no switch and lead nowhere, `S` the number of switches, and `C` the number of
connections of these switches that lead to cases. Then `1 + C + S` branches are taken up and `S`
switches resolved, each with its event, and the body has `D` hangups, `1 + C - D` jumps and `C`
jumps with a condition. If no text that it is written from holds a newline, it has
`R.card + 2 * C + 1` of them. -/
theorem Script.compileFrom_adds_up (h : s.compileFrom host entry = .ok text) :
    ∃ ls, (s.walk entry).lines = .ok ls ∧ text = Line.textAll (some host) ls ∧
      let R := ((ls.filterMap Line.rendered?).map (·.id)).toFinset
      let D := (R.filter fun i => s.endsAt entry i).card
      let S := (R.filter fun i => s.forksAt entry i).card
      let C := ∑ i ∈ R with s.forksAt entry i, s.caseCount i
      (s.walk entry).items.countP Item.isEnter = 1 + C + S ∧
      (s.eventsFrom entry).countP Event.isBranch = 1 + C + S ∧
      (s.walk entry).items.countP Item.isFork = S ∧
      (s.eventsFrom entry).countP Event.isResolved = S ∧
      ls.countP Line.isHangup = D ∧ ls.countP Line.isJump + D = 1 + C ∧
      ls.countP Line.isJumpIf = C ∧
      ((∀ b ∈ entry :: s.blocks, b.OneLine) → NoNewline host →
        text.toList.count '\n' = R.card + 2 * C + 1) := by
  obtain ⟨hf, rfl⟩ := compileFrom_eq_ok.1 h
  have hids : (((s.walk entry).items.flatMap Item.lines).filterMap Line.rendered?).map (·.id) =
      (s.walk entry).done := by
    rw [Trace.filterMap_rendered?_lines, Trace.done]
  refine ⟨_, by rw [Trace.lines, hf], rfl, ?_⟩
  rw [hids]
  intro R D S C
  have hbranches : ∑ i ∈ R with s.forksAt entry i, (s.caseCount i + 1) = C + S := by
    rw [Finset.sum_add_distrib, ← Finset.card_eq_sum_ones]
  have hpops := countP_isEnter hf
  have hends := countP_isJump hf
  have hswitches : _ = S := countP_isFork hf
  have hhangups : _ = D := countP_isHangup hf
  have hjumps : _ = C := countP_isJumpIf hf
  rw [hbranches, ← Nat.add_assoc] at hpops hends
  rw [hswitches, hhangups] at hends
  obtain ⟨hbranch, hresolved⟩ := s.countP_eventsFrom entry
  refine ⟨hpops, hbranch.trans hpops, hswitches, hresolved.trans hswitches, hhangups, by omega,
    hjumps, fun hblocks hhost => ?_⟩
  have hrows : R.card = (s.walk entry).rendered.length := by
    rw [List.toFinset_card_of_nodup (s.walked_walk entry).nodup_done.1, Trace.done, List.length_map]
  have hlength := Line.length_eq ((s.walk entry).items.flatMap Item.lines)
  rw [Trace.filterMap_rendered?_lines, ← hrows, hjumps, hhangups] at hlength
  rw [Line.count_textAll (noNewline_walk hf hblocks hhost)]
  omega

end

/-- The menu, entered at a block that it does not have: one switch, one case and one dead end. -/
theorem Script.retryMenu_adds_up :
    let entry : Block := ⟨1, "transfer", .answer⟩
    ∃ text ls, retryMenu.compileFrom "10.0.0.5" entry = .ok text ∧
      (retryMenu.walk entry).lines = .ok ls ∧ text = Line.textAll (some "10.0.0.5") ls ∧
      ((ls.filterMap Line.rendered?).map (·.id)).toFinset = {1, 2, 3, 4} ∧
      (retryMenu.eventsFrom entry).countP Event.isBranch = 3 ∧
      (retryMenu.eventsFrom entry).countP Event.isResolved = 1 ∧
      ls.countP Line.isHangup = 1 ∧ ls.countP Line.isJump = 1 ∧ ls.countP Line.isJumpIf = 1 ∧
      text.toList.count '\n' = 7 := by
  intro entry
  have hf : (retryMenu.walk entry).fault = none := by cbv
  obtain ⟨text, h⟩ : ∃ text, retryMenu.compileFrom "10.0.0.5" entry = .ok text :=
    exists_compileFrom_eq_ok hf
  obtain ⟨ls, hls, htext, hsum⟩ := compileFrom_adds_up h
  have hids : ((ls.filterMap Line.rendered?).map (·.id)).toFinset = {1, 2, 3, 4} := by
    have hlines : (retryMenu.walk entry).lines.toOption.map
        (fun ls => (ls.filterMap Line.rendered?).map (·.id)) = some [1, 2, 4, 3] := by cbv
    rw [hls] at hlines
    simp only [Except.toOption, Option.map_some, Option.some.injEq] at hlines
    rw [hlines]
    decide
  have hends : (Finset.filter (fun i => retryMenu.endsAt entry i) {1, 2, 3, 4}).card = 1 := by
    decide
  have hforks : Finset.filter (fun i => retryMenu.forksAt entry i) {1, 2, 3, 4} = {2} := by
    decide
  have hcases : retryMenu.caseCount 2 = 1 := by decide
  simp only [hids, hends, hforks, Finset.card_singleton, Finset.sum_singleton, hcases] at hsum
  obtain ⟨-, hbranch, -, hresolved, hhangup, hjump, hjumpIf, hnewlines⟩ := hsum
  refine ⟨text, ls, h, hls, htext, hids, hbranch, hresolved, hhangup, by omega, hjumpIf, ?_⟩
  exact hnewlines (by simp [retryMenu, entry, Block.OneLine, Kind.texts, NoNewline])
    (by simp [NoNewline])

end CallFlow
