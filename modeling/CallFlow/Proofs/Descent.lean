import CallFlow.Proofs.Coverage
import Mathlib.Data.FinEnum

/-!
# The walk as a descent

The body of a script can be written down by recursion on the graph instead of with a list of tasks:
`Script.descend` compiles a block and everything behind it, given the set of ids that are rendered,
and hands on the set that it leaves. There are finitely many ids, so the descent ends on every
graph. It gives the same text, or the same fault, as the walk: a list of tasks stands for the
descents that are still to come, one behind the other (`Walked.descendAll_eq`).
-/

namespace CallFlow

/-- What a descent leaves: a text, and the ids that are rendered, those of before among them. -/
structure Descent (visited : Finset LocalId) where
  text : String
  seen : Finset LocalId
  visited_subset : visited ⊆ seen

namespace Descent

variable {visited : Finset LocalId}

/-- Nothing is rendered. -/
def idle (visited : Finset LocalId) (text : String) : Descent visited :=
  ⟨text, visited, subset_rfl⟩

/-- What a descent leaves, with the id and the text of the block above it. -/
def under (i : LocalId) (text : String) (r : Descent (insert i visited)) : Descent visited :=
  ⟨text ++ r.text, r.seen, (Finset.subset_insert i visited).trans r.visited_subset⟩

/-- What two descents leave, one behind the other. -/
def followedBy (r : Descent visited) (q : Descent r.seen) : Descent visited :=
  ⟨r.text ++ q.text, q.seen, r.visited_subset.trans q.visited_subset⟩

end Descent

/-- A new id leaves fewer ids. -/
theorem card_compl_insert_lt {visited : Finset LocalId} {i : LocalId} (h : i ∉ visited) :
    (insert i visited)ᶜ.card < visitedᶜ.card :=
  Finset.card_lt_card (Finset.compl_ssubset_compl.2 (Finset.ssubset_insert h))

mutual

/-- Compiles a block and what is behind it. An id that is rendered gets a jump. A switch is followed
by its default and all that is first reached there, and then by its cases, the last one first; any
other block by what its first connection leads to, or by a hangup. -/
def Script.descend (s : Script) (host : String) (visited : Finset LocalId) (b : Block) :
    Except Fault (Descent visited) :=
  if b.id ∈ visited then
    .ok (.idle visited (Line.text (some host) (.jump b)))
  else if b.isSwitch then
    match s.branches b with
    | .error f => .error f
    | .ok (cases, d) =>
      (s.descendAll host (insert b.id visited) (d :: cases.reverse)).map
        (.under b.id (b.render cases (some host)))
  else
    match s.next b with
    | .error f => .error f
    | .ok none =>
      .ok (.under b.id (b.render [] (some host)) (.idle _ (Line.text (some host) .hangup)))
    | .ok (some c) =>
      (s.descend host (insert b.id visited) c).map (.under b.id (b.render [] (some host)))
termination_by (visitedᶜ.card, 0)
decreasing_by
  · exact Prod.Lex.left _ _ (card_compl_insert_lt ‹_›)
  · exact Prod.Lex.left _ _ (card_compl_insert_lt ‹_›)

/-- Compiles blocks one after the other, each with the ids that the ones before it left rendered. -/
def Script.descendAll (s : Script) (host : String) (visited : Finset LocalId) :
    List Block → Except Fault (Descent visited)
  | [] => .ok (.idle visited "")
  | b :: bs =>
    match s.descend host visited b with
    | .error f => .error f
    | .ok r => (s.descendAll host r.seen bs).map r.followedBy
termination_by bs => (visitedᶜ.card, bs.length + 1)
decreasing_by
  · exact Prod.Lex.right _ (Nat.succ_pos _)
  -- The descent before may have rendered nothing, and then the list is what gets shorter.
  · have hle := Finset.card_le_card (Finset.compl_subset_compl.2 r.visited_subset)
    rcases hle.lt_or_eq with hlt | heq
    · exact Prod.Lex.left _ _ hlt
    · rw [heq]
      exact Prod.Lex.right _ (by simp)

end

section
variable {s : Script} {entry b : Block} {fresh : List LocalId} {tasks : List Task} {t : Trace}
  {items : List Item} {host : String} {visited : Finset LocalId} {f : Fault}

/-! ## Texts of lines -/

/-- The text of two lists of lines is that of one behind that of the other. -/
theorem Line.textAll_append {h : Option String} (ks ls : List Line) :
    textAll h (ks ++ ls) = textAll h ks ++ textAll h ls := by
  rw [textAll, List.map_append, String.join_append, ← textAll, ← textAll]

/-- The text of a single line. -/
theorem Line.textAll_singleton {h : Option String} (l : Line) : textAll h [l] = l.text h := by
  simp [textAll]

/-- The text of a walk with more items in front. -/
theorem Trace.text_prepend {h : Option String} : (t.prepend items).lines.map (Line.textAll h) =
    (t.lines.map (Line.textAll h)).map (Line.textAll h (items.flatMap Item.lines) ++ ·) := by
  unfold lines
  rw [fault_prepend, items_prepend, List.flatMap_append]
  cases t.fault <;> simp [Except.map, Line.textAll_append]

/-- The text of a walk with one more item in front. -/
theorem Trace.text_cons {h : Option String} {i : Item} : (t.cons i).lines.map (Line.textAll h) =
    (t.lines.map (Line.textAll h)).map (Line.textAll h i.lines ++ ·) := by
  have hcons : t.cons i = t.prepend [i] := rfl
  rw [hcons, text_prepend, List.flatMap_singleton]

/-! ## Descents and tasks -/

/-- A descent at a rendered id is a jump. -/
theorem Script.descend_of_mem (h : b.id ∈ visited) :
    s.descend host visited b = .ok (.idle visited (Line.text (some host) (.jump b))) := by
  rw [descend, if_pos h]

/-- A descent at one block in a row of one. -/
theorem Script.descendAll_singleton :
    s.descendAll host visited [b] = s.descend host visited b := by
  rw [descendAll]
  cases s.descend host visited b with
  | error f => rfl
  | ok r => simp [descendAll, Except.map, Descent.followedBy, Descent.idle]

/-- A descent at any other id compiles the block, and then the blocks of its tasks. -/
theorem Script.descend_of_not_mem (h : b.id ∉ visited) : s.descend host visited b =
    match s.expand b with
    | (_, .error f) => .error f
    | (items, .ok tasks) =>
      (s.descendAll host (insert b.id visited) (tasks.map Task.block)).map
        (.under b.id (Line.textAll (some host) (items.flatMap Item.lines))) := by
  rw [descend, if_neg h]
  unfold expand
  cases b.isSwitch with
  | true =>
    rcases s.branches b with f | ⟨cs, d⟩
    · rfl
    · simp [Item.lines, Block.render]
  | false =>
    rcases s.next b with f | _ | c
    · rfl
    · simp [descendAll, Item.lines, Block.render, Except.map, Descent.under, Descent.idle,
        Line.textAll_append, Line.textAll_singleton]
    · simp [descendAll_singleton, Item.lines, Block.render]

/-- Descents at the blocks of two lists, in text: those of the second begin with the ids that those
of the first left rendered. -/
theorem Script.descendAll_append (bs cs : List Block) :
    (s.descendAll host visited (bs ++ cs)).map Descent.text =
      match s.descendAll host visited bs with
      | .error f => .error f
      | .ok r => (s.descendAll host r.seen cs).map fun q => r.text ++ q.text := by
  induction bs generalizing visited with
  | nil => simp [descendAll, Descent.idle]
  | cons b bs ih =>
    rw [List.cons_append, descendAll, descendAll]
    cases s.descend host visited b with
    | error f => rfl
    | ok r =>
      have htext : ∀ x : Except Fault (Descent r.seen), (x.map r.followedBy).map Descent.text =
          (x.map Descent.text).map (r.text ++ ·) := by
        rintro (f | q) <;> rfl
      dsimp only
      rw [htext, ih]
      cases s.descendAll host r.seen bs with
      | error f => rfl
      | ok q =>
        change ((s.descendAll host q.seen cs).map _).map _ = (s.descendAll host q.seen cs).map _
        cases s.descendAll host q.seen cs with
        | error f => rfl
        | ok p => simp [Except.map, Descent.followedBy, String.append_assoc]

/-- At a rendered id the descents go on behind a jump. -/
theorem Script.descendAll_cons_of_mem (h : b.id ∈ visited) (bs : List Block) :
    (s.descendAll host visited (b :: bs)).map Descent.text =
      ((s.descendAll host visited bs).map Descent.text).map
        (Line.text (some host) (.jump b) ++ ·) := by
  rw [descendAll, descend_of_mem h]
  dsimp only [Descent.idle]
  cases s.descendAll host visited bs <;> rfl

/-- At any other id the descents go on, behind the block, with the blocks of its tasks. -/
theorem Script.descendAll_cons_of_not_mem (h : b.id ∉ visited)
    (he : s.expand b = (items, .ok tasks)) (bs : List Block) :
    (s.descendAll host visited (b :: bs)).map Descent.text =
      ((s.descendAll host (insert b.id visited) (tasks.map Task.block ++ bs)).map
        Descent.text).map (Line.textAll (some host) (items.flatMap Item.lines) ++ ·) := by
  rw [descendAll_append, descendAll, descend_of_not_mem h, he]
  dsimp only
  cases s.descendAll host (insert b.id visited) (tasks.map Task.block) with
  | error f => rfl
  | ok r =>
    dsimp only [Except.map, Descent.under]
    cases s.descendAll host r.seen bs with
    | error f => rfl
    | ok q => simp [Descent.followedBy, String.append_assoc]

/-- A fault of a block stops the descents. -/
theorem Script.descendAll_cons_of_error (h : b.id ∉ visited)
    (he : s.expand b = (items, .error f)) (bs : List Block) :
    s.descendAll host visited (b :: bs) = .error f := by
  rw [descendAll, descend_of_not_mem h, he]

/-- The ids that are fresh on a walk are those that are not in the set of a descent. Only the ids of
the entry and of the blocks of the script count: no others are met. -/
def Agrees (s : Script) (entry : Block) (fresh : List LocalId) (visited : Finset LocalId) : Prop :=
  ∀ i ∈ entry.id :: s.blocks.map (·.id), i ∈ fresh ↔ i ∉ visited

/-- A walk and a descent still agree when both have rendered an id. -/
theorem Agrees.insert (h : Agrees s entry fresh visited) (i : LocalId) :
    Agrees s entry (without fresh i) (insert i visited) := by
  intro j hj
  rw [mem_without, Finset.mem_insert, h j hj, not_or, and_comm]

/-- The tasks of a walk stand for the descents that are still to come: done in order, they give the
lines of the walk. -/
theorem Walked.descendAll_eq (h : Walked s fresh tasks t) (hv : Agrees s entry fresh visited)
    (hin : ∀ b ∈ tasks.map Task.block, b.id ∈ entry.id :: s.blocks.map (·.id)) :
    (s.descendAll host visited (tasks.map Task.block)).map Descent.text =
      t.lines.map (Line.textAll (some host)) := by
  -- Both sets change together along the walk, so the set of the descent is not fixed.
  induction h generalizing visited with
  | nil => simp [Script.descendAll, Descent.idle, Trace.lines, Except.map, Line.textAll]
  | enter _ ih => exact ih hv hin
  | @rejoin _ _ _ b hb _ ih =>
    rw [List.map_cons, List.forall_mem_cons] at hin
    have hmem : b.id ∈ visited := by
      by_contra hnot
      exact hb ((hv _ hin.1).2 hnot)
    rw [List.map_cons, Task.block_visit, Script.descendAll_cons_of_mem hmem, ih hv hin.2,
      Trace.text_cons, Item.lines, Line.textAll_singleton]
  | stop hb he =>
    rw [List.map_cons, List.forall_mem_cons] at hin
    have hnot := (hv _ hin.1).1 hb
    rw [List.map_cons, Script.descendAll_cons_of_error hnot he]
    rfl
  | @go _ b _ tasks rest _ hb he _ ih =>
    rw [List.map_cons, List.forall_mem_cons] at hin
    have hnot : b.id ∉ visited := (hv _ hin.1).1 hb
    have hin' : ∀ c ∈ (tasks ++ rest).map Task.block,
        c.id ∈ entry.id :: s.blocks.map (·.id) := by
      rw [List.map_append, List.forall_mem_append]
      refine ⟨fun c hc => ?_, hin.2⟩
      exact Script.mem_ids_of_block? (Script.block?_of_expand he hc)
    rw [List.map_cons, Task.block_visit, Script.descendAll_cons_of_not_mem hnot he,
      ← List.map_append, ih (hv.insert b.id) hin', Trace.text_prepend]

/-! ## Branches in order -/

/-- A walk over two lists of tasks without a fault falls into a walk over each. -/
theorem Walked.split {us : List Task} (h : Walked s fresh (tasks ++ us) t) (hf : t.fault = none) :
    ∃ v w, Walked s fresh tasks v ∧ Walked s (remaining fresh v) us w ∧ v.fault = none ∧
      w.fault = none ∧ t.items = v.items ++ w.items := by
  have hv := walked_walkFrom s fresh tasks
  have hw := walked_walkFrom s (remaining fresh (s.walkFrom fresh tasks)) us
  have ht := h.eq.trans (hv.append hw).eq.symm
  rw [ht, Trace.fault_andThen_eq_none] at hf
  refine ⟨_, _, hv, hw, hf.1, hf.2, ?_⟩
  rw [ht, Trace.andThen_of_fault_eq_none hf.1, Trace.items_prepend]

/-- A branch begins where it is taken up. -/
theorem Walked.head?_enter {rest : List Task} (h : Walked s fresh (.enter b :: rest) t) :
    t.items.head? = some (.enter b) := by
  cases h
  rfl

/-- Branches that are to be taken up are walked in order, each whole before the next. -/
theorem Walked.exists_branches {bs : List Block} {rest : List Task}
    (h : Walked s fresh (bs.map .enter ++ rest) t) (hf : t.fault = none) :
    ∃ branches after, t.items = branches.flatten ++ after ∧
      List.Forall₂ (fun c branch => branch.head? = some (Item.enter c)) bs branches := by
  induction bs generalizing fresh t with
  | nil => exact ⟨[], t.items, rfl, .nil⟩
  | cons b bs ih =>
    have h' : Walked s fresh ([.enter b] ++ (bs.map .enter ++ rest)) t := h
    obtain ⟨v, w, hv, hw, -, hwf, hitems⟩ := h'.split hf
    obtain ⟨branches, after, hrest, hall⟩ := ih hw hwf
    refine ⟨v.items :: branches, after, ?_, .cons hv.head?_enter hall⟩
    rw [hitems, hrest, List.flatten_cons, List.append_assoc]

/-- A walk over the branches of a switch, the default first and then the cases, the last one first,
and over what was to be done behind it. -/
def BranchesWalked (s : Script) (entry : Block) (fresh : List LocalId) (cs : List Block)
    (d : Block) (t : Trace) : Prop :=
  s.block? d.id = some d ∧ Sourced s entry fresh [d] ∧
    ∃ rest, Walked s fresh (.enter d :: (cs.reverse.map .enter ++ rest)) t

/-- What a step that renders a switch leaves to walk. -/
theorem BranchesWalked.of_expand {rest : List Task} {cs : List Block} {d : Block}
    (hs : Sourced s entry fresh (b :: rest.map Task.block))
    (he : s.expand b = ([.fork b cs d], .ok tasks))
    (h : Walked s (without fresh b.id) (tasks ++ rest) t) :
    BranchesWalked s entry (without fresh b.id) cs d t := by
  rcases Script.expand_ok_cases he with
    ⟨cs', d', -, -, hitems, rfl⟩ | ⟨-, -, hitems, -⟩ | ⟨c, -, -, hitems, -⟩
  · cases hitems
    refine ⟨Script.block?_of_expand he List.mem_cons_self, fun c hc => ?_, rest, h⟩
    obtain rfl := List.mem_singleton.1 hc
    exact hs.expand he c List.mem_cons_self
  · cases hitems
  · cases hitems

/-- A fork lies behind the items of an expansion, or it is all that the expansion does. -/
theorem Script.fork_cases {pre post later : List Item} {c d : Block} {cs : List Block}
    (he : s.expand b = (items, .ok tasks)) (hi : items ++ later = pre ++ .fork c cs d :: post) :
    (∃ pre', pre = items ++ pre' ∧ later = pre' ++ .fork c cs d :: post) ∨
      pre = [] ∧ items = [.fork c cs d] ∧ c = b ∧ later = post := by
  rcases Script.expand_ok_cases he with
    ⟨cs', d', -, -, rfl, -⟩ | ⟨-, -, rfl, -⟩ | ⟨_, -, -, rfl, -⟩
  · obtain _ | ⟨p, pre⟩ := pre
    · cases hi
      exact .inr ⟨rfl, rfl, rfl, rfl⟩
    · obtain ⟨rfl, hi'⟩ := List.cons.inj hi
      exact .inl ⟨pre, rfl, hi'⟩
  · obtain _ | ⟨p, _ | ⟨q, pre⟩⟩ := pre
    · cases hi
    · cases hi
    · obtain ⟨rfl, hi'⟩ := List.cons.inj hi
      obtain ⟨rfl, hi''⟩ := List.cons.inj hi'
      exact .inl ⟨pre, rfl, hi''⟩
  · obtain _ | ⟨p, pre⟩ := pre
    · cases hi
    · obtain ⟨rfl, hi'⟩ := List.cons.inj hi
      exact .inl ⟨pre, rfl, hi'⟩

/-- Behind a fork the branches of its switch are walked, and the ids that were rendered up to it are
no longer fresh. -/
theorem Walked.of_fork {pre post : List Item} {cs : List Block} {d : Block}
    (h : Walked s fresh tasks t) (hs : Sourced s entry fresh (tasks.map Task.block))
    (hi : t.items = pre ++ .fork b cs d :: post) :
    ∃ fresh' u, BranchesWalked s entry fresh' cs d u ∧ u.items = post ∧ u.fault = t.fault ∧
      ∀ i, i ∈ fresh' ↔ i ∈ fresh ∧ i ∉ b.id :: (pre.filterMap Item.rendered?).map (·.id) := by
  induction h generalizing pre with
  | nil => simp at hi
  | enter _ ih =>
    obtain _ | ⟨p, pre⟩ := pre
    · cases hi
    · obtain ⟨rfl, hi'⟩ := List.cons.inj hi
      exact @ih pre hs hi'
  | rejoin _ _ ih =>
    obtain _ | ⟨p, pre⟩ := pre
    · cases hi
    · obtain ⟨rfl, hi'⟩ := List.cons.inj hi
      exact @ih pre hs.tail hi'
  | stop _ he =>
    have hmem : Item.fork b cs d ∈ pre ++ .fork b cs d :: post := by simp
    rw [← hi] at hmem
    rcases Script.expand_error_cases he with ⟨-, -, rfl⟩ | ⟨-, -, rfl⟩ <;> simp at hmem
  | go hb he hw ih =>
    rcases Script.fork_cases he hi with ⟨pre', rfl, hi'⟩ | ⟨rfl, rfl, rfl, rfl⟩
    · obtain ⟨fresh', u, hu, hpost, hfault, hmem⟩ := ih (hs.expand he) hi'
      refine ⟨fresh', u, hu, hpost, hfault, fun i => ?_⟩
      rw [hmem, mem_without, List.filterMap_append, Script.rendered?_expand he]
      simp [and_assoc, and_left_comm]
    · exact ⟨_, _, .of_expand hs he hw, rfl, rfl, fun i => by simp⟩

/-- Every fork among the items is followed by its default branch, which renders all that is first
reached through the default, and only behind that by its case branches, the last one first. -/
def Script.DefaultsFirst (s : Script) (entry : Block) (items : List Item) : Prop :=
  ∀ pre b cs d post, items = pre ++ .fork b cs d :: post →
    ∃ default branches after, post = default ++ branches.flatten ++ after ∧
      default.head? = some (.enter d) ∧
      List.Forall₂ (fun c branch => branch.head? = some (Item.enter c)) cs.reverse branches ∧
      ∀ i, i ∈ (default.filterMap Item.rendered?).map (·.id) ↔
        s.FirstReached entry (b.id :: (pre.filterMap Item.rendered?).map (·.id)) d.id i

/-- Without a fault the default of each switch is walked before its cases. -/
theorem Script.defaultsFirst_walk (hf : (s.walk entry).fault = none) :
    s.DefaultsFirst entry (s.walk entry).items := by
  intro pre b cs d post hi
  obtain ⟨fresh, u, ⟨hd, hsrc, rest, hw⟩, rfl, hfault, hfresh⟩ :=
    (s.walked_walk entry).of_fork sourced_entry hi
  have hw' : Walked s fresh ([.enter d] ++ (cs.reverse.map .enter ++ rest)) u := hw
  obtain ⟨v, w, hv, hw, hvf, hwf, hitems⟩ := hw'.split (hfault.trans hf)
  obtain ⟨branches, after, hafter, hall⟩ := hw.exists_branches hwf
  refine ⟨v.items, branches, after, ?_, hv.head?_enter, hall, fun i => ?_⟩
  · rw [hitems, hafter, List.append_assoc]
  · exact hv.mem_done_branch _ hsrc hvf (mem_ids_of_block? hd) hfresh

/-- **The walk is a descent.** Compiling a script from an entry block gives the text or the fault of
the descent from there with nothing rendered. In particular all that is first reached through the
default of a switch comes before any case branch of that switch. -/
theorem Script.compileFrom_eq_descend (s : Script) (host : String) (entry : Block) :
    s.compileFrom host entry = (s.descend host ∅ entry).map Descent.text ∧
      ∀ text, s.compileFrom host entry = .ok text →
        text = Line.textAll (some host) ((s.walk entry).items.flatMap Item.lines) ∧
          s.DefaultsFirst entry (s.walk entry).items := by
  constructor
  · have hagree : Agrees s entry (entry.id :: s.blocks.map (·.id)) ∅ := fun i hi => by simp [hi]
    have heq : (s.descendAll host ∅ [entry]).map Descent.text = s.compileFrom host entry :=
      (s.walked_walk entry).descendAll_eq hagree (by simp)
    rw [← heq, descendAll_singleton]
  · intro text h
    obtain ⟨hf, rfl⟩ := compileFrom_eq_ok.1 h
    exact ⟨rfl, defaultsFirst_walk hf⟩

end

end CallFlow
