import CallFlow.Proofs.Coverage
import Mathlib.Algebra.GroupWithZero.Nat
import Mathlib.Algebra.Order.BigOperators.Group.Finset
import Mathlib.Logic.Function.Iterate

/-!
# The walk as two loops

A walk can be made by two loops over a stack of branches. The outer loop takes a branch off the
stack. The inner one follows it block by block, until it comes to an id that is rendered, to a
switch, whose branches go on the stack, or to a block that leads nowhere. `Script.loopStep` makes
one step of these loops, and nothing in it says that they end.

They end because both kinds of steps are counted (`Script.count_loopStep`) and both counts are
bounded on every graph (`Charged.loopStep`): a branch on the stack is charged to a connection out of
a switch, no switch is rendered twice, and a turn of the inner loop renders a block or ends a
branch. What the loops have done, together with the walk over what they have left to do, is the
whole walk at every step (`Script.whole_loopStep`), so what they have done in the end is the walk.
-/

namespace CallFlow

/-- A walk that is made by loops: the ids that are rendered, the branches on the stack, the next one
first, and the block that the branch at hand has come to. The trace says what was done so far. -/
structure Walker where
  visited : List LocalId := []
  pending : List Block := []
  current : Option Block := none
  trace : Trace := {}
  /-- How many branches were taken off the stack. -/
  pops : Nat := 0
  /-- How many turns the inner loop has made. -/
  turns : Nat := 0

namespace Walker

/-- Nothing is done yet, and the entry is on the stack. -/
def start (entry : Block) : Walker :=
  { pending := [entry] }

/-- Some more is done. -/
def note (w : Walker) (items : List Item) : Walker :=
  { w with trace := { w.trace with items := w.trace.items ++ items } }

/-- A block is rendered. It leaves branches on the stack, or the branch goes on to a next block. -/
def render (w : Walker) (b : Block) (items : List Item) (pushed : List Block)
    (next : Option Block) : Walker :=
  { w.note items with
    visited := w.visited ++ [b.id], pending := pushed ++ w.pending, current := next }

/-- A fault ends the loops. -/
def stop (w : Walker) (f : Fault) : Walker :=
  { w with trace := { w.trace with fault := some f } }

/-- The loops have ended, by a fault or because nothing is left to do. -/
def Halted (w : Walker) : Prop :=
  w.trace.fault.isSome ∨ w.current = none ∧ w.pending = []

/-- What is left to do, as tasks of a walk. -/
def tasks (w : Walker) : List Task :=
  w.current.toList.map .visit ++ w.pending.map .enter

end Walker

namespace Script

/-- One turn of the inner loop, at a block. -/
def turn (s : Script) (w : Walker) (b : Block) : Walker :=
  if b.id ∈ w.visited then w.note [.rejoin b]
  else if b.isSwitch then
    match s.branches b with
    | .error f => w.stop f
    | .ok (cases, d) => w.render b [.fork b cases d] (d :: cases.reverse) none
  else
    match s.next b with
    | .error f => (w.render b [.plain b] [] none).stop f
    | .ok none => w.render b [.plain b, .finish] [] none
    | .ok (some c) => w.render b [.plain b] [] (some c)

/-- One step of the loops: a turn at the block at hand or, if there is none, a branch off the
stack. -/
def loopStep (s : Script) (w : Walker) : Walker :=
  match w.trace.fault, w.current, w.pending with
  | none, some b, _ => s.turn { w with current := none, turns := w.turns + 1 } b
  | none, none, b :: rest =>
    { w.note [.enter b] with current := some b, pending := rest, pops := w.pops + 1 }
  | _, _, _ => w

/-- What the loops have done, and behind it the walk over what they have left to do. -/
def whole (s : Script) (ids : List LocalId) (w : Walker) : Trace :=
  w.trace.andThen (s.walkFrom (remaining ids w.trace) w.tasks)

end Script

/-- The counts of the loops stay within bounds. The branches that were on the stack are charged to
the connections out of the rendered ids, and the turns to the rendered ids and the branches. -/
structure Charged (s : Script) (entry : Block) (w : Walker) : Prop where
  visited_eq : w.visited = w.trace.done
  nodup : w.visited.Nodup
  visited_mem : ∀ i ∈ w.visited, i ∈ entry.id :: s.blocks.map (·.id)
  at_hand : ∀ b ∈ w.current.toList ++ w.pending, b.id ∈ entry.id :: s.blocks.map (·.id)
  pops_le : w.pops + w.pending.length ≤ 1 + (w.visited.map fun i => (s.targets i).length).sum
  turns_le : w.turns + w.current.toList.length ≤ w.visited.length + w.pops

section
variable {s : Script} {entry b : Block} {w : Walker} {items : List Item} {ids : List LocalId}

/-! ## What a step adds to the trace -/

/-- The ids that are rendered when more is done. -/
theorem Trace.done_append (t : Trace) (items : List Item) :
    Trace.done { t with items := t.items ++ items } =
      t.done ++ (items.filterMap Item.rendered?).map (·.id) := by
  rw [done, rendered, List.filterMap_append, List.map_append]
  rfl

/-- What is done last stands in front of what follows. -/
theorem Trace.append_andThen {t u : Trace} (ht : t.fault = none) (items : List Item) :
    Trace.andThen { t with items := t.items ++ items } u = t.andThen (u.prepend items) := by
  have ht' : Trace.fault { t with items := t.items ++ items } = none := ht
  rw [andThen_of_fault_eq_none ht, andThen_of_fault_eq_none ht', prepend, prepend, prepend,
    List.append_assoc]

/-- The same ids remain when nothing is rendered. -/
theorem remaining_append_of_nil {t : Trace} (hitems : items.filterMap Item.rendered? = []) :
    remaining ids { t with items := t.items ++ items } = remaining ids t := by
  unfold remaining
  rw [Trace.done_append, hitems, List.map_nil, List.append_nil]

/-- One id less remains when a block is rendered. -/
theorem remaining_append {t : Trace} (hitems : items.filterMap Item.rendered? = [b]) :
    remaining ids { t with items := t.items ++ items } = without (remaining ids t) b.id := by
  unfold remaining without
  rw [List.filter_filter, Trace.done_append, hitems]
  congr 1
  funext i
  simp [and_comm]

/-! ## Connections -/

/-- Distinct ids have no connection in common. -/
theorem Script.sum_targets_le (s : Script) (hids : ids.Nodup) :
    (ids.map fun i => (s.targets i).length).sum ≤ s.connections.length := by
  have hcount : ∀ i, (s.targets i).length = (s.connections.map (·.source)).count i := by
    intro i
    rw [targets, List.length_map, ← List.countP_eq_length_filter, List.count, List.countP_map]
    congr 1
  calc (ids.map fun i => (s.targets i).length).sum
      = ∑ i ∈ ids.toFinset, (s.connections.map (·.source)).count i := by
        simp only [hcount, ← List.sum_toFinset _ hids]
    _ ≤ ∑ i ∈ ids.toFinset ∪ (s.connections.map (·.source)).toFinset,
          (s.connections.map (·.source)).count i :=
        Finset.sum_le_sum_of_subset Finset.subset_union_left
    _ = s.connections.length := by
        have hcard := Multiset.sum_count_eq_card (m := (s.connections.map (·.source) : Multiset _))
          (s := ids.toFinset ∪ (s.connections.map (·.source)).toFinset)
          fun i hi => Finset.mem_union_right _ (List.mem_toFinset.2 hi)
        simpa using hcard

/-- A switch has a connection for each of its branches. -/
theorem Script.length_branches_le {cs : List Block} {d : Block} (h : s.branches b = .ok (cs, d)) :
    (d :: cs.reverse).length ≤ (s.targets b.id).length := by
  obtain ⟨-, rfl, hd, hblock⟩ := branches_eq_ok.1 h
  obtain ⟨d', hd', hdefault⟩ := exists_of_default? hd
  obtain rfl : d' = d := Option.some_inj.1 (hd'.symm.trans hblock)
  -- The default is an arm of the switch and none of its cases.
  have hmem : d' ∈ (s.arms b.id).filter (fun c => ¬ c.isCase) := by
    refine List.mem_filter.2 ⟨List.mem_of_find?_eq_some (find?_isDefault_arms.2 ⟨hd, hblock⟩), ?_⟩
    unfold Block.isDefault at hdefault
    unfold Block.isCase
    split at hdefault <;> simp_all
  have hpos := List.length_pos_of_mem hmem
  have hsplit := List.length_eq_length_filter_add (l := s.arms b.id) Block.isCase
  have harms : (s.arms b.id).length ≤ (s.targets b.id).length := List.length_filterMap_le _ _
  simp only [List.length_cons, List.length_reverse]
  simp only [decide_not, Bool.decide_eq_true] at hpos
  omega

/-! ## Steps -/

/-- Everything that a step can do: nothing, once the loops have ended; a turn at the block at hand;
or to take a branch off the stack. -/
theorem Script.loopStep_cases (s : Script) (w : Walker) :
    (w.Halted ∧ s.loopStep w = w) ∨
    (∃ b, w.trace.fault = none ∧ w.current = some b ∧
      s.loopStep w = s.turn { w with current := none, turns := w.turns + 1 } b) ∨
    (∃ b rest, w.trace.fault = none ∧ w.current = none ∧ w.pending = b :: rest ∧ s.loopStep w =
      { w.note [.enter b] with current := some b, pending := rest, pops := w.pops + 1 }) := by
  unfold loopStep
  cases hf : w.trace.fault with
  | some f => exact .inl ⟨.inl (by rw [hf]; rfl), rfl⟩
  | none =>
    cases hc : w.current with
    | some b => exact .inr (.inl ⟨b, rfl, rfl, rfl⟩)
    | none =>
      cases hp : w.pending with
      | nil => exact .inl ⟨.inr ⟨hc, hp⟩, rfl⟩
      | cons b rest => exact .inr (.inr ⟨b, rest, rfl, rfl, rfl, rfl⟩)

/-- Everything that a turn can do: it ends the branch at a rendered id; it finds a fault, in a
switch or behind a block; or it renders the block and leaves the tasks of its expansion. -/
theorem Script.turn_cases (s : Script) (w : Walker) (b : Block) :
    (b.id ∈ w.visited ∧ s.turn w b = w.note [.rejoin b]) ∨
    (b.id ∉ w.visited ∧ ∃ f, s.expand b = ([], .error f) ∧ s.turn w b = w.stop f) ∨
    (b.id ∉ w.visited ∧ ∃ f, s.expand b = ([.plain b], .error f) ∧
      s.turn w b = (w.render b [.plain b] [] none).stop f) ∨
    (b.id ∉ w.visited ∧ ∃ (items : List Item) (pushed : List Block) (next : Option Block),
      s.expand b = (items, .ok (next.toList.map .visit ++ pushed.map .enter)) ∧
        pushed.length ≤ (s.targets b.id).length ∧ s.turn w b = w.render b items pushed next) := by
  unfold turn expand
  by_cases hseen : b.id ∈ w.visited
  · exact .inl ⟨hseen, if_pos hseen⟩
  rw [if_neg hseen]
  refine .inr ?_
  cases b.isSwitch with
  | true =>
    rcases hs : s.branches b with f | ⟨cs, d⟩
    · exact .inl ⟨hseen, f, rfl, rfl⟩
    · exact .inr (.inr ⟨hseen, _, d :: cs.reverse, none, rfl, length_branches_le hs, rfl⟩)
  | false =>
    rcases s.next b with f | _ | c
    · exact .inr (.inl ⟨hseen, f, rfl, rfl⟩)
    · exact .inr (.inr ⟨hseen, _, [], none, rfl, Nat.zero_le _, rfl⟩)
    · exact .inr (.inr ⟨hseen, _, [], some c, rfl, Nat.zero_le _, rfl⟩)

/-! ## The counts -/

/-- At the start nothing is counted. -/
theorem charged_start : Charged s entry (.start entry) where
  visited_eq := rfl
  nodup := List.nodup_nil
  visited_mem := List.forall_mem_nil _
  at_hand b hb := by
    obtain rfl := List.mem_singleton.1 hb
    exact List.mem_cons_self
  pops_le := Nat.le_refl 1
  turns_le := Nat.le_refl 0

/-- A note of something that renders nothing charges nothing. -/
theorem Charged.note (h : Charged s entry w) (hitems : items.filterMap Item.rendered? = []) :
    Charged s entry (w.note items) :=
  { h with
    visited_eq := by
      rw [Walker.note, Trace.done_append, hitems]
      simpa using h.visited_eq }

/-- A fault charges nothing. -/
theorem Charged.stop (h : Charged s entry w) (f : Fault) : Charged s entry (w.stop f) :=
  { h with }

/-- A block that is rendered pays for its branches with its connections, and for the next turn with
its id. -/
theorem Charged.render (h : Charged s entry w) (hb : b.id ∈ entry.id :: s.blocks.map (·.id))
    (hnew : b.id ∉ w.visited) (hitems : items.filterMap Item.rendered? = [b])
    {pushed : List Block} {next : Option Block}
    (hblocks : ∀ c ∈ next.toList ++ pushed, s.block? c.id = some c)
    (hpushed : pushed.length ≤ (s.targets b.id).length) :
    Charged s entry (w.render b items pushed next) where
  visited_eq := by
    simp only [Walker.render, Walker.note, Trace.done_append, hitems, h.visited_eq, List.map_cons,
      List.map_nil]
  nodup := by
    rw [Walker.render, List.nodup_append]
    refine ⟨h.nodup, List.nodup_singleton _, fun i hi j hj => ?_⟩
    rintro rfl
    exact hnew (List.mem_singleton.1 hj ▸ hi)
  visited_mem i hi := by
    rcases List.mem_append.1 hi with hi | hi
    · exact h.visited_mem i hi
    · exact List.mem_singleton.1 hi ▸ hb
  at_hand c hc := by
    rw [Walker.render, ← List.append_assoc] at hc
    rcases List.mem_append.1 hc with hc | hc
    · exact Script.mem_ids_of_block? (hblocks c hc)
    · exact h.at_hand c (List.mem_append_right _ hc)
  pops_le := by
    have hle := h.pops_le
    simp only [Walker.render, Walker.note, List.length_append, List.map_append, List.sum_append,
      List.map_cons, List.map_nil, List.sum_singleton]
    omega
  turns_le := by
    have hle := h.turns_le
    have hone : next.toList.length ≤ 1 := by cases next <;> simp
    simp only [Walker.render, Walker.note, List.length_append, List.length_singleton]
    omega

/-- A turn stays within the bounds. -/
theorem Charged.turn (h : Charged s entry w) (hb : b.id ∈ entry.id :: s.blocks.map (·.id)) :
    Charged s entry (s.turn w b) := by
  rcases s.turn_cases w b with ⟨-, ht⟩ | ⟨-, f, -, ht⟩ | ⟨hnew, f, -, ht⟩ |
    ⟨hnew, items, pushed, next, he, hpushed, ht⟩
  · exact ht ▸ h.note rfl
  · exact ht ▸ h.stop f
  · exact ht ▸ (h.render hb hnew rfl (by simp) (Nat.zero_le _)).stop f
  · refine ht ▸ h.render hb hnew (Script.rendered?_expand he) (fun c hc => ?_) hpushed
    refine Script.block?_of_expand he ?_
    simpa [Function.comp_def] using hc

/-- A step stays within the bounds. -/
theorem Charged.loopStep (h : Charged s entry w) : Charged s entry (s.loopStep w) := by
  rcases s.loopStep_cases w with ⟨-, ha⟩ | ⟨b, -, hc, ha⟩ | ⟨b, rest, -, hc, hp, ha⟩
  · rwa [ha]
  · have hturns := h.turns_le
    have hb : b ∈ w.current.toList ++ w.pending := by simp [hc]
    rw [hc, Option.toList_some, List.length_singleton] at hturns
    have hrest : Charged s entry { w with current := none, turns := w.turns + 1 } :=
      { h with
        at_hand := fun c hc => h.at_hand c (List.mem_append_right _ hc)
        turns_le := hturns }
    exact ha ▸ hrest.turn (h.at_hand b hb)
  · have hpops := h.pops_le
    have hturns := h.turns_le
    rw [hp, List.length_cons] at hpops
    rw [hc, Option.toList_none, List.length_nil] at hturns
    have hnote := h.note (rfl : [Item.enter b].filterMap Item.rendered? = [])
    refine ha ▸ { hnote with
      at_hand := fun c hmem => h.at_hand c ?_, pops_le := ?_, turns_le := ?_ }
    · simpa [hc, hp] using hmem
    · exact Nat.le_trans (Nat.le_of_eq (Nat.add_right_comm _ _ _)) hpops
    · exact Nat.succ_le_succ hturns

/-- The loops stay within the bounds. -/
theorem charged_iterate (s : Script) (entry : Block) (n : Nat) :
    Charged s entry (s.loopStep^[n] (.start entry)) := by
  induction n with
  | zero => exact charged_start
  | succ n ih =>
    rw [Function.iterate_succ_apply']
    exact ih.loopStep

/-- A turn counts nothing by itself. -/
theorem Script.count_turn (s : Script) (w : Walker) (b : Block) :
    (s.turn w b).pops = w.pops ∧ (s.turn w b).turns = w.turns := by
  rcases s.turn_cases w b with ⟨-, ht⟩ | ⟨-, _, -, ht⟩ | ⟨-, _, -, ht⟩ | ⟨-, _, _, _, -, -, ht⟩ <;>
    exact ht ▸ ⟨rfl, rfl⟩

/-- A step counts as one turn or as one branch. -/
theorem Script.count_loopStep (hw : ¬ w.Halted) :
    (s.loopStep w).pops + (s.loopStep w).turns = w.pops + w.turns + 1 := by
  rcases s.loopStep_cases w with ⟨hhalted, -⟩ | ⟨b, -, -, ha⟩ | ⟨b, rest, -, -, -, ha⟩
  · exact absurd hhalted hw
  · obtain ⟨hpops, hturns⟩ := s.count_turn { w with current := none, turns := w.turns + 1 } b
    rw [ha, hpops, hturns]
    rfl
  · rw [ha]
    exact Nat.add_right_comm _ _ _

/-- As long as the loops have not ended, every step is counted. -/
theorem Script.count_iterate {n : Nat} (h : ∀ m < n, ¬ (s.loopStep^[m] w).Halted) :
    (s.loopStep^[n] w).pops + (s.loopStep^[n] w).turns = w.pops + w.turns + n := by
  induction n with
  | zero => rfl
  | succ n ih =>
    rw [Function.iterate_succ_apply', count_loopStep (h n n.lt_succ_self),
      ih fun m hm => h m (Nat.lt_succ_of_lt hm), Nat.add_assoc]

/-! ## What is done -/

/-- A turn does what the walk does at its block. -/
theorem Script.whole_turn (hf : w.trace.fault = none) (hv : w.visited = w.trace.done)
    (hc : w.current = none) (hb : b.id ∈ ids) : s.whole ids (s.turn w b) =
      w.trace.andThen (s.walkFrom (remaining ids w.trace) (.visit b :: w.pending.map .enter)) := by
  have hfresh : b.id ∈ remaining ids w.trace ↔ b.id ∉ w.visited := by
    simp [remaining, hv, hb]
  rcases s.turn_cases w b with ⟨hseen, ht⟩ | ⟨hnew, f, he, ht⟩ | ⟨hnew, f, he, ht⟩ |
    ⟨hnew, items, pushed, next, he, -, ht⟩
  · rw [ht, walkFrom, if_neg fun hb => hfresh.1 hb hseen, whole, Walker.note,
      Trace.append_andThen hf, remaining_append_of_nil rfl, Walker.tasks, hc]
    rfl
  · rw [ht, walkFrom_visit (hfresh.2 hnew), he, Trace.andThen_of_fault_eq_none hf]
    exact congrArg (Trace.mk · (some f)) (List.append_nil _).symm
  · rw [ht, walkFrom_visit (hfresh.2 hnew), he, Trace.andThen_of_fault_eq_none hf]
    rfl
  · rw [ht, walkFrom_visit (hfresh.2 hnew), he, whole, Walker.render, Walker.note,
      Trace.append_andThen hf, remaining_append (rendered?_expand he), Walker.tasks,
      List.map_append, ← List.append_assoc]

/-- A step does what the walk does next. -/
theorem Script.whole_loopStep (h : Charged s entry w) :
    s.whole (entry.id :: s.blocks.map (·.id)) (s.loopStep w) =
      s.whole (entry.id :: s.blocks.map (·.id)) w := by
  rcases s.loopStep_cases w with ⟨-, ha⟩ | ⟨b, hf, hc, ha⟩ | ⟨b, rest, hf, hc, hp, ha⟩
  · rw [ha]
  · have hb : b ∈ w.current.toList ++ w.pending := by simp [hc]
    have hturn := whole_turn (s := s) (w := { w with current := none, turns := w.turns + 1 }) hf
      h.visited_eq rfl (h.at_hand b hb)
    rw [ha, hturn, whole, Walker.tasks, hc]
    rfl
  · have henter : s.walkFrom (remaining (entry.id :: s.blocks.map (·.id)) w.trace)
        (.enter b :: rest.map .enter) = (s.walkFrom
          (remaining (entry.id :: s.blocks.map (·.id)) w.trace)
          (.visit b :: rest.map .enter)).prepend [.enter b] := by
      rw [walkFrom]
      rfl
    rw [ha, whole, whole, Walker.note, Trace.append_andThen hf, remaining_append_of_nil rfl,
      Walker.tasks, Walker.tasks, hc, hp]
    exact congrArg w.trace.andThen henter.symm

/-- The loops do the walk. -/
theorem Script.whole_iterate (s : Script) (entry : Block) (n : Nat) :
    s.whole (entry.id :: s.blocks.map (·.id)) (s.loopStep^[n] (.start entry)) = s.walk entry := by
  induction n with
  | zero =>
    change s.walkFrom (remaining (entry.id :: s.blocks.map (·.id)) {}) [.enter entry] = _
    rw [remaining_empty, walk]
  | succ n ih => rw [Function.iterate_succ_apply', whole_loopStep (charged_iterate s entry n), ih]

/-- Where the loops have ended, what they have done is the whole. -/
theorem Script.whole_of_halted (hw : w.Halted) : s.whole ids w = w.trace := by
  cases hf : w.trace.fault with
  | some f => simp only [whole, Trace.andThen, hf]
  | none =>
    obtain hsome | ⟨hc, hp⟩ := hw
    · simp [hf] at hsome
    · have htasks : w.tasks = [] := by rw [Walker.tasks, hc, hp]; rfl
      rw [whole, Trace.andThen_of_fault_eq_none hf, htasks, walkFrom, Trace.prepend,
        List.append_nil]
      exact congrArg (Trace.mk w.trace.items) hf.symm

/-- Within the bounds there are no more branches than connections and the entry, no more rendered
ids than the script and the entry have, and no more turns than both together. -/
theorem Charged.bounds (h : Charged s entry w) :
    w.pops ≤ 1 + s.connections.length ∧ w.trace.done.Nodup ∧
      w.trace.done.length ≤ 1 + (s.blocks.map (·.id)).toFinset.card ∧
      w.turns ≤ w.trace.done.length + w.pops := by
  have hpops := h.pops_le
  have hturns := h.turns_le
  have htargets := s.sum_targets_le h.nodup
  have hsub : w.visited.toFinset ⊆ insert entry.id (s.blocks.map (·.id)).toFinset := by
    intro i hi
    have hmem := h.visited_mem i (List.mem_toFinset.1 hi)
    rwa [← List.toFinset_cons, List.mem_toFinset]
  have hcard := (Finset.card_le_card hsub).trans (Finset.card_insert_le _ _)
  rw [List.toFinset_card_of_nodup h.nodup] at hcard
  rw [← h.visited_eq]
  exact ⟨by omega, h.nodup, by omega, by omega⟩

/-- The loops end, and every step that they made is counted. -/
theorem Script.exists_halted (s : Script) (entry : Block) :
    ∃ n, (s.loopStep^[n] (.start entry)).Halted ∧
      (s.loopStep^[n] (.start entry)).pops + (s.loopStep^[n] (.start entry)).turns = n := by
  classical
  have hcount : ∀ n, (∀ m < n, ¬ (s.loopStep^[m] (.start entry)).Halted) →
      (s.loopStep^[n] (.start entry)).pops + (s.loopStep^[n] (.start entry)).turns = n := by
    intro n hn
    rw [count_iterate hn]
    exact Nat.zero_add n
  -- Without an end the counts would outgrow their bounds.
  have hends : ∃ n, (s.loopStep^[n] (.start entry)).Halted := by
    by_contra hnever
    rw [not_exists] at hnever
    let limit := 2 * (1 + s.connections.length) + (1 + (s.blocks.map (·.id)).toFinset.card)
    have hlimit := hcount (limit + 1) fun m _ => hnever m
    obtain ⟨hpops, -, hdone, hturns⟩ := (charged_iterate s entry (limit + 1)).bounds
    omega
  exact ⟨Nat.find hends, Nat.find_spec hends, hcount _ fun m hm => Nat.find_min hends hm⟩

/-- **The walk ends on every graph.** The loops take no more branches off the stack than there are
connections and one for the entry; they render no id twice, so no more blocks than there are
distinct ids and one for the entry; and the inner loop makes no more turns than blocks are rendered
and branches are taken up. So they end, with a text or with a fault, and what they have done then is
the walk that the body is read off. -/
theorem Script.loops_end (s : Script) (host : String) (entry : Block) :
    (∀ n, let w := s.loopStep^[n] (.start entry)
      w.pops ≤ 1 + s.connections.length ∧ w.trace.done.Nodup ∧
      w.trace.done.length ≤ 1 + (s.blocks.map (·.id)).toFinset.card ∧
      w.turns ≤ w.trace.done.length + w.pops) ∧
    ∃ n, let w := s.loopStep^[n] (.start entry)
      w.Halted ∧ w.pops + w.turns = n ∧ w.trace = s.walk entry ∧
      s.compileFrom host entry = w.trace.lines.map (Line.textAll (some host)) := by
  refine ⟨fun n => (charged_iterate s entry n).bounds, ?_⟩
  obtain ⟨n, hhalted, hcount⟩ := s.exists_halted entry
  have htrace : (s.loopStep^[n] (.start entry)).trace = s.walk entry := by
    rw [← s.whole_iterate entry n, whole_of_halted hhalted]
  refine ⟨n, hhalted, hcount, htrace, ?_⟩
  rw [htrace, compileFrom]

end

end CallFlow
