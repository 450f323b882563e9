import CallFlow.Proofs.Graph

/-!
# Walks, step by step

`Script.expand` says once what rendering a block comes to: what is done, and what is left to do or
what is wrong. A walk is then a derivation of `Walked`, which has one rule for each thing that a
step can do; `Walked.eq` and `walked_walkFrom` tie it to `Script.walkFrom`. What is proved of walks
is proved by induction on `Walked`. The work of a list of tasks is done before that of the tasks
behind it (`Walked.append`), so a task list behaves like a continuation.
-/

namespace CallFlow

namespace Item

/-- The block that an item renders. -/
def rendered? : Item → Option Block
  | .plain b | .fork b _ _ => some b
  | _ => none

end Item

namespace Trace

/-- The blocks that are rendered on a walk, in order. -/
def rendered (t : Trace) : List Block :=
  t.items.filterMap Item.rendered?

/-- The ids that are rendered on a walk, in order. -/
def done (t : Trace) : List LocalId :=
  t.rendered.map (·.id)

/-- The trace with more items in front. -/
def prepend (items : List Item) (t : Trace) : Trace :=
  { t with items := items ++ t.items }

/-- One trace behind another. Nothing comes behind a fault. -/
def andThen (t u : Trace) : Trace :=
  match t.fault with
  | some _ => t
  | none => u.prepend t.items

section
variable {t u : Trace} {i : Item} {items : List Item}

@[simp] theorem fault_cons : (t.cons i).fault = t.fault := rfl

@[simp] theorem fault_prepend : (t.prepend items).fault = t.fault := rfl

@[simp] theorem items_prepend : (t.prepend items).items = items ++ t.items := rfl

@[simp] theorem rendered_empty : ({} : Trace).rendered = [] := rfl

theorem rendered_prepend :
    (t.prepend items).rendered = items.filterMap Item.rendered? ++ t.rendered := by
  simp [rendered]

/-- An id is done when a block of that id is rendered. -/
theorem mem_done {j : LocalId} : j ∈ t.done ↔ ∃ b ∈ t.rendered, b.id = j :=
  List.mem_map

theorem cons_andThen : (t.cons i).andThen u = (t.andThen u).cons i := by
  unfold andThen
  rw [fault_cons]
  cases t.fault <;> rfl

theorem prepend_andThen : (t.prepend items).andThen u = (t.andThen u).prepend items := by
  unfold andThen
  rw [fault_prepend]
  cases t.fault with
  | none => simp [prepend]
  | some f => rfl

/-- Behind a walk without a fault the items follow, and the fault is that of what follows. -/
theorem andThen_of_fault_eq_none (h : t.fault = none) : t.andThen u = u.prepend t.items := by
  simp [andThen, h]

/-- Two walks in a row meet no fault when neither does. -/
theorem fault_andThen_eq_none :
    (t.andThen u).fault = none ↔ t.fault = none ∧ u.fault = none := by
  unfold andThen
  cases h : t.fault <;> simp [h]

end

end Trace

namespace Task

/-- The block that a task is about. -/
def block : Task → Block
  | .enter b | .visit b => b

@[simp] theorem block_enter {b : Block} : (Task.enter b).block = b := rfl

@[simp] theorem block_visit {b : Block} : (Task.visit b).block = b := rfl

/-- To take up a block's branch is a task about that block. -/
@[simp] theorem block_comp_enter : Task.block ∘ Task.enter = id := rfl

end Task

namespace Script

/-- What rendering a block comes to: the items, and the tasks that are left or the fault. -/
def expand (s : Script) (b : Block) : List Item × Except Fault (List Task) :=
  if b.isSwitch then
    match s.branches b with
    | .error f => ([], .error f)
    | .ok (cases, d) => ([.fork b cases d], .ok (.enter d :: cases.reverse.map .enter))
  else
    match s.next b with
    | .error f => ([.plain b], .error f)
    | .ok none => ([.plain b, .finish], .ok [])
    | .ok (some c) => ([.plain b], .ok [.visit c])

end Script

/-- The ids of `fresh` that are not rendered on a walk. -/
def remaining (fresh : List LocalId) (t : Trace) : List LocalId :=
  fresh.filter (· ∉ t.done)

/-- A walk, one rule for each step: a branch is taken up; a branch ends at an id that is rendered; a
fault stops the walk; a block is rendered and its tasks are put in front. -/
inductive Walked (s : Script) : List LocalId → List Task → Trace → Prop
  | nil : Walked s fresh [] {}
  | enter : Walked s fresh (.visit b :: rest) t →
      Walked s fresh (.enter b :: rest) (.cons (.enter b) t)
  | rejoin : b.id ∉ fresh → Walked s fresh rest t →
      Walked s fresh (.visit b :: rest) (.cons (.rejoin b) t)
  | stop : b.id ∈ fresh → s.expand b = (items, .error f) →
      Walked s fresh (.visit b :: rest) ⟨items, some f⟩
  | go : b.id ∈ fresh → s.expand b = (items, .ok tasks) →
      Walked s (without fresh b.id) (tasks ++ rest) t →
      Walked s fresh (.visit b :: rest) (t.prepend items)

section
variable {s : Script} {entry b c : Block} {fresh : List LocalId} {tasks us : List Task}
  {t u : Trace} {items : List Item} {j : LocalId} {f : Fault}

/-! ## Expansion -/

/-- Everything that rendering a block can come to when nothing is wrong with it: a switch forks, and
any other block finishes its branch or goes on with it. -/
theorem Script.expand_ok_cases (h : s.expand b = (items, .ok tasks)) :
    (∃ cases d, b.isSwitch = true ∧ s.branches b = .ok (cases, d) ∧ items = [.fork b cases d] ∧
      tasks = .enter d :: cases.reverse.map .enter) ∨
    (b.isSwitch = false ∧ s.next b = .ok none ∧ items = [.plain b, .finish] ∧ tasks = []) ∨
    (∃ c, b.isSwitch = false ∧ s.next b = .ok (some c) ∧ items = [.plain b] ∧
      tasks = [.visit c]) := by
  unfold Script.expand at h
  cases hb : b.isSwitch with
  | true =>
    rw [hb, if_pos rfl] at h
    cases hs : s.branches b with
    | error f => simp [hs] at h
    | ok p =>
      obtain ⟨cases, d⟩ := p
      simp only [hs, Prod.mk.injEq, Except.ok.injEq] at h
      exact .inl ⟨cases, d, rfl, rfl, h.1.symm, h.2.symm⟩
  | false =>
    rw [hb, if_neg Bool.false_ne_true] at h
    rcases hs : s.next b with f | _ | c
    · simp [hs] at h
    · simp only [hs, Prod.mk.injEq, Except.ok.injEq] at h
      exact .inr (.inl ⟨rfl, rfl, h.1.symm, h.2.symm⟩)
    · simp only [hs, Prod.mk.injEq, Except.ok.injEq] at h
      exact .inr (.inr ⟨c, rfl, rfl, h.1.symm, h.2.symm⟩)

/-- Everything that rendering a block can come to when something is wrong with it. -/
theorem Script.expand_error_cases (h : s.expand b = (items, .error f)) :
    (b.isSwitch = true ∧ s.branches b = .error f ∧ items = []) ∨
    (b.isSwitch = false ∧ s.next b = .error f ∧ items = [.plain b]) := by
  unfold Script.expand at h
  cases hb : b.isSwitch with
  | true =>
    rw [hb, if_pos rfl] at h
    cases hs : s.branches b with
    | error g =>
      simp only [hs, Prod.mk.injEq, Except.error.injEq] at h
      exact .inl ⟨rfl, by rw [h.2], h.1.symm⟩
    | ok p => simp [hs] at h
  | false =>
    rw [hb, if_neg Bool.false_ne_true] at h
    rcases hs : s.next b with g | _ | c
    · simp only [hs, Prod.mk.injEq, Except.error.injEq] at h
      exact .inr ⟨rfl, by rw [h.2], h.1.symm⟩
    · simp [hs] at h
    · simp [hs] at h

/-- An expansion renders its block and nothing else. -/
theorem Script.rendered?_expand (h : s.expand b = (items, .ok tasks)) :
    items.filterMap Item.rendered? = [b] := by
  rcases expand_ok_cases h with ⟨_, _, -, -, rfl, -⟩ | ⟨-, -, rfl, -⟩ | ⟨_, -, -, rfl, -⟩ <;> rfl

/-- An expansion in front of a trace adds its block to what is rendered. -/
theorem Script.rendered_prepend (h : s.expand b = (items, .ok tasks)) :
    (t.prepend items).rendered = b :: t.rendered := by
  rw [Trace.rendered_prepend, rendered?_expand h, List.singleton_append]

/-- An expansion in front of a trace adds its id to what is done. -/
theorem Script.done_prepend (h : s.expand b = (items, .ok tasks)) :
    (t.prepend items).done = b.id :: t.done := by
  rw [Trace.done, rendered_prepend h, List.map_cons, Trace.done]

/-- An id that is rendered behind a block unless it is the block's own is rendered with the block.
-/
theorem Script.mem_done_prepend (h : s.expand b = (items, .ok tasks)) (hj : j ∈ fresh)
    (hdone : j ∈ without fresh b.id → j ∈ t.done) : j ∈ (t.prepend items).done := by
  rw [done_prepend h, List.mem_cons]
  by_cases hid : j = b.id
  · exact .inl hid
  · exact .inr (hdone (mem_without.2 ⟨hj, hid⟩))

/-- The tasks of an expansion are about blocks of the script. -/
theorem Script.block?_of_expand (h : s.expand b = (items, .ok tasks))
    (hc : c ∈ tasks.map Task.block) : s.block? c.id = some c := by
  rcases expand_ok_cases h with ⟨cs, d, -, hs, -, rfl⟩ | ⟨-, -, -, rfl⟩ | ⟨c', -, hn, -, rfl⟩
  · obtain ⟨-, rfl, -, hd⟩ := branches_eq_ok.1 hs
    simp only [List.map_cons, List.map_map, Task.block_comp_enter, List.map_id, List.mem_cons,
      List.mem_reverse, List.mem_filter, mem_arms] at hc
    rcases hc with rfl | ⟨⟨-, hc⟩, -⟩
    · exact hd
    · exact hc
  · cases hc
  · obtain rfl := List.mem_singleton.1 hc
    exact (next_eq_ok_some.1 hn).2

/-- An id leads to the ids of the tasks of its block's expansion. -/
theorem Script.leads_iff_of_expand (hb : s.blockFrom entry b.id = some b)
    (h : s.expand b = (items, .ok tasks)) :
    s.Leads entry b.id j ↔ ∃ c ∈ tasks.map Task.block, c.id = j := by
  have hu : ∀ {c}, s.blockFrom entry b.id = some c → c = b := fun hc =>
    Option.some_inj.1 (hc.symm.trans hb)
  rcases expand_ok_cases h with ⟨cs, d, hsw, hs, -, rfl⟩ | ⟨hsw, hn, -, rfl⟩ | ⟨c, hsw, hn, -, rfl⟩
  · obtain ⟨-, rfl, hd, -⟩ := branches_eq_ok.1 hs
    simp only [List.map_cons, List.map_map, Task.block_comp_enter, List.map_id, List.mem_cons,
      List.mem_reverse, List.mem_filter, mem_arms]
    constructor
    · intro hl
      cases hl with
      | next hc hsw' _ => simp [hu hc, hsw] at hsw'
      | «case» _ _ hj hc hcase =>
        obtain rfl := id_of_block? hc
        exact ⟨_, .inr ⟨⟨hj, hc⟩, hcase⟩, rfl⟩
      | default _ _ hj =>
        rw [hd] at hj
        exact ⟨d, .inl rfl, Option.some_inj.1 hj⟩
    · rintro ⟨c, rfl | ⟨⟨hj, hc⟩, hcase⟩, rfl⟩
      · exact .default hb hsw hd
      · exact .case hb hsw hj hc hcase
  · constructor
    · intro hl
      cases hl with
      | next _ _ hj => rw [next_eq_ok_none.1 hn] at hj; cases hj
      | «case» hc hsw' => simp [hu hc, hsw] at hsw'
      | default hc hsw' => simp [hu hc, hsw] at hsw'
    · rintro ⟨c, hc, -⟩
      cases hc
  · constructor
    · intro hl
      cases hl with
      | next _ _ hj =>
        rw [(next_eq_ok_some.1 hn).1] at hj
        exact ⟨c, List.mem_singleton_self _, Option.some_inj.1 hj⟩
      | «case» hc hsw' => simp [hu hc, hsw] at hsw'
      | default hc hsw' => simp [hu hc, hsw] at hsw'
    · rintro ⟨c', hc, rfl⟩
      obtain rfl := List.mem_singleton.1 hc
      exact .next hb hsw (next_eq_ok_some.1 hn).1

/-- What is wrong with an id is the fault of its block's expansion. -/
theorem Script.faulty_iff (hb : s.blockFrom entry b.id = some b) :
    s.Faulty entry b.id f ↔ (s.expand b).2 = .error f := by
  have hu : ∀ {c}, s.blockFrom entry b.id = some c → c = b := fun hc =>
    Option.some_inj.1 (hc.symm.trans hb)
  constructor
  · intro hf
    unfold expand
    cases hf with
    | next hc hsw hj hn =>
      obtain rfl := hu hc
      simp [hsw, next_eq_error.2 ⟨_, hj, hn, rfl⟩]
    | target hc hsw hd =>
      obtain rfl := hu hc
      simp [hsw, branches_eq_error.2 (.inl ⟨_, hd, rfl⟩)]
    | noDefault hc hsw hd hn =>
      obtain rfl := hu hc
      simp [hsw, branches_eq_error.2 (.inr ⟨hd, hn, rfl⟩)]
  · intro he
    rcases expand_error_cases (Prod.ext rfl he) with ⟨hsw, hs, -⟩ | ⟨hsw, hn, -⟩
    · rcases branches_eq_error.1 hs with ⟨j, hj, rfl⟩ | ⟨hd, hn, rfl⟩
      · exact .target hb hsw hj
      · exact .noDefault hb hsw hd hn
    · obtain ⟨j, hj, hnone, rfl⟩ := next_eq_error.1 hn
      exact .next hb hsw hj hnone

/-! ## Walks -/

/-- Visiting a block that is not yet rendered renders it, and then does its tasks. -/
theorem Script.walkFrom_visit {rest : List Task} (h : b.id ∈ fresh) :
    s.walkFrom fresh (.visit b :: rest) =
      match s.expand b with
      | (items, .error f) => ⟨items, some f⟩
      | (items, .ok tasks) => (s.walkFrom (without fresh b.id) (tasks ++ rest)).prepend items := by
  rw [walkFrom, if_pos h]
  unfold expand
  cases b.isSwitch with
  | true => rcases s.branches b with f | ⟨cases, d⟩ <;> rfl
  | false => rcases s.next b with f | _ | c <;> rfl

/-- `walkFrom` walks. -/
theorem walked_walkFrom (s : Script) (fresh : List LocalId) (tasks : List Task) :
    Walked s fresh tasks (s.walkFrom fresh tasks) := by
  fun_induction Script.walkFrom s fresh tasks with
  | case1 => exact .nil
  | case2 fresh b rest ih => exact .enter ih
  | case3 fresh b rest hb hs f hf =>
    have he : s.expand b = ([], .error f) := by simp [Script.expand, hs, hf]
    exact .stop hb he
  | case4 fresh b rest hb hs cases d hd ih =>
    have he : s.expand b = ([.fork b cases d], .ok (.enter d :: cases.reverse.map .enter)) := by
      simp [Script.expand, hs, hd]
    exact .go hb he ih
  | case5 fresh b rest hb hs f hf =>
    have he : s.expand b = ([.plain b], .error f) := by simp [Script.expand, hs, hf]
    exact .stop hb he
  | case6 fresh b rest hb hs hn ih =>
    have he : s.expand b = ([.plain b, .finish], .ok []) := by simp [Script.expand, hs, hn]
    exact .go hb he ih
  | case7 fresh b rest hb hs c hc ih =>
    have he : s.expand b = ([.plain b], .ok [.visit c]) := by simp [Script.expand, hs, hc]
    exact .go hb he ih
  | case8 fresh b rest hb ih => exact .rejoin hb ih

/-- A walk is what `walkFrom` gives. -/
theorem Walked.eq (h : Walked s fresh tasks t) : t = s.walkFrom fresh tasks := by
  induction h with
  | nil => rw [Script.walkFrom]
  | enter _ ih => rw [Script.walkFrom, ← ih]
  | rejoin hb _ ih => rw [Script.walkFrom, if_neg hb, ← ih]
  | stop hb he => rw [Script.walkFrom_visit hb, he]
  | go hb he _ ih => rw [Script.walkFrom_visit hb, he, ih]

/-- Nothing is rendered on the empty walk, so everything remains. -/
theorem remaining_empty : remaining fresh {} = fresh :=
  List.filter_eq_self.2 (by simp [Trace.done])

/-- What remains after a block and a walk is what remains of the other ids after the walk. -/
theorem remaining_prepend (h : s.expand b = (items, .ok tasks)) :
    remaining fresh (t.prepend items) = remaining (without fresh b.id) t := by
  unfold remaining without
  rw [List.filter_filter]
  congr 1
  funext j
  rw [Script.done_prepend h]
  simp [Bool.and_comm]

/-- The work of the tasks in front is done first, and the tasks behind find what it left. -/
theorem Walked.append (h : Walked s fresh tasks t) (hu : Walked s (remaining fresh t) us u) :
    Walked s fresh (tasks ++ us) (t.andThen u) := by
  induction h with
  | nil => rwa [remaining_empty] at hu
  | enter _ ih =>
    rw [Trace.cons_andThen]
    exact .enter (ih hu)
  | rejoin hb _ ih =>
    rw [Trace.cons_andThen]
    exact .rejoin hb (ih hu)
  | stop hb he => exact .stop hb he
  | go hb he _ ih =>
    rw [Trace.prepend_andThen]
    rw [remaining_prepend he] at hu
    have := ih hu
    rw [List.append_assoc] at this
    exact .go hb he this

end

end CallFlow
