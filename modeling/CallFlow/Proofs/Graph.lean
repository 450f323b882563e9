import CallFlow.Walk
import Mathlib.Logic.Relation

/-!
# The graph that a walk sees

A walk starts at an entry block, which stands for its own id even if the script has another block of
that id, and looks up every other id in the script (`Script.blockFrom`). What it can go on to from
an id is the relation `Script.Leads`, and what can be wrong with an id is `Script.Faulty`; neither
mentions the walk. The lookups of the walk, `Script.branches` and `Script.next`, are read in the
same terms, each by what it takes to succeed and what it takes to fail.
-/

namespace CallFlow

namespace Script

/-- The block of an id on a walk from `entry`: the entry itself for its own id, and the block of the
script for any other. -/
def blockFrom (s : Script) (entry : Block) (i : LocalId) : Option Block :=
  if i = entry.id then some entry else s.block? i

/-- The blocks that the connections out of an id lead to, in the order of the connections. A
connection to an id that no block carries adds nothing. -/
def arms (s : Script) (i : LocalId) : List Block :=
  (s.targets i).filterMap s.block?

/-- The first id that a connection out of `i` leads to and no block carries. -/
def dangling? (s : Script) (i : LocalId) : Option LocalId :=
  (s.targets i).find? fun j => (s.block? j).isNone

/-- The first id that a connection out of `i` leads to and that is the id of a default. -/
def default? (s : Script) (i : LocalId) : Option LocalId :=
  (s.targets i).find? fun j => (s.block? j).any Block.isDefault

/-- Where a walk from `entry` can go on to. A block that is no switch leads along its first
connection; a switch leads to its cases and to its first default. -/
inductive Leads (s : Script) (entry : Block) : LocalId → LocalId → Prop
  | next : s.blockFrom entry i = some b → b.isSwitch = false → (s.targets i).head? = some j →
      Leads s entry i j
  | «case» : s.blockFrom entry i = some b → b.isSwitch = true → j ∈ s.targets i →
      s.block? j = some c → c.isCase = true → Leads s entry i j
  | default : s.blockFrom entry i = some b → b.isSwitch = true → s.default? i = some j →
      Leads s entry i j

/-- What is wrong with an id on a walk from `entry`. A block that is no switch needs a block behind
its first connection; a switch needs one behind every connection, and a default among them. -/
inductive Faulty (s : Script) (entry : Block) : LocalId → Fault → Prop
  | next : s.blockFrom entry i = some b → b.isSwitch = false → (s.targets i).head? = some j →
      s.block? j = none → Faulty s entry i (.noBlock j)
  | target : s.blockFrom entry i = some b → b.isSwitch = true → s.dangling? i = some j →
      Faulty s entry i (.noBlock j)
  | noDefault : s.blockFrom entry i = some b → b.isSwitch = true → s.dangling? i = none →
      s.default? i = none → Faulty s entry i (.noDefault i)

/-- Where a walk from `entry` goes on to when nothing is wrong with the switches on its way. -/
def Passes (s : Script) (entry : Block) (i j : LocalId) : Prop :=
  s.Leads entry i j ∧
    ∀ b, s.blockFrom entry i = some b → b.isSwitch = true → ∀ f, ¬ s.Faulty entry i f

section
variable {s : Script} {entry b c : Block} {i j : LocalId}

/-! ## Lookups -/

/-- The entry stands for its own id. -/
@[simp] theorem blockFrom_entry : s.blockFrom entry entry.id = some entry :=
  if_pos rfl

/-- Every other id is looked up in the script. -/
theorem blockFrom_of_ne (h : i ≠ entry.id) : s.blockFrom entry i = s.block? i :=
  if_neg h

/-- The block of an id on a walk has that id. -/
theorem id_of_blockFrom (h : s.blockFrom entry i = some b) : b.id = i := by
  by_cases hi : i = entry.id
  · subst hi
    cases blockFrom_entry.symm.trans h
    rfl
  · exact id_of_block? ((blockFrom_of_ne hi).symm.trans h)

/-- An arm is the block of one of the targets. -/
theorem mem_arms : c ∈ s.arms i ↔ c.id ∈ s.targets i ∧ s.block? c.id = some c := by
  rw [arms, List.mem_filterMap]
  constructor
  · rintro ⟨j, hj, hc⟩
    obtain rfl := id_of_block? hc
    exact ⟨hj, hc⟩
  · rintro ⟨hj, hc⟩
    exact ⟨c.id, hj, hc⟩

/-- The first default is a block of the script. -/
theorem exists_of_default? (h : s.default? i = some j) :
    ∃ d, s.block? j = some d ∧ d.isDefault = true :=
  (Option.any_eq_true _ _).1
    (List.find?_some (p := fun j => (s.block? j).any Block.isDefault) h)

/-- The first default among the arms is the block of the first target that is a default. -/
theorem find?_isDefault_arms {d : Block} : (s.arms i).find? Block.isDefault = some d ↔
    s.default? i = some d.id ∧ s.block? d.id = some d := by
  rw [arms, List.find?_filterMap, ← default?, Option.bind_eq_some_iff]
  constructor
  · rintro ⟨j, hj, hd⟩
    obtain rfl := id_of_block? hd
    exact ⟨hj, hd⟩
  · rintro ⟨hj, hd⟩
    exact ⟨d.id, hj, hd⟩

/-- There is no default among the arms when no target is one. -/
theorem find?_isDefault_arms_eq_none :
    (s.arms i).find? Block.isDefault = none ↔ s.default? i = none := by
  rw [Option.eq_none_iff_forall_ne_some, Option.eq_none_iff_forall_ne_some]
  constructor
  · intro h j hj
    obtain ⟨d, hd, -⟩ := exists_of_default? hj
    obtain rfl := id_of_block? hd
    exact h d (find?_isDefault_arms.2 ⟨hj, hd⟩)
  · intro h d hd
    exact h d.id (find?_isDefault_arms.1 hd).1

/-! ## The lookups of the walk -/

/-- Following a list of connections fails at the first that leads to no block. -/
theorem mapM_follow (is : List LocalId) : is.mapM s.follow =
    match is.find? fun j => (s.block? j).isNone with
    | some j => .error (.noBlock j)
    | none => .ok (is.filterMap s.block?) := by
  induction is with
  | nil => rfl
  | cons j is ih =>
    rw [List.mapM_cons, ih]
    cases hj : s.block? j with
    | none => simp [follow, hj, bind, Except.bind]
    | some c =>
      simp only [follow, hj, List.find?_cons, List.filterMap_cons, Option.isNone_some]
      cases is.find? fun j => (s.block? j).isNone <;> rfl

/-- Where a switch leads, in terms of its arms. -/
theorem branches_eq : s.branches b =
    match s.dangling? b.id with
    | some j => .error (.noBlock j)
    | none =>
      match (s.arms b.id).find? Block.isDefault with
      | some d => .ok ((s.arms b.id).filter Block.isCase, d)
      | none => .error (.noDefault b.id) := by
  rw [branches, mapM_follow, ← dangling?, ← arms]
  cases s.dangling? b.id <;> rfl

/-- A switch has branches when no connection dangles and one leads to a default. -/
theorem branches_eq_ok {cs : List Block} {d : Block} : s.branches b = .ok (cs, d) ↔
    s.dangling? b.id = none ∧ (s.arms b.id).filter Block.isCase = cs ∧
      s.default? b.id = some d.id ∧ s.block? d.id = some d := by
  rw [branches_eq, ← find?_isDefault_arms]
  cases s.dangling? b.id with
  | some j => simp
  | none => cases (s.arms b.id).find? Block.isDefault <;> simp

/-- A switch has no branches when a connection dangles or, failing that, none leads to a default. -/
theorem branches_eq_error {f : Fault} : s.branches b = .error f ↔
    (∃ j, s.dangling? b.id = some j ∧ f = .noBlock j) ∨
      s.dangling? b.id = none ∧ s.default? b.id = none ∧ f = .noDefault b.id := by
  rw [branches_eq, ← find?_isDefault_arms_eq_none]
  cases s.dangling? b.id with
  | some j => simp [eq_comm]
  | none => cases (s.arms b.id).find? Block.isDefault <;> simp [eq_comm]

/-- Where a block that is no switch leads, in terms of its first target. -/
theorem next_eq : s.next b =
    match (s.targets b.id).head? with
    | none => .ok none
    | some j =>
      match s.block? j with
      | some c => .ok (some c)
      | none => .error (.noBlock j) := by
  unfold next
  cases s.targets b.id with
  | nil => rfl
  | cons j js =>
    simp only [follow, List.head?_cons]
    cases s.block? j <;> rfl

/-- A block leads nowhere when it has no connection. -/
theorem next_eq_ok_none : s.next b = .ok none ↔ (s.targets b.id).head? = none := by
  rw [next_eq]
  cases (s.targets b.id).head? with
  | none => simp
  | some j => cases hj : s.block? j <;> simp [hj]

/-- A block leads to the block of its first target. -/
theorem next_eq_ok_some : s.next b = .ok (some c) ↔
    (s.targets b.id).head? = some c.id ∧ s.block? c.id = some c := by
  rw [next_eq]
  constructor
  · intro h
    split at h
    · cases h
    · next j hj =>
      split at h
      · next c' hc =>
        cases h
        obtain rfl := id_of_block? hc
        exact ⟨hj, hc⟩
      · cases h
  · rintro ⟨hj, hc⟩
    simp only [hj, hc]

/-- A block is left without a way on when its first target has no block. -/
theorem next_eq_error {f : Fault} : s.next b = .error f ↔
    ∃ j, (s.targets b.id).head? = some j ∧ s.block? j = none ∧ f = .noBlock j := by
  rw [next_eq]
  cases (s.targets b.id).head? with
  | none => simp
  | some j => cases hj : s.block? j <;> simp [hj, eq_comm]

end

end Script

end CallFlow
