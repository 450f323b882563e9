import CallFlow.Proofs.Coverage
import Mathlib.Data.List.Find
import Mathlib.Data.Set.Function

/-!
# Scripts up to the names of their blocks

The body of a script depends on the graph that a call can reach and not on how its ids are chosen. A
script is `Renamed` to another by a map of ids when the map takes where calls enter, and what a call
looks up at every block in reach, to those of the other script; what the map does elsewhere, and
what else either script holds, does not count. A walk over the one is then the renamed walk over the
other (`Walked.rename`): expansions correspond (`Script.Renamed.expand`), and since the map keeps
ids in reach apart, an id is still to be rendered on the one walk exactly when its image is on the
other (`InStep`). Lines name blocks by their labels, so the two bodies read the same
(`Trace.text_rename`).
-/

namespace CallFlow

open Relation

/-! ## Renaming -/

/-- The block with its id mapped. -/
def Block.rename (f : LocalId → LocalId) (b : Block) : Block :=
  { b with id := f b.id }

/-- Those of the targets of its connections that a call looks up as it leaves the block: all of a
switch, and the first of any other block. -/
def Block.lookups (b : Block) (targets : List LocalId) : List LocalId :=
  if b.isSwitch then targets else targets.take 1

/-- The fault with the id that it names mapped. -/
def Fault.rename (f : LocalId → LocalId) : Fault → Fault
  | .noStart => .noStart
  | .noBlock i => .noBlock (f i)
  | .noDefault i => .noDefault (f i)

/-- The item with the ids of its blocks mapped. -/
def Item.rename (f : LocalId → LocalId) : Item → Item
  | .enter b => .enter (b.rename f)
  | .plain b => .plain (b.rename f)
  | .fork b cases d => .fork (b.rename f) (cases.map (Block.rename f)) (d.rename f)
  | .rejoin b => .rejoin (b.rename f)
  | .finish => .finish

/-- The task with the id of its block mapped. -/
def Task.rename (f : LocalId → LocalId) : Task → Task
  | .enter b => .enter (b.rename f)
  | .visit b => .visit (b.rename f)

/-- The trace with all ids mapped. -/
def Trace.rename (f : LocalId → LocalId) (t : Trace) : Trace :=
  ⟨t.items.map (Item.rename f), t.fault.map (Fault.rename f)⟩

/-- The line with the id of its block mapped. -/
def Line.rename (f : LocalId → LocalId) : Line → Line
  | .header b => .header (b.rename f)
  | .jumpIf test b => .jumpIf test (b.rename f)
  | .jump b => .jump (b.rename f)
  | .hangup => .hangup

/-- A result with all ids mapped: those of what it holds by `g`, and that of its fault. -/
def renameResult {α β : Type} (f : LocalId → LocalId) (g : α → β) (r : Except Fault α) :
    Except Fault β :=
  (r.map g).mapError (Fault.rename f)

namespace Script

/-- The ids that a call can reach from where it enters the script. -/
def reach (s : Script) : Set LocalId :=
  {i | ∃ entry, s.start? = some entry ∧ ReflTransGen (s.Leads entry) entry.id i}

/-- The blocks that a call can reach from where it enters the script. -/
def reachedBlocks (s : Script) : Set Block :=
  {b | ∃ entry, s.start? = some entry ∧ ReflTransGen (s.Leads entry) entry.id b.id ∧
    s.blockFrom entry b.id = some b}

/-- The script `s'` is `s` with the ids in reach renamed by `f`: calls enter at the same block, and
what they look up at a block in reach are the same ids in the same order, with the same blocks
behind them or none. -/
structure Renamed (s : Script) (f : LocalId → LocalId) (s' : Script) : Prop where
  injOn : Set.InjOn f s.reach
  start? : s'.start? = s.start?.map (Block.rename f)
  lookups : ∀ b ∈ s.reachedBlocks,
    b.lookups (s'.targets (f b.id)) = (b.lookups (s.targets b.id)).map f
  block? : ∀ b ∈ s.reachedBlocks, ∀ j ∈ b.lookups (s.targets b.id),
    s'.block? (f j) = (s.block? j).map (Block.rename f)

end Script

section
variable {s s' : Script} {f : LocalId → LocalId} {entry b : Block}
  {fresh fresh' : List LocalId} {tasks : List Task} {t : Trace} {i j : LocalId}
  {host : Option String}

@[simp] theorem Block.id_rename : (b.rename f).id = f b.id := rfl

@[simp] theorem Block.kind_rename : (b.rename f).kind = b.kind := rfl

@[simp] theorem Block.isSwitch_rename : (b.rename f).isSwitch = b.isSwitch := rfl

theorem Block.lookups_of_isSwitch (h : b.isSwitch = true) (is : List LocalId) :
    b.lookups is = is :=
  if_pos h

theorem Block.lookups_of_not_isSwitch (h : b.isSwitch = false) (is : List LocalId) :
    b.lookups is = is.head?.toList := by
  rw [lookups, h]
  cases is <;> rfl

/-- What a call looks up at renamed targets is what it looks up, renamed. -/
theorem Block.lookups_map (is : List LocalId) : b.lookups (is.map f) = (b.lookups is).map f := by
  unfold lookups
  rw [List.map_take.symm, apply_ite (List.map f)]

/-- A call looks up targets only. -/
theorem Block.lookups_subset (is : List LocalId) : b.lookups is ⊆ is := by
  unfold lookups
  split
  · exact List.Subset.refl is
  · exact List.take_subset 1 is

theorem Block.isDefault_comp_rename : Block.isDefault ∘ Block.rename f = Block.isDefault := rfl

/-! ## Texts -/

/-- The lines of a renamed block are its renamed lines. -/
theorem Block.lines_rename (cs : List Block) :
    (b.rename f).lines (cs.map (Block.rename f)) = (b.lines cs).map (Line.rename f) := by
  unfold lines
  rw [List.map_cons]
  congr 1
  rw [kind_rename]
  cases b.kind.test? with
  | none => rfl
  | some test =>
    dsimp only
    rw [List.map_map, List.map_map]
    rfl

/-- The lines of a renamed item are its renamed lines. -/
theorem Item.lines_rename (i : Item) : (i.rename f).lines = i.lines.map (Line.rename f) := by
  cases i with
  | enter b | rejoin b | finish => rfl
  | plain b => exact Block.lines_rename []
  | fork b cs d => exact Block.lines_rename cs

/-- A line names its blocks by their labels, so its text does not show their ids. -/
theorem Line.text_rename (l : Line) : (l.rename f).text host = l.text host := by
  cases l <;> rfl

/-- A renamed trace has the same text, or the renamed fault. -/
theorem Trace.text_rename : (t.rename f).lines.map (Line.textAll host) =
    (t.lines.map (Line.textAll host)).mapError (Fault.rename f) := by
  have htext : Line.textAll host ((t.items.map (Item.rename f)).flatMap Item.lines) =
      Line.textAll host (t.items.flatMap Item.lines) := by
    unfold Line.textAll
    rw [List.flatMap_map, List.map_flatMap, List.map_flatMap]
    congr 2
    funext i
    rw [Item.lines_rename, List.map_map]
    exact List.map_congr_left fun l _ => l.text_rename
  unfold lines rename
  cases t.fault with
  | none => exact congrArg Except.ok htext
  | some f => rfl

/-! ## Expansions -/

namespace Script

/-- The targets of a renamed switch are the renamed targets, with the renamed blocks behind them. -/
theorem Renamed.targets (hr : s.Renamed f s') (hb : b ∈ s.reachedBlocks) (hsw : b.isSwitch = true) :
    s'.targets (f b.id) = (s.targets b.id).map f ∧
      ∀ j ∈ s.targets b.id, s'.block? (f j) = (s.block? j).map (Block.rename f) := by
  have htargets := hr.lookups b hb
  have hblock := hr.block? b hb
  rw [Block.lookups_of_isSwitch hsw, Block.lookups_of_isSwitch hsw] at htargets
  rw [Block.lookups_of_isSwitch hsw] at hblock
  exact ⟨htargets, hblock⟩

/-- The first target of a renamed block that is no switch is the renamed first target, with the
renamed block behind it. -/
theorem Renamed.head? (hr : s.Renamed f s') (hb : b ∈ s.reachedBlocks) (hsw : b.isSwitch = false) :
    (s'.targets (f b.id)).head? = (s.targets b.id).head?.map f ∧
      ∀ j, (s.targets b.id).head? = some j →
        s'.block? (f j) = (s.block? j).map (Block.rename f) := by
  have hfirst := Block.lookups_of_not_isSwitch hsw
  have hhead := congrArg List.head? (hr.lookups b hb)
  rw [hfirst, hfirst, List.head?_map, Option.head?_toList, Option.head?_toList] at hhead
  refine ⟨hhead, fun j hj => hr.block? b hb j ?_⟩
  rw [hfirst, hj]
  exact List.mem_singleton_self j

/-- A renamed switch branches to the renamed blocks. -/
theorem Renamed.branches (hr : s.Renamed f s') (hb : b ∈ s.reachedBlocks)
    (hsw : b.isSwitch = true) : s'.branches (b.rename f) =
      renameResult f (Prod.map (List.map (Block.rename f)) (Block.rename f)) (s.branches b) := by
  obtain ⟨htargets, hblock⟩ := hr.targets hb hsw
  have hdangling : s'.dangling? (f b.id) = (s.dangling? b.id).map f := by
    unfold Script.dangling?
    rw [htargets, List.find?_map]
    congr 1
    refine List.find?_congr fun j hj => ?_
    rw [Function.comp_apply, hblock j hj, Option.isNone_map]
  have harms : s'.arms (f b.id) = (s.arms b.id).map (Block.rename f) := by
    unfold Script.arms
    rw [htargets, List.filterMap_map, List.map_filterMap]
    exact List.filterMap_congr hblock
  rw [branches_eq, branches_eq, Block.id_rename, hdangling, harms, List.find?_map, List.filter_map]
  cases s.dangling? b.id with
  | some j => rfl
  | none =>
    rw [Block.isDefault_comp_rename]
    cases (s.arms b.id).find? Block.isDefault <;> rfl

/-- A renamed block that is no switch goes on to the renamed block. -/
theorem Renamed.next (hr : s.Renamed f s') (hb : b ∈ s.reachedBlocks) (hsw : b.isSwitch = false) :
    s'.next (b.rename f) = renameResult f (Option.map (Block.rename f)) (s.next b) := by
  obtain ⟨hhead, hblock⟩ := hr.head? hb hsw
  rw [next_eq, next_eq, Block.id_rename, hhead]
  cases hj : (s.targets b.id).head? with
  | none => rfl
  | some j =>
    rw [Option.map_some]
    dsimp only
    rw [hblock j hj]
    cases s.block? j <;> rfl

/-- The expansion of a renamed block is the renamed expansion. -/
theorem Renamed.expand (hr : s.Renamed f s') (hb : b ∈ s.reachedBlocks) : s'.expand (b.rename f) =
    ((s.expand b).1.map (Item.rename f),
      renameResult f (List.map (Task.rename f)) (s.expand b).2) := by
  unfold Script.expand
  rw [Block.isSwitch_rename]
  cases hsw : b.isSwitch with
  | true =>
    rw [hr.branches hb hsw]
    rcases s.branches b with fault | ⟨cases, d⟩
    · rfl
    · simp [renameResult, Except.map, Except.mapError, Item.rename, Task.rename,
        List.map_reverse, Function.comp_def]
  | false =>
    rw [hr.next hb hsw]
    rcases s.next b with fault | _ | c <;> rfl

end Script

/-! ## Walks -/

/-- What an id leads to is looked up at its block. -/
theorem Script.Leads.mem_lookups (h : s.Leads entry i j) :
    ∃ b, s.blockFrom entry i = some b ∧ j ∈ b.lookups (s.targets i) := by
  cases h with
  | next hb hsw hj =>
    refine ⟨_, hb, ?_⟩
    rw [Block.lookups_of_not_isSwitch hsw, hj]
    exact List.mem_singleton_self j
  | «case» hb hsw hj =>
    refine ⟨_, hb, ?_⟩
    rwa [Block.lookups_of_isSwitch hsw]
  | default hb hsw hj =>
    refine ⟨_, hb, ?_⟩
    rw [Block.lookups_of_isSwitch hsw]
    exact List.mem_of_find?_eq_some hj

/-- What an id in reach leads to is in reach. -/
theorem Script.mem_reach_of_leads (hs : s.start? = some entry) (hi : i ∈ s.reach)
    (h : s.Leads entry i j) : j ∈ s.reach := by
  obtain ⟨entry', hs', hr⟩ := hi
  cases hs.symm.trans hs'
  exact ⟨entry, hs, hr.tail h⟩

/-- The block of an id in reach is in reach. -/
theorem Script.mem_reachedBlocks (hs : s.start? = some entry) (hi : b.id ∈ s.reach)
    (hb : s.blockFrom entry b.id = some b) : b ∈ s.reachedBlocks := by
  obtain ⟨entry', hs', hr⟩ := hi
  cases hs.symm.trans hs'
  exact ⟨entry, hs, hr, hb⟩

/-- Two walks are in step: an id in reach that a block carries is fresh on the one when its image is
fresh on the other. -/
def InStep (s : Script) (f : LocalId → LocalId) (entry : Block) (fresh fresh' : List LocalId) :
    Prop :=
  ∀ i ∈ s.reach, i ∈ entry.id :: s.blocks.map (·.id) → (i ∈ fresh ↔ f i ∈ fresh')

/-- Walks stay in step when both have rendered an id, since no other id in reach has its image. -/
theorem InStep.without (h : InStep s f entry fresh fresh') (hr : s.Renamed f s')
    (hj : j ∈ s.reach) : InStep s f entry (without fresh j) (without fresh' (f j)) := by
  intro i hi hid
  rw [mem_without, mem_without, h i hi hid, hr.injOn.ne_iff hi hj]

/-- At the start every id in reach that a block carries is fresh, and so is its image. -/
theorem Script.Renamed.inStep (hr : s.Renamed f s') (hs : s.start? = some entry) :
    InStep s f entry (entry.id :: s.blocks.map (·.id))
      ((entry.rename f).id :: s'.blocks.map (·.id)) := by
  intro i hi hid
  refine iff_of_true hid ?_
  obtain ⟨entry', hs', hr'⟩ := hi
  cases hs.symm.trans hs'
  -- An id other than that of the entry is looked up at an id in reach, so its block is renamed too.
  rcases ReflTransGen.cases_tail hr' with rfl | ⟨j, hj, hl⟩
  · exact List.mem_cons_self
  · rcases List.mem_cons.1 hid with rfl | hid
    · exact List.mem_cons_self
    · obtain ⟨b, hb, rfl⟩ := List.mem_map.1 hid
      have hsome : (s.block? b.id).isSome := List.find?_isSome.2 ⟨b, hb, by simp⟩
      obtain ⟨c, hc⟩ := Option.isSome_iff_exists.1 hsome
      obtain ⟨d, hd, hlook⟩ := hl.mem_lookups
      obtain rfl := Script.id_of_blockFrom hd
      have hc' := hr.block? d ⟨entry, hs, hj, hd⟩ b.id hlook
      rw [hc, Option.map_some] at hc'
      exact mem_ids_of_block? hc'

/-- The walk over a renamed script is the renamed walk. -/
theorem Walked.rename (hr : s.Renamed f s') (hs : s.start? = some entry)
    (h : Walked s fresh tasks t) (hsrc : Sourced s entry fresh (tasks.map Task.block))
    (hin : ∀ b ∈ tasks.map Task.block, b.id ∈ s.reach ∧ b.id ∈ entry.id :: s.blocks.map (·.id))
    (hstep : InStep s f entry fresh fresh') :
    Walked s' fresh' (tasks.map (Task.rename f)) (t.rename f) := by
  -- Both sets of fresh ids change along the walk, so that of the renamed script is not fixed.
  induction h generalizing fresh' with
  | nil => exact .nil
  | enter _ ih => exact .enter (ih hsrc hin hstep)
  | rejoin hb _ ih =>
    rw [List.map_cons, List.forall_mem_cons] at hin
    have hb' := mt (hstep _ hin.1.1 hin.1.2).2 hb
    exact .rejoin hb' (ih hsrc.tail hin.2 hstep)
  | @stop _ b items fault rest hb he =>
    rw [List.map_cons, List.forall_mem_cons] at hin
    have hmet : b ∈ s.reachedBlocks :=
      Script.mem_reachedBlocks hs hin.1.1 (hsrc.blockFrom hb)
    have he' := hr.expand hmet
    rw [he] at he'
    exact .stop ((hstep _ hin.1.1 hin.1.2).1 hb) he'
  | @go fresh b items tasks rest t hb he _ ih =>
    rw [List.map_cons, List.forall_mem_cons] at hin
    have hmet : b ∈ s.reachedBlocks :=
      Script.mem_reachedBlocks hs hin.1.1 (hsrc.blockFrom hb)
    have he' := hr.expand hmet
    rw [he] at he'
    have hin' : ∀ c ∈ (tasks ++ rest).map Task.block,
        c.id ∈ s.reach ∧ c.id ∈ entry.id :: s.blocks.map (·.id) := by
      rw [List.map_append, List.forall_mem_append]
      refine ⟨fun c hc => ⟨?_, Script.mem_ids_of_block? (Script.block?_of_expand he hc)⟩, hin.2⟩
      have hl := (Script.leads_iff_of_expand (hsrc.blockFrom hb) he).2 ⟨c, hc, rfl⟩
      exact Script.mem_reach_of_leads hs hin.1.1 hl
    have hw := ih (hsrc.expand he) hin' (hstep.without hr hin.1.1)
    rw [List.map_append] at hw
    have hprepend : (t.prepend items).rename f =
        (t.rename f).prepend (items.map (Item.rename f)) := by
      simp [Trace.rename, Trace.prepend]
    rw [hprepend]
    exact .go ((hstep _ hin.1.1 hin.1.2).1 hb) he' hw

/-- The walk over a renamed script from where calls enter is the renamed walk. -/
theorem Script.Renamed.walk (hr : s.Renamed f s') (hs : s.start? = some entry) :
    s'.walk (entry.rename f) = (s.walk entry).rename f := by
  have hin : ∀ b ∈ [Task.enter entry].map Task.block,
      b.id ∈ s.reach ∧ b.id ∈ entry.id :: s.blocks.map (·.id) := by
    rw [List.map_singleton, List.forall_mem_singleton]
    exact ⟨⟨entry, hs, .refl⟩, List.mem_cons_self⟩
  exact ((s.walked_walk entry).rename hr hs sourced_entry hin (hr.inStep hs)).eq.symm

/-- A renamed script compiles to the same text, or fails with the renamed fault. -/
theorem Script.Renamed.compile_eq (hr : s.Renamed f s') (host : String) :
    s'.compile host = (s.compile host).mapError (Fault.rename f) := by
  have hstart := hr.start?
  cases hs : s.start? with
  | none =>
    rw [hs, Option.map_none] at hstart
    rw [compile_of_start?_eq_none hs, compile_of_start?_eq_none hstart]
    rfl
  | some entry =>
    rw [hs, Option.map_some] at hstart
    rw [compile_of_start? hs, compile_of_start? hstart, compileFrom, compileFrom, hr.walk hs,
      Trace.text_rename]

/-- A script in which all targets of the ids in reach, and the blocks behind them, are renamed is
renamed: a call looks up no more than these. -/
theorem Script.renamed_of_targets (hinj : Set.InjOn f s.reach)
    (hstart : s'.start? = s.start?.map (Block.rename f))
    (h : ∀ i ∈ s.reach, s'.targets (f i) = (s.targets i).map f ∧
      ∀ j ∈ s.targets i, s'.block? (f j) = (s.block? j).map (Block.rename f)) :
    s.Renamed f s' := by
  have hreach : ∀ b ∈ s.reachedBlocks, b.id ∈ s.reach := by
    rintro b ⟨entry, hs, hr, -⟩
    exact ⟨entry, hs, hr⟩
  refine ⟨hinj, hstart, fun b hb => ?_, fun b hb j hj => ?_⟩
  · rw [(h b.id (hreach b hb)).1, Block.lookups_map]
  · exact (h b.id (hreach b hb)).2 j (Block.lookups_subset _ hj)

/-- A script in which calls enter at the same block and look up the same at the blocks in reach is
renamed by the map that changes nothing. -/
theorem Script.renamed_self (hstart : s'.start? = s.start?)
    (h : ∀ b ∈ s.reachedBlocks, b.lookups (s'.targets b.id) = b.lookups (s.targets b.id) ∧
      ∀ j ∈ b.lookups (s.targets b.id), s'.block? j = s.block? j) :
    s.Renamed (fun i => i) s' := by
  have hblock : ∀ x : Option Block, x.map (Block.rename fun i => i) = x := fun x => by
    cases x <;> rfl
  refine ⟨fun i _ j _ hij => hij, ?_, fun b hb => ?_, fun b hb j hj => ?_⟩
  · rw [hstart, hblock]
  · rw [List.map_id', (h b hb).1]
  · rw [hblock, (h b hb).2 j hj]

/-- The map that changes nothing leaves every result as it is. -/
theorem mapError_rename_self {α : Type} (r : Except Fault α) :
    r.mapError (Fault.rename fun i => i) = r := by
  rcases r with fault | a
  · cases fault <;> rfl
  · rfl

/-- **A body depends on the graph in reach only, up to renaming.** Take a map of ids that keeps ids
in reach apart, and a script in which calls enter at the block renamed, and the targets of every id
in reach, in their order, and the blocks behind these are those of the first script renamed. Then it
compiles to the same text for every host, or fails with the same fault up to the renaming. When
calls enter at the same block and look up the same ids and blocks at every block in reach, nothing
else of a script counts: not its id and name, nor blocks and connections that are out of reach, nor
blocks that are hidden behind others, nor how connections with different sources are mixed. -/
theorem Script.compile_up_to_renaming (s : Script) (host : String) :
    (∀ (f : LocalId → LocalId) (s' : Script), Set.InjOn f s.reach →
      s'.start? = s.start?.map (Block.rename f) →
      (∀ i ∈ s.reach, s'.targets (f i) = (s.targets i).map f ∧
        ∀ j ∈ s.targets i, s'.block? (f j) = (s.block? j).map (Block.rename f)) →
      s'.compile host = (s.compile host).mapError (Fault.rename f)) ∧
    ∀ s' : Script, s'.start? = s.start? →
      (∀ b ∈ s.reachedBlocks, b.lookups (s'.targets b.id) = b.lookups (s.targets b.id) ∧
        ∀ j ∈ b.lookups (s.targets b.id), s'.block? j = s.block? j) →
      s'.compile host = s.compile host := by
  constructor
  · intro f s' hinj hstart h
    exact (renamed_of_targets hinj hstart h).compile_eq host
  · intro s' hstart h
    rw [(renamed_self hstart h).compile_eq host, mapError_rename_self]

end

/-- The menu that asks again, under other ids, with a block that is out of reach, one that is hidden
behind another, and its connections mixed. -/
def Script.renumberedMenu : Script where
  id := 7
  name := "menu"
  blocks := [⟨5, "lost", .answer⟩, ⟨40, "in", .start⟩, ⟨10, "other", .defaultArm⟩,
    ⟨20, "again", .caseArm "9"⟩, ⟨20, "hidden", .start⟩, ⟨30, "menu", .switch "DIGIT"⟩]
  connections := [⟨20, 30⟩, ⟨5, 40⟩, ⟨30, 20⟩, ⟨40, 30⟩, ⟨30, 10⟩]

/-- The menu and its renumbered copy have one body. -/
theorem Script.retryMenu_up_to_renaming :
    let f : LocalId → LocalId := fun i => 50 - 10 * i
    renumberedMenu.compile "10.0.0.5" =
      (retryMenu.compile "10.0.0.5").mapError (Fault.rename f) := by
  intro f
  let ids : List LocalId := [1, 2, 3, 4]
  have hclosed : ids.flatMap retryMenu.targets ⊆ ids := by decide
  have hids : ∀ i ∈ retryMenu.reach, i ∈ ids := by
    rintro i ⟨entry, hs, hr⟩
    induction hr with
    | refl => cases hs; decide
    | tail _ hl ih =>
      obtain ⟨b, -, hj⟩ := hl.mem_lookups
      exact hclosed (List.mem_flatMap.2 ⟨_, ih, Block.lookups_subset _ hj⟩)
  have hnodup : (ids.map f).Nodup := by decide
  have htargets : ids.map (fun i => renumberedMenu.targets (f i)) =
      ids.map fun i => (retryMenu.targets i).map f := rfl
  have hblock : (ids.flatMap retryMenu.targets).map (fun j => renumberedMenu.block? (f j)) =
      (ids.flatMap retryMenu.targets).map fun j => (retryMenu.block? j).map (Block.rename f) := rfl
  refine (compile_up_to_renaming retryMenu "10.0.0.5").1 f renumberedMenu ?_ rfl
    fun i hi => ⟨?_, ?_⟩
  · exact fun i hi j hj => List.inj_on_of_nodup_map hnodup (hids i hi) (hids j hj)
  · exact List.map_inj_left.1 htargets i (hids i hi)
  · exact fun j hj => List.map_inj_left.1 hblock j (List.mem_flatMap.2 ⟨i, hids i hi, hj⟩)

end CallFlow
