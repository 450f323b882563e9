import CallFlow.Body
import CallFlow.Proofs.Walk
import Mathlib.Data.List.Nodup

/-!
# What a walk renders

A walk renders each id at most once (`Walked.nodup_done`), always as the block that stands for it,
and only ids that its tasks reach through fresh ids (`Walked.rendered_sound`). A walk that meets a
fault was led there the same way (`Walked.exists_faulty`). Without a fault nothing that is reached
is left out (`Walked.mem_done_branch`). For a whole body every id is fresh, and what is rendered is
what the entry reaches (`Script.mem_done_walk`).
-/

namespace CallFlow

open Relation

namespace Line

/-- The block that a line renders. Only a header renders one. -/
def rendered? : Line → Option Block
  | .header b => some b
  | _ => none

end Line

/-- The blocks at hand stand for their ids: each is the entry, or it is a block of the script, and
then the entry is rendered already. -/
def Sourced (s : Script) (entry : Block) (fresh : List LocalId) (bs : List Block) : Prop :=
  ∀ b ∈ bs, b = entry ∨ entry.id ∉ fresh ∧ s.block? b.id = some b

/-- The fresh ids that the blocks at hand reach through fresh ids. -/
def Reached (s : Script) (entry : Block) (fresh : List LocalId) (bs : List Block)
    (i : LocalId) : Prop :=
  ∃ b ∈ bs, b.id ∈ fresh ∧ ReflTransGen (fun i j => s.Passes entry i j ∧ j ∈ fresh) b.id i

/-- What is reached from an id by ways that avoid the ids in `seen`. -/
def Script.FirstReached (s : Script) (entry : Block) (seen : List LocalId) (i j : LocalId) : Prop :=
  i ∉ seen ∧ ReflTransGen (fun i j => s.Leads entry i j ∧ j ∉ seen) i j

section
variable {s : Script} {entry b : Block} {bs cs : List Block} {fresh : List LocalId}
  {tasks rest : List Task} {t : Trace} {items : List Item} {i j : LocalId} {f : Fault}
  {host text : String}

/-! ## The blocks at hand -/

/-- A block at hand with a fresh id stands for that id. -/
theorem Sourced.blockFrom (h : Sourced s entry fresh (b :: bs)) (hb : b.id ∈ fresh) :
    s.blockFrom entry b.id = some b := by
  rcases h b List.mem_cons_self with rfl | ⟨he, hs⟩
  · exact Script.blockFrom_entry
  · have hne : b.id ≠ entry.id := fun hid => he (hid ▸ hb)
    rw [Script.blockFrom_of_ne hne, hs]

/-- Fewer blocks at hand stand for their ids too. -/
theorem Sourced.tail (h : Sourced s entry fresh (b :: bs)) : Sourced s entry fresh bs :=
  fun c hc => h c (List.mem_cons_of_mem _ hc)

/-- The blocks at hand still stand for their ids once one of them is expanded. -/
theorem Sourced.expand (h : Sourced s entry fresh (b :: rest.map Task.block))
    (he : s.expand b = (items, .ok tasks)) :
    Sourced s entry (without fresh b.id) ((tasks ++ rest).map Task.block) := by
  -- From the first expansion on the entry's id is no longer fresh.
  have hentry : entry.id ∉ without fresh b.id := by
    rw [mem_without]
    rintro ⟨hmem, hne⟩
    rcases h b List.mem_cons_self with rfl | ⟨hb, -⟩
    · exact hne rfl
    · exact hb hmem
  intro c hc
  rw [List.map_append] at hc
  rcases List.mem_append.1 hc with hc | hc
  · exact .inr ⟨hentry, Script.block?_of_expand he hc⟩
  · exact (h.tail c hc).imp_right fun hs => ⟨hentry, hs.2⟩

/-- More blocks reach more. -/
theorem Reached.mono (hsub : bs ⊆ cs) : Reached s entry fresh bs i → Reached s entry fresh cs i
  | ⟨b, hb, hr⟩ => ⟨b, hsub hb, hr⟩

/-- What is reached once a block is expanded was reached through that block, or without it. -/
theorem Reached.of_expand (hfresh : b.id ∈ fresh) (hb : s.blockFrom entry b.id = some b)
    (he : s.expand b = (items, .ok tasks))
    (h : Reached s entry (without fresh b.id) ((tasks ++ rest).map Task.block) i) :
    Reached s entry fresh (b :: rest.map Task.block) i := by
  obtain ⟨c, hc, hid, hr⟩ := h
  rw [List.map_append] at hc
  have hr' : ReflTransGen (fun i j => s.Passes entry i j ∧ j ∈ fresh) c.id i :=
    ReflTransGen.mono (fun _ _ h => ⟨h.1, (mem_without.1 h.2).1⟩) _ _ hr
  have hid' : c.id ∈ fresh := (mem_without.1 hid).1
  rcases List.mem_append.1 hc with hc | hc
  · have hpass : s.Passes entry b.id c.id := by
      refine ⟨(Script.leads_iff_of_expand hb he).2 ⟨c, hc, rfl⟩, fun _ _ _ f hf => ?_⟩
      rw [Script.faulty_iff hb, he] at hf
      cases hf
    exact ⟨b, List.mem_cons_self, hfresh, .head ⟨hpass, hid'⟩ hr'⟩
  · exact ⟨c, List.mem_cons_of_mem _ hc, hid', hr'⟩

/-! ## Rendered blocks -/

/-- Only fresh ids are rendered, and each of them once. -/
theorem Walked.nodup_done (h : Walked s fresh tasks t) :
    t.done.Nodup ∧ ∀ i ∈ t.done, i ∈ fresh := by
  induction h with
  | nil => exact ⟨List.nodup_nil, nofun⟩
  | enter _ ih | rejoin _ _ ih => exact ih
  | stop hb he =>
    rcases Script.expand_error_cases he with ⟨-, -, rfl⟩ | ⟨-, -, rfl⟩
    · exact ⟨List.nodup_nil, nofun⟩
    · exact ⟨List.nodup_singleton _, fun i hi => List.mem_singleton.1 hi ▸ hb⟩
  | go hb he _ ih =>
    rw [Script.done_prepend he, List.nodup_cons]
    refine ⟨⟨fun hmem => (mem_without.1 (ih.2 _ hmem)).2 rfl, ih.1⟩, fun i hi => ?_⟩
    rcases List.mem_cons.1 hi with rfl | hi
    · exact hb
    · exact (mem_without.1 (ih.2 i hi)).1

/-- A rendered block stands for its id, and the blocks at hand reach it. -/
theorem Walked.rendered_sound (h : Walked s fresh tasks t)
    (hs : Sourced s entry fresh (tasks.map Task.block)) :
    ∀ b ∈ t.rendered, s.blockFrom entry b.id = some b ∧
      Reached s entry fresh (tasks.map Task.block) b.id := by
  induction h with
  | nil => exact nofun
  | enter _ ih => exact ih hs
  | rejoin _ _ ih =>
    intro b hb
    obtain ⟨h1, h2⟩ := ih hs.tail b hb
    exact ⟨h1, h2.mono (List.subset_cons_self _ _)⟩
  | stop hb he =>
    rcases Script.expand_error_cases he with ⟨-, -, rfl⟩ | ⟨-, -, rfl⟩
    · exact nofun
    · intro c hc
      obtain rfl := List.mem_singleton.1 hc
      exact ⟨hs.blockFrom hb, c, List.mem_cons_self, hb, .refl⟩
  | go hb he _ ih =>
    intro c hc
    rw [Script.rendered_prepend he] at hc
    rcases List.mem_cons.1 hc with rfl | hc
    · exact ⟨hs.blockFrom hb, c, List.mem_cons_self, hb, .refl⟩
    · obtain ⟨h1, h2⟩ := ih (hs.expand he) c hc
      exact ⟨h1, h2.of_expand hb (hs.blockFrom hb) he⟩

/-- A fault is one of a block that the blocks at hand reach. -/
theorem Walked.exists_faulty (h : Walked s fresh tasks t)
    (hs : Sourced s entry fresh (tasks.map Task.block)) (hf : t.fault = some f) :
    ∃ i, Reached s entry fresh (tasks.map Task.block) i ∧ s.Faulty entry i f := by
  induction h with
  | nil => cases hf
  | enter _ ih => exact ih hs hf
  | rejoin _ _ ih =>
    obtain ⟨i, h1, h2⟩ := ih hs.tail hf
    exact ⟨i, h1.mono (List.subset_cons_self _ _), h2⟩
  | @stop _ b _ _ _ hb he =>
    obtain rfl := Option.some_inj.1 hf
    have hfaulty := (Script.faulty_iff (hs.blockFrom hb)).2 (congrArg Prod.snd he)
    exact ⟨b.id, ⟨b, List.mem_cons_self, hb, .refl⟩, hfaulty⟩
  | go hb he _ ih =>
    obtain ⟨i, h1, h2⟩ := ih (hs.expand he) hf
    exact ⟨i, h1.of_expand hb (hs.blockFrom hb) he, h2⟩

/-- Without a fault every fresh block at hand is rendered. -/
theorem Walked.mem_done_of_task (h : Walked s fresh tasks t) (hf : t.fault = none) :
    ∀ b ∈ tasks.map Task.block, b.id ∈ fresh → b.id ∈ t.done := by
  induction h with
  | nil => exact nofun
  | enter _ ih => exact ih hf
  | rejoin hb _ ih =>
    intro c hc hfresh
    rcases List.mem_cons.1 hc with rfl | hc
    · exact absurd hfresh hb
    · exact ih hf c hc hfresh
  | stop => cases hf
  | @go _ b _ _ _ _ hb he _ ih =>
    intro c hc hfresh
    refine Script.mem_done_prepend he hfresh fun hleft => ?_
    rcases List.mem_cons.1 hc with rfl | hc
    · exact absurd rfl (mem_without.1 hleft).2
    · rw [List.map_append] at ih
      exact ih hf c (List.mem_append_right _ hc) hleft

/-- Without a fault every way out of a rendered block leads to a block of the script, which is
rendered too if it was fresh. -/
theorem Walked.done_closed (h : Walked s fresh tasks t)
    (hs : Sourced s entry fresh (tasks.map Task.block)) (hf : t.fault = none) (hi : i ∈ t.done)
    (hl : s.Leads entry i j) : (∃ c, s.block? j = some c) ∧ (j ∈ fresh → j ∈ t.done) := by
  induction h with
  | nil => cases hi
  | enter _ ih => exact ih hs hf hi
  | rejoin _ _ ih => exact ih hs.tail hf hi
  | stop => cases hf
  | @go _ b _ _ _ _ hb he hw ih =>
    rw [Script.done_prepend he, List.mem_cons] at hi
    rcases hi with rfl | hi
    · obtain ⟨c, hc, rfl⟩ := (Script.leads_iff_of_expand (hs.blockFrom hb) he).1 hl
      refine ⟨⟨c, Script.block?_of_expand he hc⟩, fun hfresh => ?_⟩
      have htask := hw.mem_done_of_task hf c
      rw [List.map_append] at htask
      exact Script.mem_done_prepend he hfresh (htask (List.mem_append_left _ hc))
    · obtain ⟨h1, h2⟩ := ih (hs.expand he) hf hi
      exact ⟨h1, fun hfresh => Script.mem_done_prepend he hfresh h2⟩

/-! ## Bodies -/

/-- The walk from an entry block is a walk with every id fresh. -/
theorem Script.walked_walk (s : Script) (entry : Block) :
    Walked s (entry.id :: s.blocks.map (·.id)) [.enter entry] (s.walk entry) :=
  walked_walkFrom s _ _

/-- At the start only the entry is at hand. -/
theorem sourced_entry : Sourced s entry fresh [entry] := fun _ hb =>
  .inl (List.mem_singleton.1 hb)

/-- At the start the id of every block of the script is fresh. -/
theorem Script.mem_ids_of_block? {c : Block} (h : s.block? i = some c) :
    i ∈ entry.id :: s.blocks.map (·.id) := by
  obtain rfl := id_of_block? h
  exact List.mem_cons_of_mem _ (List.mem_map_of_mem (mem_of_block? h))

/-- Without a fault a branch renders what is reached from its block by ways that avoid the ids that
are already rendered. -/
theorem Walked.mem_done_branch (seen : List LocalId) (h : Walked s fresh [.enter b] t)
    (hs : Sourced s entry fresh [b]) (hf : t.fault = none)
    (hb : b.id ∈ entry.id :: s.blocks.map (·.id))
    (hfresh : ∀ i, i ∈ fresh ↔ i ∈ entry.id :: s.blocks.map (·.id) ∧ i ∉ seen) :
    i ∈ t.done ↔ s.FirstReached entry seen b.id i := by
  constructor
  · intro hi
    obtain ⟨c, hc, rfl⟩ := Trace.mem_done.1 hi
    obtain ⟨-, b', hb', hid, hr⟩ := h.rendered_sound hs c hc
    obtain rfl := List.mem_singleton.1 hb'
    refine ⟨((hfresh _).1 hid).2, ReflTransGen.mono (fun _ j h => ?_) _ _ hr⟩
    exact ⟨h.1.1, ((hfresh j).1 h.2).2⟩
  · rintro ⟨hid, hr⟩
    induction hr with
    | refl => exact h.mem_done_of_task hf b List.mem_cons_self ((hfresh _).2 ⟨hb, hid⟩)
    | tail _ hl ih =>
      obtain ⟨⟨c, hc⟩, hdone⟩ := h.done_closed hs hf ih hl.1
      exact hdone ((hfresh _).2 ⟨Script.mem_ids_of_block? hc, hl.2⟩)

/-- Without a fault the walk from an entry block renders what the entry reaches. -/
theorem Script.mem_done_walk (hf : (s.walk entry).fault = none) :
    i ∈ (s.walk entry).done ↔ ReflTransGen (s.Leads entry) entry.id i := by
  have hdone := (s.walked_walk entry).mem_done_branch [] sourced_entry hf List.mem_cons_self
    (i := i) (by simp)
  simpa [FirstReached] using hdone

/-- A body has a text when its walk meets no fault, and then it is that of its lines. -/
theorem Script.compileFrom_eq_ok : s.compileFrom host entry = .ok text ↔
    (s.walk entry).fault = none ∧
      Line.textAll (some host) ((s.walk entry).items.flatMap Item.lines) = text := by
  unfold compileFrom Trace.lines
  cases (s.walk entry).fault <;> simp [Except.map]

/-- A walk without a fault gives a body with a text. -/
theorem Script.exists_compileFrom_eq_ok (hf : (s.walk entry).fault = none) :
    ∃ text, s.compileFrom host entry = .ok text :=
  ⟨_, compileFrom_eq_ok.2 ⟨hf, rfl⟩⟩

/-- A body has no text when its walk meets a fault. -/
theorem Script.compileFrom_eq_error : s.compileFrom host entry = .error f ↔
    (s.walk entry).fault = some f := by
  unfold compileFrom Trace.lines
  cases (s.walk entry).fault <;> simp [Except.map]

/-- A script is compiled from its start block. -/
theorem Script.compile_of_start? (h : s.start? = some b) :
    s.compile host = s.compileFrom host b := by
  simp [compile, body, walkStart, compileFrom, h]

/-- Without a start block nothing is compiled. -/
theorem Script.compile_of_start?_eq_none (h : s.start? = none) :
    s.compile host = .error .noStart := by
  simp [compile, body, walkStart, h, Trace.lines, Trace.stop, Except.map]

/-- Among the lines of a block only its header renders a block. -/
theorem Block.filterMap_rendered?_lines (cs : List Block) :
    (b.lines cs).filterMap Line.rendered? = [b] := by
  unfold Block.lines
  cases b.kind.test? with
  | none => rfl
  | some test =>
    have hjump : ∀ l ∈ cs.map (fun c => Line.jumpIf (test c.caseValue) c), l.rendered? = none := by
      intro l hl
      obtain ⟨c, -, rfl⟩ := List.mem_map.1 hl
      rfl
    simp only [List.filterMap_cons, Line.rendered?, List.filterMap_eq_nil_iff.2 hjump]

/-- The headers among the lines of a walk are those of the blocks that it renders. -/
theorem Trace.filterMap_rendered?_lines :
    (t.items.flatMap Item.lines).filterMap Line.rendered? = t.rendered := by
  rw [rendered]
  induction t.items with
  | nil => rfl
  | cons i is ih =>
    rw [List.flatMap_cons, List.filterMap_append, ih]
    cases i with
    | enter b | rejoin b | finish => rfl
    | plain b => rw [Item.lines, Block.filterMap_rendered?_lines]; rfl
    | fork b cases d => rw [Item.lines, Block.filterMap_rendered?_lines]; rfl

/-- **A body renders what its entry reaches, once.** The ids of the headers among its lines are
distinct, they are the ids that the entry leads to, and each header is that of the block that stands
for its id. -/
theorem Script.compileFrom_renders_reachable
    (h : s.compileFrom host entry = .ok text) :
    ∃ ls, (s.walk entry).lines = .ok ls ∧ text = Line.textAll (some host) ls ∧
      ((ls.filterMap Line.rendered?).map (·.id)).Nodup ∧
      (∀ i, i ∈ (ls.filterMap Line.rendered?).map (·.id) ↔
        ReflTransGen (s.Leads entry) entry.id i) ∧
      ∀ b ∈ ls.filterMap Line.rendered?, s.blockFrom entry b.id = some b := by
  obtain ⟨hf, rfl⟩ := compileFrom_eq_ok.1 h
  have hw := s.walked_walk entry
  refine ⟨_, by rw [Trace.lines, hf], rfl, ?_⟩
  rw [Trace.filterMap_rendered?_lines]
  refine ⟨hw.nodup_done.1, fun i => mem_done_walk hf, fun b hb => ?_⟩
  exact (hw.rendered_sound sourced_entry b hb).1

end

/-- A menu that asks again: one of its cases leads back to the switch. -/
def Script.retryMenu : Script where
  blocks := [⟨1, "in", .start⟩, ⟨2, "menu", .switch "DIGIT"⟩, ⟨3, "again", .caseArm "9"⟩,
    ⟨4, "other", .defaultArm⟩]
  connections := [⟨1, 2⟩, ⟨2, 3⟩, ⟨2, 4⟩, ⟨3, 2⟩]

/-- The menu, entered at a block that it does not have. -/
theorem Script.retryMenu_renders_reachable :
    let entry : Block := ⟨1, "transfer", .answer⟩
    ∃ text, retryMenu.compileFrom "10.0.0.5" entry = .ok text ∧
    ∃ ls, (retryMenu.walk entry).lines = .ok ls ∧ text = Line.textAll (some "10.0.0.5") ls ∧
      ((ls.filterMap Line.rendered?).map (·.id)).Nodup ∧
      (∀ i, i ∈ (ls.filterMap Line.rendered?).map (·.id) ↔
        ReflTransGen (retryMenu.Leads entry) entry.id i) ∧
      ∀ b ∈ ls.filterMap Line.rendered?, retryMenu.blockFrom entry b.id = some b := by
  intro entry
  have hf : (retryMenu.walk entry).fault = none := by cbv
  obtain ⟨text, h⟩ : ∃ text, retryMenu.compileFrom "10.0.0.5" entry = .ok text :=
    exists_compileFrom_eq_ok hf
  exact ⟨text, h, compileFrom_renders_reachable h⟩

end CallFlow
