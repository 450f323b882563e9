import CallFlow.Proofs.Layout

/-!
# Where jumps lead

A jump names a block by its label (`Line.names_text`), so it resolves only if a line of the same
body carries that label and renders that block (`Line.Resolves`). A jump without a condition rejoins
an id that is rendered above it, and one with a condition is taken by a switch above it for one of
its cases (`StandsFor`, `Walked.standsFor`); either way the block is one of the script, and its id
is rendered somewhere in the body (`Script.exists_header_of_target?`). That settles every jump to a
block with a label, except where the start block stands behind another block of its id: the body
renders the start block for that id, and a jump there names the other one. Both exceptions occur
(`Script.jumps_can_dangle`).
-/

namespace CallFlow

/-- A jump of a body to a block resolves: it is written with the label of the block, that label is
not empty, and a line of the body renders the block and is written with that label. -/
structure Line.Resolves (host : Option String) (ls : List Line) (l : Line) (b : Block) : Prop where
  named : b.label ≠ ""
  written : l.Names b.label (l.text host)
  rendered : .header b ∈ ls
  carried : (Line.header b).text host =
    "\tsame = n(" ++ b.label ++ ")," ++ (b.kind.application host).text ++ "\n"

/-- What a jump stands for, given the lines above it: a jump without a condition rejoins an id that
is rendered there, and one with a condition tests for a case of a switch that is rendered there. -/
inductive StandsFor (s : Script) (above : List Line) : Line → Block → Prop
  | rejoin : .header c ∈ above → c.id = b.id → StandsFor s above (.jump b) b
  | «case» : .header c ∈ above → c.kind.test? = some test → b ∈ s.arms c.id → b.isCase = true →
      StandsFor s above (.jumpIf (test b.caseValue) b) b

section
variable {s : Script} {entry b c : Block} {fresh : List LocalId} {tasks : List Task} {t : Trace}
  {items : List Item} {above below ls : List Line} {l : Line}

/-! ## What jumps stand for -/

/-- More lines above a jump leave what it stands for. -/
theorem StandsFor.mono (h : StandsFor s above l b) (hsub : above ⊆ ls) : StandsFor s ls l b := by
  cases h with
  | rejoin hc hid => exact .rejoin (hsub hc) hid
  | «case» hc ht hb hcase => exact .case (hsub hc) ht hb hcase

/-- A line of two lists in a row is one of the first list, or it comes behind all of them. -/
theorem eq_append_cons_cases {α : Type} {xs ys us vs : List α} {a : α}
    (h : xs ++ ys = us ++ a :: vs) :
    (∃ ws, xs = us ++ a :: ws) ∨ ∃ ws, us = xs ++ ws ∧ ys = ws ++ a :: vs := by
  rcases List.append_eq_append_iff.1 h with ⟨ws, hus, hys⟩ | ⟨ws, hxs, hvs⟩
  · exact .inr ⟨ws, hus, hys⟩
  · cases ws with
    | nil => exact .inr ⟨[], by simpa using hxs.symm, hvs.symm⟩
    | cons w ws =>
      cases hvs
      exact .inl ⟨ws, hxs⟩

/-- The jumps of an expansion test for the cases of its block, whose header is above them. -/
theorem Script.standsFor_expand (h : s.expand b = (items, .ok tasks))
    (hl : items.flatMap Item.lines = above ++ l :: below) (hc : l.target? = some c) :
    StandsFor s above l c := by
  have hmem : l ∈ items.flatMap Item.lines := by simp [hl]
  rcases expand_ok_cases h with ⟨cs, d, hsw, hs, rfl, -⟩ | ⟨hsw, -, rfl, -⟩ | ⟨_, hsw, -, rfl, -⟩
  · obtain ⟨test, ht, hlines⟩ := Block.exists_test_of_isSwitch hsw
    obtain ⟨-, rfl, -⟩ := branches_eq_ok.1 hs
    rw [List.flatMap_singleton, Item.lines, hlines] at hl hmem
    have habove : .header b ∈ above := by
      cases above with
      | nil =>
        obtain ⟨rfl, -⟩ := List.cons_eq_cons.1 hl
        cases hc
      | cons a above =>
        obtain ⟨rfl, -⟩ := List.cons_eq_cons.1 hl
        exact List.mem_cons_self
    rcases List.mem_cons.1 hmem with rfl | hmem
    · cases hc
    · obtain ⟨c', hc', rfl⟩ := List.mem_map.1 hmem
      cases hc
      obtain ⟨harm, hcase⟩ := List.mem_filter.1 hc'
      exact .case habove ht harm hcase
  · have hlines : [Item.plain b, .finish].flatMap Item.lines = [.header b, .hangup] := by
      simp [Item.lines, Block.lines_of_not_isSwitch hsw]
    rw [hlines, List.mem_pair] at hmem
    rcases hmem with rfl | rfl <;> cases hc
  · rw [List.flatMap_singleton, Item.lines, Block.lines_of_not_isSwitch hsw,
      List.mem_singleton] at hmem
    subst hmem
    cases hc

/-- Without a fault a jump of a walk stands for its block, unless it rejoins an id that was not
fresh before the walk. -/
theorem Walked.standsFor (h : Walked s fresh tasks t) (hf : t.fault = none)
    (hl : t.items.flatMap Item.lines = above ++ l :: below) (hc : l.target? = some c) :
    StandsFor s above l c ∨ l = .jump c ∧ c.id ∉ fresh := by
  induction h generalizing above with
  | nil => simp at hl
  | enter _ ih => exact ih hf hl
  | @rejoin _ _ t b hb _ ih =>
    have hl' : Line.jump b :: t.items.flatMap Item.lines = above ++ l :: below := hl
    rcases List.cons_eq_append_iff.1 hl' with ⟨rfl, hfirst⟩ | ⟨above', rfl, hrest⟩
    · cases hfirst
      cases hc
      exact .inr ⟨rfl, hb⟩
    · exact (ih hf hrest).imp_left fun hs => hs.mono (List.subset_cons_self _ _)
  | stop => cases hf
  | @go fresh b items _ _ t _ he _ ih =>
    rw [Trace.items_prepend, List.flatMap_append] at hl
    rcases eq_append_cons_cases hl with ⟨below', hitems⟩ | ⟨above', rfl, hrest⟩
    · exact .inl (Script.standsFor_expand he hitems hc)
    · rcases ih hf hrest with hs | ⟨rfl, hfresh⟩
      · exact .inl (hs.mono (List.subset_append_right _ _))
      · by_cases hid : b.id = c.id
        -- The walk has just rendered the id, so the header is among the lines above.
        · obtain ⟨ls, hls⟩ := Script.exists_lines_expand he
          refine .inl (.rejoin (List.mem_append_left _ ?_) hid)
          rw [hls]
          exact List.mem_cons_self
        · exact .inr ⟨rfl, fun hmem => hfresh (mem_without.2 ⟨hmem, Ne.symm hid⟩)⟩

/-! ## What jumps lead to -/

/-- A walk without a fault expands its entry first. -/
theorem Script.exists_expand_of_walk (hf : (s.walk entry).fault = none) :
    ∃ items tasks t, s.expand entry = (items, .ok tasks) ∧
      Walked s (without (entry.id :: s.blocks.map (·.id)) entry.id) tasks t ∧ t.fault = none ∧
      (s.walk entry).items.flatMap Item.lines =
        items.flatMap Item.lines ++ t.items.flatMap Item.lines := by
  have hw := s.walked_walk entry
  generalize s.walk entry = u at hw hf
  cases hw with
  | enter hw =>
    cases hw with
    | rejoin hb => exact absurd List.mem_cons_self hb
    | stop => cases hf
    | @go _ _ items tasks _ t _ he hw =>
      rw [List.append_nil] at hw
      exact ⟨items, tasks, t, he, hw, hf, List.flatMap_append⟩

/-- Without a fault every jump of a body goes to a block of the script, whose id is rendered. -/
theorem Script.exists_header_of_target? (hf : (s.walk entry).fault = none)
    (hl : l ∈ (s.walk entry).items.flatMap Item.lines) (hc : l.target? = some c) :
    s.block? c.id = some c ∧
      ∃ b, .header b ∈ (s.walk entry).items.flatMap Item.lines ∧ b.id = c.id := by
  obtain ⟨items, tasks, t, he, hw, hft, hlines⟩ := exists_expand_of_walk hf
  -- Behind the entry every task is about a block of the script.
  have hknown : ∀ b ∈ tasks.map Task.block, s.block? b.id = some b := fun b hb =>
    block?_of_expand he hb
  have hrest : s.block? c.id = some c ∧
      (c.id ∈ without (entry.id :: s.blocks.map (·.id)) entry.id → c.id ∈ t.done) := by
    rw [hlines, List.mem_append] at hl
    rcases hl with hl | hl
    · have hmem := mem_tasks_of_target? he hl hc
      exact ⟨hknown c hmem, hw.mem_done_of_task hft c hmem⟩
    · exact hw.target_rendered hft hknown hl hc
  refine ⟨hrest.1, ?_⟩
  rw [hlines]
  by_cases hid : c.id = entry.id
  · obtain ⟨ls, hls⟩ := exists_lines_expand he
    exact ⟨entry, by simp [hls], hid.symm⟩
  · obtain ⟨b, hb, hbc⟩ := Trace.mem_done.1
      (hrest.2 (mem_without.2 ⟨mem_ids_of_block? hrest.1, hid⟩))
    exact ⟨b, List.mem_append_right _ (Trace.header_mem_lines.2 hb), hbc⟩

/-- The header of an id is that of the block that a jump there names, unless the entry stands behind
another block of its id. -/
theorem Script.eq_of_header (hb : .header b ∈ (s.walk entry).items.flatMap Item.lines)
    (hid : b.id = c.id) (hc : s.block? c.id = some c)
    (he : c.id ≠ entry.id ∨ s.block? entry.id = some entry) : b = c := by
  have hfrom : s.blockFrom entry b.id = some b :=
    ((s.walked_walk entry).rendered_sound sourced_entry b (Trace.header_mem_lines.1 hb)).1
  have hsame : s.blockFrom entry c.id = s.block? c.id := by
    rcases he with hne | he
    · exact blockFrom_of_ne hne
    · exact blockFrom_eq_block? he _
  rw [hid, hsame, hc] at hfrom
  exact (Option.some_inj.1 hfrom).symm

/-- **Every jump leads to an id that is rendered.** A jump is written with the label of its block.
One without a condition rejoins an id that is rendered above it, and one with a condition is taken
by a switch above it for one of its cases; in either case the block is that of its id in the script,
and some line of the body renders that id. Unless the start block stands behind another block of its
id and the jump goes there, that line renders the very block; and if the block has a label, the line
is written with the label that the jump is written with. -/
theorem Script.compile_jumps_lead_to_rendered {host text : String}
    (h : s.compile host = .ok text) :
    ∃ entry ls, s.start? = some entry ∧ s.body = .ok ls ∧ text = Line.textAll (some host) ls ∧
      ∀ above l below b, ls = above ++ l :: below → l.target? = some b →
        l.Names b.label (l.text (some host)) ∧ StandsFor s above l b ∧
        s.block? b.id = some b ∧ (∃ c, .header c ∈ ls ∧ c.id = b.id) ∧
        (b.id ≠ entry.id ∨ s.block? entry.id = some entry →
          .header b ∈ ls ∧ (b.label ≠ "" → l.Resolves (some host) ls b)) := by
  cases hstart : s.start? with
  | none =>
    rw [compile_of_start?_eq_none hstart] at h
    cases h
  | some entry =>
    rw [compile_of_start? hstart] at h
    obtain ⟨hf, rfl⟩ := compileFrom_eq_ok.1 h
    have hbody : s.body = .ok ((s.walk entry).items.flatMap Item.lines) := by
      simp only [body, walkStart, hstart, Trace.lines, hf]
    refine ⟨entry, _, rfl, hbody, rfl, fun above l below b hls hb => ?_⟩
    have hl : l ∈ (s.walk entry).items.flatMap Item.lines := by simp [hls]
    obtain ⟨hknown, c, hc, hid⟩ := exists_header_of_target? hf hl hb
    have hstands : StandsFor s above l b := by
      rcases (s.walked_walk entry).standsFor hf hls hb with hstands | ⟨-, hfresh⟩
      · exact hstands
      · exact absurd (mem_ids_of_block? hknown) hfresh
    have hwritten : l.Names b.label (l.text (some host)) := Line.names_text hb
    refine ⟨hwritten, hstands, hknown, ⟨c, hc, hid⟩, fun he => ?_⟩
    obtain rfl := eq_of_header hc hid hknown he
    exact ⟨hc, fun hlabel => ⟨hlabel, hwritten, hc, Line.text_of_label hlabel⟩⟩

end

/-- The menu that asks again has a jump to its case and a jump back to its switch. -/
theorem Script.retryMenu_jumps_lead_to_rendered :
    ∃ text, retryMenu.compile "10.0.0.5" = .ok text ∧
    ∃ entry ls, retryMenu.start? = some entry ∧ retryMenu.body = .ok ls ∧
      text = Line.textAll (some "10.0.0.5") ls ∧
      ∀ above l below b, ls = above ++ l :: below → l.target? = some b →
        l.Names b.label (l.text (some "10.0.0.5")) ∧ StandsFor retryMenu above l b ∧
        retryMenu.block? b.id = some b ∧
        (∃ c, .header c ∈ ls ∧ c.id = b.id) ∧
        (b.id ≠ entry.id ∨ retryMenu.block? entry.id = some entry →
          .header b ∈ ls ∧ (b.label ≠ "" → l.Resolves (some "10.0.0.5") ls b)) := by
  have hf : (retryMenu.walk ⟨1, "in", .start⟩).fault = none := by cbv
  obtain ⟨text, h⟩ : ∃ text, retryMenu.compile "10.0.0.5" = .ok text := by
    rw [compile_of_start? rfl]
    exact exists_compileFrom_eq_ok hf
  exact ⟨text, h, compile_jumps_lead_to_rendered h⟩

/-- A start block without a label that leads to itself. -/
def Script.namelessLoop : Script where
  blocks := [⟨1, "", .start⟩]
  connections := [⟨1, 1⟩]

/-- A start block that leads to itself and stands behind another block of its id. -/
def Script.hiddenStart : Script where
  blocks := [⟨1, "a", .answer⟩, ⟨1, "s", .start⟩]
  connections := [⟨1, 1⟩]

/-- Not every jump resolves: one to a block without a label is written without one, and one to the
id of a start block behind another block names the block that is not rendered. -/
theorem Script.jumps_can_dangle :
    (namelessLoop.compile "10.0.0.5" =
        .ok "\tsame = n,NoOp(Start)\n\tsame = n,Goto()\n" ∧
      ∃ ls, namelessLoop.body = .ok ls ∧
        ¬ ∀ l ∈ ls, ∀ b, l.target? = some b → l.Resolves (some "10.0.0.5") ls b) ∧
    hiddenStart.compile "10.0.0.5" =
        .ok "\tsame = n(s),NoOp(Start)\n\tsame = n,Goto(a)\n" ∧
      ∃ ls, hiddenStart.body = .ok ls ∧ (∀ b, .header b ∈ ls → b.label ≠ "a") ∧
        ¬ ∀ l ∈ ls, ∀ b, l.target? = some b → l.Resolves (some "10.0.0.5") ls b := by
  have hnameless : namelessLoop.body = .ok [.header ⟨1, "", .start⟩, .jump ⟨1, "", .start⟩] := by
    cbv
  have hhidden : hiddenStart.body = .ok [.header ⟨1, "s", .start⟩, .jump ⟨1, "a", .answer⟩] := by
    cbv
  refine ⟨⟨?_, _, hnameless, fun h => ?_⟩, ?_, _, hhidden, by simp, fun h => ?_⟩
  · rw [compile, hnameless]
    rfl
  · exact (h (.jump ⟨1, "", .start⟩) (by simp) _ rfl).named rfl
  · rw [compile, hhidden]
    rfl
  · have hmem := (h (.jump ⟨1, "a", .answer⟩) (by simp) _ rfl).rendered
    simp at hmem

end CallFlow
