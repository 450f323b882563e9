import CallFlow.Proofs.Coverage
import CallFlow.Proofs.Execution

/-!
# Bodies are arranged for their scripts

The lines of a body are `Arranged` for its script (`Script.arranged_walk`), so a run of the body
does what a call over the graph does. Behind the header of a switch stand its jumps and then its
default, because that is the branch that the walk takes up next; behind any other header stands what
its first connection leads to, or a jump there if it is rendered already (`Walked.ahead_header`).
Every jump goes to a block that is rendered (`Walked.target_rendered`), and labels that are distinct
lead to the right one. These are the labels in the text of the body (`Program.step_by_text`).
-/

namespace CallFlow

section
variable {s : Script} {entry b c d : Block} {cs : List Block} {fresh : List LocalId}
  {tasks rest : List Task} {t : Trace} {items : List Item} {ls : List Line} {o : Oracle}
  {past : List Act}

/-! ## Lines of blocks -/

/-- The lines of a switch are its header and its jumps. -/
theorem Block.exists_test_of_isSwitch (h : b.isSwitch = true) : ∃ test, b.kind.test? = some test ∧
    ∀ cs, b.lines cs = .header b :: cs.map fun c => .jumpIf (test c.caseValue) c := by
  rw [isSwitch_eq_isSome_test?, Option.isSome_iff_exists] at h
  obtain ⟨test, ht⟩ := h
  exact ⟨test, ht, fun cs => by simp [lines, ht]⟩

/-- A block that is no switch tests nothing. -/
theorem Block.test?_of_not_isSwitch (h : b.isSwitch = false) : b.kind.test? = none := by
  rwa [isSwitch_eq_isSome_test?, Option.isSome_eq_false_iff, Option.isNone_iff_eq_none] at h

/-- The jumps of a switch choose among its cases, and fall through to what stands behind them. -/
theorem ahead_jumps {test : String → Test} (h : ∀ past, ahead o past ls = some ⟨past, some d⟩) :
    ahead o past (cs.map (fun c => .jumpIf (test c.caseValue) c) ++ ls) =
      some (choose o test (some d) past cs) := by
  induction cs generalizing past with
  | nil => exact h past
  | cons c cs ih =>
    rw [List.map_cons, List.cons_append, ahead, choose, ih]
    split <;> rfl

/-- No header stands among jumps. -/
theorem suffix_of_suffix_jumps {test : String → Test} {ks : List Line}
    (h : .header b :: ls <:+ cs.map (fun c => .jumpIf (test c.caseValue) c) ++ ks) :
    .header b :: ls <:+ ks := by
  induction cs with
  | nil => exact h
  | cons c cs ih =>
    rw [List.map_cons, List.cons_append, List.suffix_cons_iff] at h
    rcases h with h | h
    · cases h
    · exact ih h

/-! ## Lines of walks -/

/-- The lines of an expansion begin with the header of its block. -/
theorem Script.exists_lines_expand (h : s.expand b = (items, .ok tasks)) :
    ∃ ls, items.flatMap Item.lines = .header b :: ls := by
  rcases expand_ok_cases h with
    ⟨_, _, -, -, rfl, -⟩ | ⟨-, -, rfl, -⟩ | ⟨_, -, -, rfl, -⟩ <;> exact ⟨_, rfl⟩

/-- The lines of a walk begin with the header of the block that it visits, or with a jump there. -/
theorem Walked.ahead_visit (h : Walked s fresh (.visit b :: rest) t) (hf : t.fault = none) :
    ahead o past (t.items.flatMap Item.lines) = some ⟨past, some b⟩ := by
  cases h with
  | rejoin => rfl
  | stop => cases hf
  | go _ he =>
    obtain ⟨ls, hls⟩ := Script.exists_lines_expand he
    rw [Trace.items_prepend, List.flatMap_append, hls]
    rfl

/-- The lines of a walk begin in the same way when the branch is only taken up. -/
theorem Walked.ahead_enter (h : Walked s fresh (.enter b :: rest) t) (hf : t.fault = none) :
    ahead o past (t.items.flatMap Item.lines) = some ⟨past, some b⟩ := by
  cases h with
  | @enter _ _ _ t h =>
    have hb : ahead o past (t.items.flatMap Item.lines) = some ⟨past, some b⟩ := h.ahead_visit hf
    exact hb

/-- Behind a header the lines of a walk go on to where the script goes on to. -/
theorem Walked.ahead_header (h : Walked s fresh tasks t) (hf : t.fault = none)
    (hs : .header b :: ls <:+ t.items.flatMap Item.lines) :
    ahead o past ls = some (s.leave o past b) := by
  induction h with
  | nil => simp at hs
  | enter _ ih => exact ih hf hs
  | rejoin _ _ ih =>
    rcases List.suffix_cons_iff.1 hs with hs | hs
    · cases hs
    · exact ih hf hs
  | stop => cases hf
  | @go _ b' _ _ _ t _ he hw ih =>
    rw [Trace.items_prepend, List.flatMap_append] at hs
    rcases Script.expand_ok_cases he with
      ⟨cs, d, hsw, hbr, rfl, rfl⟩ | ⟨hsw, hn, rfl, rfl⟩ | ⟨c, hsw, hn, rfl, rfl⟩
    · obtain ⟨test, ht, hlines⟩ := Block.exists_test_of_isSwitch hsw
      obtain ⟨-, hcs, hd⟩ := Script.branches_eq_ok.1 hbr
      rw [List.flatMap_singleton, Item.lines, hlines, List.cons_append, List.suffix_cons_iff] at hs
      rcases hs with hs | hs
      -- The jumps fall through into the default, since that is the task that comes next.
      · cases hs
        rw [ahead_jumps fun past => hw.ahead_enter hf, Script.leave, ht, hcs,
          Script.find?_isDefault_arms.2 hd]
      · exact ih hf (suffix_of_suffix_jumps hs)
    · have hlines : [Item.plain b', .finish].flatMap Item.lines = [.header b', .hangup] := by
        simp [Item.lines, Block.lines_of_not_isSwitch hsw]
      rw [hlines, List.cons_append, List.suffix_cons_iff] at hs
      rcases hs with hs | hs
      · cases hs
        rw [Script.leave, Block.test?_of_not_isSwitch hsw, Script.next_eq_ok_none.1 hn]
        rfl
      · rcases List.suffix_cons_iff.1 hs with hs | hs
        · cases hs
        · exact ih hf hs
    · have hlines : [Item.plain b'].flatMap Item.lines = [.header b'] := by
        simp [Item.lines, Block.lines_of_not_isSwitch hsw]
      rw [hlines, List.cons_append, List.suffix_cons_iff] at hs
      rcases hs with hs | hs
      · cases hs
        obtain ⟨hj, hc⟩ := Script.next_eq_ok_some.1 hn
        rw [Script.leave, Block.test?_of_not_isSwitch hsw, hj, Option.bind_some, hc]
        exact hw.ahead_visit hf
      · exact ih hf hs

/-! ## Where jumps go -/

/-- The lines of an expansion jump to blocks of its tasks. -/
theorem Script.mem_tasks_of_target? {l : Line}
    (h : s.expand b = (items, .ok tasks)) (hl : l ∈ items.flatMap Item.lines)
    (hc : l.target? = some c) : c ∈ tasks.map Task.block := by
  rcases expand_ok_cases h with ⟨cs, d, hsw, -, rfl, rfl⟩ | ⟨hsw, -, rfl, -⟩ | ⟨_, hsw, -, rfl, -⟩
  · obtain ⟨test, -, hlines⟩ := Block.exists_test_of_isSwitch hsw
    rw [List.flatMap_singleton, Item.lines, hlines, List.mem_cons] at hl
    rcases hl with rfl | hl
    · cases hc
    · obtain ⟨c', hc', rfl⟩ := List.mem_map.1 hl
      cases hc
      simpa using .inr hc'
  · simp only [List.flatMap_cons, List.flatMap_nil, Item.lines, Block.lines_of_not_isSwitch hsw,
      List.append_nil, List.cons_append, List.nil_append, List.mem_cons, List.not_mem_nil,
      or_false] at hl
    rcases hl with rfl | rfl <;> cases hc
  · rw [List.flatMap_singleton, Item.lines, Block.lines_of_not_isSwitch hsw,
      List.mem_singleton] at hl
    subst hl
    cases hc

/-- Without a fault every jump of a walk goes to a block of the script, whose id is rendered if it
was fresh. -/
theorem Walked.target_rendered {l : Line} (h : Walked s fresh tasks t) (hf : t.fault = none)
    (hk : ∀ b ∈ tasks.map Task.block, s.block? b.id = some b)
    (hl : l ∈ t.items.flatMap Item.lines) (hc : l.target? = some c) :
    s.block? c.id = some c ∧ (c.id ∈ fresh → c.id ∈ t.done) := by
  induction h with
  | nil => cases hl
  | enter _ ih => exact ih hf hk hl
  | rejoin hb _ ih =>
    rw [List.map_cons, List.forall_mem_cons] at hk
    rcases List.mem_cons.1 hl with rfl | hl
    · cases hc
      exact ⟨hk.1, fun hfresh => absurd hfresh hb⟩
    · exact ih hf hk.2 hl
  | stop => cases hf
  | @go fresh b items tasks rest t _ he hw ih =>
    rw [List.map_cons, List.forall_mem_cons] at hk
    rw [Trace.items_prepend, List.flatMap_append, List.mem_append] at hl
    have hrest : s.block? c.id = some c ∧ (c.id ∈ without fresh b.id → c.id ∈ t.done) := by
      rcases hl with hl | hl
      · have hmem := Script.mem_tasks_of_target? he hl hc
        refine ⟨Script.block?_of_expand he hmem, hw.mem_done_of_task hf c ?_⟩
        rw [List.map_append]
        exact List.mem_append_left _ hmem
      · refine ih hf ?_ hl
        rw [List.map_append, List.forall_mem_append]
        exact ⟨fun c hc => Script.block?_of_expand he hc, hk.2⟩
    exact ⟨hrest.1, fun hfresh => Script.mem_done_prepend he hfresh hrest.2⟩

/-! ## Labels -/

/-- A label that a block of the script alone carries leads to the header of that block. -/
theorem Program.exists_seek {p : List Line} (hlabels : (s.blocks.map (·.label)).Nodup)
    (hp : ∀ b, .header b ∈ p → b ∈ s.blocks) (hc : c ∈ s.blocks) (hne : c.label ≠ "")
    (hmem : .header c ∈ p) : ∃ ls, seek c.label p = some (.header c :: ls) := by
  induction p with
  | nil => cases hmem
  | cons l p ih =>
    unfold seek
    by_cases hl : l.label = c.label
    · refine ⟨p, ?_⟩
      rw [if_pos ⟨hl, hne⟩]
      cases l with
      | header b =>
        have hb : b = c := List.inj_on_of_nodup_map hlabels (hp b List.mem_cons_self) hc hl
        rw [hb]
      | jumpIf _ _ | jump _ | hangup => exact absurd hl.symm hne
    · rw [if_neg fun h => hl h.1]
      refine ih (fun b hb => hp b (List.mem_cons_of_mem _ hb)) ?_
      rcases List.mem_cons.1 hmem with rfl | hmem
      · exact absurd rfl hl
      · exact hmem

/-- A block of a script with distinct ids is the block of its id. -/
theorem Script.block?_of_mem (hids : (s.blocks.map (·.id)).Nodup) (hb : b ∈ s.blocks) :
    s.block? b.id = some b := by
  cases h : s.block? b.id with
  | none => simpa using List.find?_eq_none.1 h b hb
  | some c =>
    have hid := id_of_block? h
    rw [List.inj_on_of_nodup_map hids (mem_of_block? h) hb hid]

/-- An entry that the script has under its own id changes no lookup. -/
theorem Script.blockFrom_eq_block? (h : s.block? entry.id = some entry) (i : LocalId) :
    s.blockFrom entry i = s.block? i := by
  by_cases hi : i = entry.id
  · rw [hi, blockFrom_entry, h]
  · exact blockFrom_of_ne hi

/-! ## Bodies -/

/-- The headers of a walk are those of the blocks that it renders. -/
theorem Trace.header_mem_lines : .header b ∈ t.items.flatMap Item.lines ↔ b ∈ t.rendered := by
  rw [← filterMap_rendered?_lines, List.mem_filterMap]
  constructor
  · intro h
    exact ⟨_, h, rfl⟩
  · rintro ⟨l, hl, hb⟩
    cases l with
    | header c => cases hb; exact hl
    | jumpIf _ _ | jump _ | hangup => cases hb

/-- A fresh block at hand is rendered first. -/
theorem Walked.lines_eq_cons (h : Walked s fresh (.enter b :: rest) t) (hf : t.fault = none)
    (hb : b.id ∈ fresh) : ∃ ls, t.items.flatMap Item.lines = .header b :: ls := by
  cases h with
  | enter h =>
    cases h with
    | rejoin hnot => exact absurd hb hnot
    | stop => cases hf
    | @go _ _ items _ _ t _ he =>
      obtain ⟨ls, hls⟩ := Script.exists_lines_expand he
      refine ⟨ls ++ t.items.flatMap Item.lines, ?_⟩
      change (items ++ t.items).flatMap Item.lines = .header b :: (ls ++ _)
      rw [List.flatMap_append, hls, List.cons_append]

/-- The body of a script with distinct ids and distinct labels is arranged for the script. -/
theorem Script.arranged_walk (hids : (s.blocks.map (·.id)).Nodup)
    (hlabels : (s.blocks.map (·.label)).Nodup) (hnamed : ∀ b ∈ s.blocks, b.label ≠ "")
    (hstart : s.start? = some entry) (hf : (s.walk entry).fault = none) :
    Arranged s ((s.walk entry).items.flatMap Item.lines) := by
  have hw := s.walked_walk entry
  have hentry : s.block? entry.id = some entry :=
    block?_of_mem hids (List.mem_of_find?_eq_some hstart)
  have hknown : ∀ b ∈ (s.walk entry).rendered, s.block? b.id = some b := fun b hb =>
    (blockFrom_eq_block? hentry b.id).symm.trans (hw.rendered_sound sourced_entry b hb).1
  have hseek : ∀ l ∈ (s.walk entry).items.flatMap Item.lines, ∀ c, l.target? = some c →
      ∃ ls, Program.seek c.label ((s.walk entry).items.flatMap Item.lines) =
        some (.header c :: ls) := by
    intro l hl c hc
    have hsource : ∀ b ∈ [entry], s.block? b.id = some b := by simpa using hentry
    obtain ⟨hcb, hdone⟩ := hw.target_rendered hf hsource hl hc
    have hcs : c ∈ s.blocks := mem_of_block? hcb
    obtain ⟨b, hb, hid⟩ := Trace.mem_done.1 (hdone (mem_ids_of_block? hcb))
    have hbc : b = c := by
      have hbb := hknown b hb
      rw [hid, hcb] at hbb
      exact (Option.some_inj.1 hbb).symm
    refine Program.exists_seek hlabels (fun b hb => ?_) hcs (hnamed c hcs) ?_
    · exact mem_of_block? (hknown b (Trace.header_mem_lines.1 hb))
    · exact Trace.header_mem_lines.2 (hbc ▸ hb)
  obtain ⟨ls, hls⟩ := hw.lines_eq_cons hf List.mem_cons_self
  exact
    { start := ⟨entry, ls, hstart, hls⟩
      leave := fun b ls hs o past => hw.ahead_header hf hs
      jump := hseek }

/-- **Compiling a script keeps its meaning.** For a script with distinct ids and with distinct
labels that are not empty, the text of its body is that of lines that run as a call over the graph
does, whatever decides the conditions: at every length they run the same headers, the one has ended
exactly when the other has, and the lines are never left by any other way. -/
theorem Script.compile_preserves_calls {host text : String} (hids : (s.blocks.map (·.id)).Nodup)
    (hlabels : (s.blocks.map (·.label)).Nodup) (hnamed : ∀ b ∈ s.blocks, b.label ≠ "")
    (h : s.compile host = .ok text) :
    ∃ p, s.body = .ok p ∧ text = Line.textAll (some host) p ∧ ∀ o : Oracle,
      (∀ ls, (∃ k, headers (Program.run p o k).past = ls) ↔
        ∃ n, headers (s.call o n).past = ls) ∧
      (∀ ls, (∃ k, (Program.run p o k).place = .ended ∧ headers (Program.run p o k).past = ls) ↔
        ∃ n, (s.call o n).block = none ∧ headers (s.call o n).past = ls) ∧
      ∀ k, (Program.run p o k).place ≠ .lost := by
  cases hstart : s.start? with
  | none =>
    rw [compile_of_start?_eq_none hstart] at h
    cases h
  | some entry =>
    rw [compile_of_start? hstart] at h
    obtain ⟨hf, rfl⟩ := compileFrom_eq_ok.1 h
    have ha := arranged_walk hids hlabels hnamed hstart hf
    refine ⟨_, ?_, rfl, fun o => ⟨ha.headers_iff o, ha.ended_iff o, ha.not_lost o⟩⟩
    simp only [body, walkStart, hstart, Trace.lines, hf]

end

/-- The menu that asks again, run as lines and walked as a graph. -/
theorem Script.retryMenu_preserves_calls :
    (retryMenu.blocks.map (·.id)).Nodup ∧ (retryMenu.blocks.map (·.label)).Nodup ∧
    (∀ b ∈ retryMenu.blocks, b.label ≠ "") ∧ ∃ text, retryMenu.compile "10.0.0.5" = .ok text ∧
    ∃ p, retryMenu.body = .ok p ∧ text = Line.textAll (some "10.0.0.5") p ∧ ∀ o : Oracle,
      (∀ ls, (∃ k, headers (Program.run p o k).past = ls) ↔
        ∃ n, headers (retryMenu.call o n).past = ls) ∧
      (∀ ls, (∃ k, (Program.run p o k).place = .ended ∧ headers (Program.run p o k).past = ls) ↔
        ∃ n, (retryMenu.call o n).block = none ∧ headers (retryMenu.call o n).past = ls) ∧
      ∀ k, (Program.run p o k).place ≠ .lost := by
  have hids : (retryMenu.blocks.map (·.id)).Nodup := by decide
  have hlabels : (retryMenu.blocks.map (·.label)).Nodup := by decide
  have hnamed : ∀ b ∈ retryMenu.blocks, b.label ≠ "" := by decide
  have hf : (retryMenu.walk ⟨1, "in", .start⟩).fault = none := by cbv
  obtain ⟨text, h⟩ : ∃ text, retryMenu.compile "10.0.0.5" = .ok text := by
    rw [compile_of_start? rfl]
    exact exists_compileFrom_eq_ok hf
  exact ⟨hids, hlabels, hnamed, text, h, compile_preserves_calls hids hlabels hnamed h⟩

end CallFlow
