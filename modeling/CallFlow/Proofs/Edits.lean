import CallFlow.Proofs.Faults
import CallFlow.Proofs.Renaming
import Mathlib.Data.List.Induction

/-!
# Edits that change no body

Blocks and connections are added behind those that are there, and the first ones count. A block that
is added is found only by lookups that found nothing before, so it can change a body only where the
script had no start, or where compiling it stopped for want of that block
(`Walked.addBlock`, `Script.compile_addBlock_of_ne`). A connection that is added changes what a call
looks up only at a switch in reach or at a block in reach that led nowhere. An edit of a script with
a body that is out of the way in this sense (`Script.Harmless`) leaves the script the same to every
call (`SameInReach`), and with it what is in reach, so it leaves the next edits as harmless as they
were (`SameInReach.harmless_iff`).
-/

namespace CallFlow

open Relation

/-- Something that is added to a script, behind what it has. -/
inductive Edit where
  | addBlock (block : Block)
  | connect (source target : LocalId)
deriving DecidableEq, Repr

namespace Script

/-- The script after an edit. -/
def edit (s : Script) : Edit → Script
  | .addBlock b => s.addBlock b
  | .connect i j => s.connect i j

/-- The script after edits, in order. -/
def editAll (s : Script) (es : List Edit) : Script :=
  es.foldl edit s

/-- The edit is out of the way of calls: it adds a block, or a connection from an id that is out of
reach or whose block is no switch and leads somewhere already. -/
def Harmless (s : Script) : Edit → Prop
  | .addBlock _ => True
  | .connect i _ => i ∉ s.reach ∨
      ∃ b ∈ s.reachedBlocks, b.id = i ∧ b.isSwitch = false ∧ s.targets i ≠ []

end Script

/-- Two scripts are the same to a call: it enters at the same block, and at every block in reach it
looks up the same ids, with the same blocks behind them or none. -/
structure SameInReach (s s' : Script) : Prop where
  start? : s'.start? = s.start?
  lookups : ∀ b ∈ s.reachedBlocks, b.lookups (s'.targets b.id) = b.lookups (s.targets b.id)
  block? : ∀ b ∈ s.reachedBlocks, ∀ j ∈ b.lookups (s.targets b.id), s'.block? j = s.block? j

section
variable {s s' s'' : Script} {entry b c : Block} {fresh fresh' : List LocalId} {tasks : List Task}
  {t : Trace} {i j : LocalId} {f : Fault} {host text : String}

/-! ## One more block -/

/-- Following a connection finds the same with one more block, unless it failed for want of it. -/
theorem Script.follow_addBlock (h : s.follow i ≠ .error (.noBlock b.id)) :
    (s.addBlock b).follow i = s.follow i := by
  unfold follow at h ⊢
  rw [block?_addBlock]
  cases hi : s.block? i with
  | some c => rfl
  | none =>
    rw [hi] at h
    have hne : b.id ≠ i := by
      rintro rfl
      exact h rfl
    rw [Option.none_or, if_neg hne]

/-- So does following a list of connections, of which only the first failure is told. -/
theorem Script.mapM_follow_addBlock {is : List LocalId}
    (h : is.mapM s.follow ≠ .error (.noBlock b.id)) :
    is.mapM (s.addBlock b).follow = is.mapM s.follow := by
  induction is with
  | nil => rfl
  | cons i is ih =>
    rw [List.mapM_cons] at h
    rw [List.mapM_cons, List.mapM_cons]
    have hfirst : s.follow i ≠ .error (.noBlock b.id) := by
      intro hi
      rw [hi] at h
      exact h rfl
    rw [follow_addBlock hfirst]
    cases hi : s.follow i with
    | error f => rfl
    | ok c =>
      have hrest : is.mapM s.follow ≠ .error (.noBlock b.id) := by
        intro hrest
        rw [hi, hrest] at h
        exact h rfl
      rw [ih hrest]

/-- A switch has the same branches with one more block, unless it had none for want of it. -/
theorem Script.branches_addBlock (h : s.branches c ≠ .error (.noBlock b.id)) :
    (s.addBlock b).branches c = s.branches c := by
  have hfollow : (s.targets c.id).mapM s.follow ≠ .error (.noBlock b.id) := by
    intro hfollow
    rw [branches, hfollow] at h
    exact h rfl
  have htargets : (s.addBlock b).targets c.id = s.targets c.id := rfl
  rw [branches, branches, htargets, mapM_follow_addBlock hfollow]

/-- A block leads to the same with one more block, unless it led nowhere for want of it. -/
theorem Script.next_addBlock (h : s.next c ≠ .error (.noBlock b.id)) :
    (s.addBlock b).next c = s.next c := by
  have htargets : (s.addBlock b).targets c.id = s.targets c.id := rfl
  unfold next at h ⊢
  rw [htargets]
  cases hc : s.targets c.id with
  | nil => rfl
  | cons i is =>
    have hfollow : s.follow i ≠ .error (.noBlock b.id) := by
      intro hfollow
      simp only [hc, hfollow] at h
      exact h rfl
    dsimp only
    rw [follow_addBlock hfollow]

/-- Expanding a block comes to the same with one more block, unless it failed for want of it. -/
theorem Script.expand_addBlock (h : (s.expand c).2 ≠ .error (.noBlock b.id)) :
    (s.addBlock b).expand c = s.expand c := by
  unfold expand
  cases hsw : c.isSwitch with
  | true =>
    have hbranches : s.branches c ≠ .error (.noBlock b.id) := fun hb =>
      h (by simp [expand, hsw, hb])
    rw [branches_addBlock hbranches]
    rfl
  | false =>
    have hnext : s.next c ≠ .error (.noBlock b.id) := fun hn =>
      h (by simp [expand, hsw, hn])
    rw [next_addBlock hnext]
    rfl

/-- A walk goes the same way with one more block, unless it stopped for want of it. -/
theorem Walked.addBlock (h : Walked s fresh tasks t) (hf : t.fault ≠ some (.noBlock b.id))
    (hin : ∀ c ∈ tasks.map Task.block, c.id ∈ entry.id :: s.blocks.map (·.id))
    (hfresh : ∀ i ∈ entry.id :: s.blocks.map (·.id), i ∈ fresh ↔ i ∈ fresh') :
    Walked (s.addBlock b) fresh' tasks t := by
  -- Both sets of fresh ids shrink along the walk, so neither is fixed in the induction.
  induction h generalizing fresh' with
  | nil => exact .nil
  | enter _ ih => exact .enter (ih hf hin hfresh)
  | rejoin hc _ ih =>
    rw [List.map_cons, List.forall_mem_cons] at hin
    exact .rejoin (mt (hfresh _ hin.1).2 hc) (ih hf hin.2 hfresh)
  | stop hc he =>
    rw [List.map_cons, List.forall_mem_cons] at hin
    refine .stop ((hfresh _ hin.1).1 hc) ((Script.expand_addBlock ?_).trans he)
    rw [he]
    rintro ⟨⟩
    exact hf rfl
  | go hc he _ ih =>
    rw [List.map_cons, List.forall_mem_cons] at hin
    refine .go ((hfresh _ hin.1).1 hc) ((Script.expand_addBlock ?_).trans he) (ih hf ?_ ?_)
    · rw [he]
      exact nofun
    · rw [List.map_append, List.forall_mem_append]
      exact ⟨fun c hc => Script.mem_ids_of_block? (Script.block?_of_expand he hc), hin.2⟩
    · intro i hi
      rw [mem_without, mem_without, hfresh i hi]

/-- The walk from an entry block is the same with one more block, unless it stopped for want of it.
-/
theorem Script.walk_addBlock (hf : (s.walk entry).fault ≠ some (.noBlock b.id)) :
    (s.addBlock b).walk entry = s.walk entry := by
  refine ((s.walked_walk entry).addBlock hf ?_ fun i hi => iff_of_true hi ?_).eq.symm
  · exact List.forall_mem_singleton.2 List.mem_cons_self
  · rw [addBlock, List.map_append, ← List.cons_append]
    exact List.mem_append_left _ hi

/-- Where calls enter stays with one more block, unless there was no such place and the block is
one. -/
theorem Script.start?_addBlock : (s.addBlock b).start? =
    s.start?.or (if b.isStart then some b else none) := by
  simp only [start?, addBlock, List.find?_append, List.find?_singleton]

/-- A script compiles to the same with one more block, unless it did not compile for want of it. -/
theorem Script.compile_addBlock_of_ne
    (hstart : ¬ (s.compile host = .error .noStart ∧ b.isStart = true))
    (h : s.compile host ≠ .error (.noBlock b.id)) :
    (s.addBlock b).compile host = s.compile host := by
  cases hs : s.start? with
  | none =>
    have hfail : s.compile host = .error .noStart := compile_of_start?_eq_none hs
    have hb : b.isStart = false := Bool.eq_false_iff.2 fun hb => hstart ⟨hfail, hb⟩
    rw [hfail, compile_of_start?_eq_none]
    simp [start?_addBlock, hs, hb]
  | some entry =>
    have hs' : (s.addBlock b).start? = some entry := by simp [start?_addBlock, hs]
    rw [compile_of_start? hs] at h
    have hf : (s.walk entry).fault ≠ some (.noBlock b.id) := mt compileFrom_eq_error.2 h
    rw [compile_of_start? hs, compile_of_start? hs', compileFrom, compileFrom, walk_addBlock hf]

/-- A script does not compile for want of a block only if it has none of that id. -/
theorem Script.block?_of_compile_eq_error (h : s.compile host = .error (.noBlock i)) :
    s.block? i = none := by
  cases hs : s.start? with
  | none =>
    rw [compile_of_start?_eq_none hs] at h
    cases h
  | some entry =>
    rw [compile_of_start? hs] at h
    obtain ⟨j, -, hj⟩ := exists_faulty_of_walk (compileFrom_eq_error.1 h)
    cases hj with
    | next _ _ _ hnone => exact hnone
    | target _ _ hd =>
      exact Option.isNone_iff_eq_none.1
        (List.find?_some (p := fun j => (s.block? j).isNone) hd)

/-- A script fails for want of a start block only if it has none. -/
theorem Script.start?_of_compile_eq_error (h : s.compile host = .error .noStart) :
    s.start? = none := by
  cases hs : s.start? with
  | none => rfl
  | some entry =>
    rw [compile_of_start? hs] at h
    obtain ⟨i, -, hi⟩ := exists_faulty_of_walk (compileFrom_eq_error.1 h)
    exact absurd rfl hi.ne_noStart

/-- With one more block a script compiles to the same exactly if it did not fail for want of it: of
a start block, or of any block of its id. -/
theorem Script.compile_addBlock : (s.addBlock b).compile host = s.compile host ↔
    ¬ (s.compile host = .error .noStart ∧ b.isStart = true) ∧
      s.compile host ≠ .error (.noBlock b.id) := by
  refine ⟨fun h => ⟨?_, fun hfail => ?_⟩, fun h => compile_addBlock_of_ne h.1 h.2⟩
  · rintro ⟨hfail, hb⟩
    have hnone := start?_of_compile_eq_error (h.trans hfail)
    simp [start?_addBlock, hb] at hnone
  · have hnone := block?_of_compile_eq_error (h.trans hfail)
    simp [block?_addBlock] at hnone

/-! ## Scripts that are the same to calls -/

/-- A call that looks up the same at a block that is no switch finds the same first target. -/
theorem Block.head?_of_lookups {is js : List LocalId} (hsw : b.isSwitch = false)
    (h : b.lookups is = b.lookups js) : is.head? = js.head? := by
  have hhead := congrArg List.head? h
  rwa [lookups_of_not_isSwitch hsw, lookups_of_not_isSwitch hsw, Option.head?_toList,
    Option.head?_toList] at hhead

/-- Where an id leads to depends on its block, on the ids that a call looks up there and on the
blocks behind them. -/
theorem Script.Leads.congr (h : s.Leads entry i j) (hb : s.blockFrom entry i = some b)
    (hb' : s'.blockFrom entry i = some b)
    (hlook : b.lookups (s'.targets i) = b.lookups (s.targets i))
    (hblock : ∀ j ∈ b.lookups (s.targets i), s'.block? j = s.block? j) : s'.Leads entry i j := by
  have hu : ∀ {c}, s.blockFrom entry i = some c → c = b := fun hc =>
    Option.some_inj.1 (hc.symm.trans hb)
  cases h with
  | next hc hsw hj =>
    obtain rfl := hu hc
    exact .next hb' hsw ((Block.head?_of_lookups hsw hlook).trans hj)
  | «case» hc hsw hj hk hcase =>
    obtain rfl := hu hc
    rw [Block.lookups_of_isSwitch hsw] at hblock
    rw [Block.lookups_of_isSwitch hsw, Block.lookups_of_isSwitch hsw] at hlook
    exact .case hb' hsw (hlook ▸ hj) ((hblock j hj).trans hk) hcase
  | default hc hsw hj =>
    obtain rfl := hu hc
    rw [Block.lookups_of_isSwitch hsw] at hblock
    rw [Block.lookups_of_isSwitch hsw, Block.lookups_of_isSwitch hsw] at hlook
    have hdefault : s'.default? i = s.default? i := by
      unfold Script.default?
      rw [hlook]
      exact List.find?_congr fun j hj => by rw [hblock j hj]
    exact .default hb' hsw (hdefault.trans hj)

namespace SameInReach

/-- Scripts that are the same to calls have the same body. -/
theorem compile_eq (h : SameInReach s s') (host : String) : s'.compile host = s.compile host := by
  have hr : s.Renamed (fun i => i) s' :=
    Script.renamed_self h.start? fun b hb => ⟨h.lookups b hb, h.block? b hb⟩
  rw [hr.compile_eq host, mapError_rename_self]

/-- The blocks of the ids in reach are the same. -/
theorem blockFrom_eq (h : SameInReach s s') (hs : s.start? = some entry) (hi : i ∈ s.reach) :
    s'.blockFrom entry i = s.blockFrom entry i := by
  obtain ⟨entry', hs', hr⟩ := hi
  cases hs.symm.trans hs'
  by_cases hid : i = entry.id
  · rw [hid, Script.blockFrom_entry, Script.blockFrom_entry]
  · rw [Script.blockFrom_of_ne hid, Script.blockFrom_of_ne hid]
    -- An id other than that of the entry is looked up at a block in reach.
    rcases ReflTransGen.cases_tail hr with rfl | ⟨k, hk, hl⟩
    · exact absurd rfl hid
    · obtain ⟨b, hb, hlook⟩ := hl.mem_lookups
      obtain rfl := Script.id_of_blockFrom hb
      exact h.block? b ⟨entry, hs, hk, hb⟩ i hlook

/-- The ids in reach lead to the same ids. -/
theorem leads_iff (h : SameInReach s s') (hs : s.start? = some entry) (hi : i ∈ s.reach) :
    s'.Leads entry i j ↔ s.Leads entry i j := by
  have hfrom := h.blockFrom_eq hs hi
  constructor
  · intro hl
    obtain ⟨b, hb', -⟩ := hl.mem_lookups
    have hb := hfrom.symm.trans hb'
    obtain rfl := Script.id_of_blockFrom hb
    have hmem : b ∈ s.reachedBlocks := Script.mem_reachedBlocks hs hi hb
    have hlook := h.lookups b hmem
    refine hl.congr hb' hb hlook.symm fun k hk => (h.block? b hmem k ?_).symm
    rwa [hlook] at hk
  · intro hl
    obtain ⟨b, hb, -⟩ := hl.mem_lookups
    obtain rfl := Script.id_of_blockFrom hb
    have hmem : b ∈ s.reachedBlocks := Script.mem_reachedBlocks hs hi hb
    exact hl.congr hb (hfrom.trans hb) (h.lookups b hmem) (h.block? b hmem)

/-- The same ids are in reach. -/
theorem reach_eq (h : SameInReach s s') : s'.reach = s.reach := by
  ext i
  constructor
  · rintro ⟨entry, hs', hr⟩
    have hs : s.start? = some entry := h.start?.symm.trans hs'
    induction hr with
    | refl => exact ⟨entry, hs, .refl⟩
    | tail _ hl ih => exact Script.mem_reach_of_leads hs ih ((h.leads_iff hs ih).1 hl)
  · rintro ⟨entry, hs, hr⟩
    have hs' : s'.start? = some entry := h.start?.trans hs
    induction hr with
    | refl => exact ⟨entry, hs', .refl⟩
    | tail hr hl ih =>
      exact Script.mem_reach_of_leads hs' ih ((h.leads_iff hs ⟨entry, hs, hr⟩).2 hl)

/-- The same blocks are in reach. -/
theorem reachedBlocks_eq (h : SameInReach s s') : s'.reachedBlocks = s.reachedBlocks := by
  ext b
  constructor
  · rintro ⟨entry, hs', hr, hb⟩
    have hs : s.start? = some entry := h.start?.symm.trans hs'
    have hi : b.id ∈ s.reach := h.reach_eq ▸ ⟨entry, hs', hr⟩
    exact Script.mem_reachedBlocks hs hi ((h.blockFrom_eq hs hi).symm.trans hb)
  · rintro ⟨entry, hs, hr, hb⟩
    have hs' : s'.start? = some entry := h.start?.trans hs
    have hi : b.id ∈ s.reach := ⟨entry, hs, hr⟩
    exact Script.mem_reachedBlocks hs' (h.reach_eq ▸ hi) ((h.blockFrom_eq hs hi).trans hb)

/-- A script is the same as itself to calls. -/
theorem refl (s : Script) : SameInReach s s :=
  ⟨rfl, fun _ _ => rfl, fun _ _ _ _ => rfl⟩

/-- What is the same to calls as a script that is the same to calls is the same to calls. -/
theorem trans (h : SameInReach s s') (h' : SameInReach s' s'') : SameInReach s s'' := by
  refine ⟨h'.start?.trans h.start?, fun b hb => ?_, fun b hb j hj => ?_⟩
  · exact (h'.lookups b (h.reachedBlocks_eq ▸ hb)).trans (h.lookups b hb)
  · rw [← h.block? b hb j hj]
    refine h'.block? b (h.reachedBlocks_eq ▸ hb) j ?_
    rwa [h.lookups b hb]

/-- The same edits are out of the way of calls. -/
theorem harmless_iff (h : SameInReach s s') (e : Edit) : s'.Harmless e ↔ s.Harmless e := by
  cases e with
  | addBlock b => exact Iff.rfl
  | connect i j =>
    unfold Script.Harmless
    dsimp only
    rw [h.reach_eq, h.reachedBlocks_eq]
    refine or_congr_right (exists_congr fun b => and_congr_right fun hb => ?_)
    refine and_congr_right fun hid => and_congr_right fun hsw => not_congr ?_
    subst hid
    rw [← List.head?_eq_none_iff, ← List.head?_eq_none_iff,
      Block.head?_of_lookups hsw (h.lookups b hb)]

end SameInReach

/-! ## Harmless edits -/

/-- In a script with a body, all that a call looks up is there. -/
theorem Script.exists_block?_of_lookups (h : s.compile host = .ok text) (hb : b ∈ s.reachedBlocks)
    (hj : j ∈ b.lookups (s.targets b.id)) : ∃ c, s.block? j = some c := by
  obtain ⟨entry, hs, hr, hb⟩ := hb
  rw [compile_of_start? hs] at h
  have hsound : ∀ f, ¬ s.Faulty entry b.id f := fun f =>
    not_faulty_of_walk (compileFrom_eq_ok.1 h).1 hr
  refine Option.ne_none_iff_exists'.1 fun hnone => ?_
  cases hsw : b.isSwitch with
  | true =>
    rw [Block.lookups_of_isSwitch hsw] at hj
    cases hd : s.dangling? b.id with
    | some k => exact hsound _ (.target hb hsw hd)
    | none =>
      have hfound := List.find?_eq_none.1 hd j hj
      simp [hnone] at hfound
  | false =>
    rw [Block.lookups_of_not_isSwitch hsw, Option.mem_toList] at hj
    exact hsound _ (.next hb hsw hj hnone)

/-- An edit that is out of the way of calls leaves a script with a body the same to them. -/
theorem Script.sameInReach_edit {e : Edit} (h : s.compile host = .ok text) (he : s.Harmless e) :
    SameInReach s (s.edit e) := by
  cases e with
  | addBlock c =>
    refine ⟨?_, fun b _ => rfl, fun b hb j hj => ?_⟩
    · cases hs : s.start? with
      | none =>
        rw [compile_of_start?_eq_none hs] at h
        cases h
      | some entry => simp [edit, start?_addBlock, hs]
    · obtain ⟨d, hd⟩ := exists_block?_of_lookups h hb hj
      rw [edit, block?_addBlock, hd, Option.some_or]
  | connect i k =>
    refine ⟨rfl, fun b hb => ?_, fun b _ j _ => rfl⟩
    rw [edit, targets_connect]
    by_cases hid : i = b.id
    · obtain ⟨entry, hs, hr, hfrom⟩ := hb
      rcases he with hi | ⟨b', ⟨entry', hs', -, hfrom'⟩, hid', hsw, hne⟩
      · exact absurd ⟨entry, hs, hid ▸ hr⟩ hi
      · cases hs.symm.trans hs'
        have hbb : b' = b := by
          rw [hid', hid, hfrom] at hfrom'
          exact (Option.some_inj.1 hfrom').symm
        subst hbb
        rw [Block.lookups_of_not_isSwitch hsw, Block.lookups_of_not_isSwitch hsw,
          List.head?_append_of_ne_nil _ (hid ▸ hne)]
    · rw [if_neg hid, List.append_nil]

/-- The script after one more edit. -/
theorem Script.editAll_concat (es : List Edit) (e : Edit) :
    s.editAll (es ++ [e]) = (s.editAll es).edit e := by
  rw [editAll, List.foldl_append]
  rfl

/-- Edits that are out of the way of calls, each as the script stands then or as it stood at first,
leave a script with a body the same to calls. -/
theorem Script.sameInReach_editAll (h : s.compile host = .ok text) (es : List Edit)
    (hes : ∀ before e after, es = before ++ e :: after →
      s.Harmless e ∨ (s.editAll before).Harmless e) : SameInReach s (s.editAll es) := by
  induction es using List.reverseRecOn with
  | nil => exact .refl s
  | append_singleton es e ih =>
    have hsame : SameInReach s (s.editAll es) := by
      refine ih fun before e' after heq => hes before e' (after ++ [e]) ?_
      rw [heq, List.append_assoc, List.cons_append]
    have he : (s.editAll es).Harmless e := by
      rcases hes es e [] rfl with he | he
      · exact (hsame.harmless_iff e).2 he
      · exact he
    rw [editAll_concat]
    exact hsame.trans (sameInReach_edit ((hsame.compile_eq host).trans h) he)

/-- **Edits that cannot matter do not matter.** One more block leaves what a script compiles to, a
text or a fault, as it is, exactly unless it failed for want of a start block and the block is one,
or for want of a block of that id. A script with a body keeps it, and keeps what is in reach, under
any number of blocks and connections that are added in any order, as long as each connection starts
at an id that is out of reach or at a block in reach that is no switch and leads somewhere already;
whether that is judged as the script stands then or as it stood at first makes no difference. -/
theorem Script.compile_unchanged_by_edits (s : Script) (host : String) :
    (∀ b, (s.addBlock b).compile host = s.compile host ↔
      ¬ (s.compile host = .error .noStart ∧ b.isStart = true) ∧
        s.compile host ≠ .error (.noBlock b.id)) ∧
    ∀ text, s.compile host = .ok text → ∀ es : List Edit,
      (∀ before e after, es = before ++ e :: after →
        s.Harmless e ∨ (s.editAll before).Harmless e) →
      (s.editAll es).compile host = .ok text ∧ (s.editAll es).reach = s.reach := by
  refine ⟨fun b => compile_addBlock, fun text h es hes => ?_⟩
  have hsame := sameInReach_editAll h es hes
  exact ⟨(hsame.compile_eq host).trans h, hsame.reach_eq⟩

/-- An id in reach is that of the entry, or a connection leads to it. -/
theorem Script.mem_targets_of_mem_reach (hs : s.start? = some entry) (hi : i ∈ s.reach) :
    i ∈ entry.id :: s.connections.map (·.target) := by
  obtain ⟨entry', hs', hr⟩ := hi
  cases hs.symm.trans hs'
  rcases ReflTransGen.cases_tail hr with rfl | ⟨k, -, hl⟩
  · exact List.mem_cons_self
  · obtain ⟨b, -, hlook⟩ := hl.mem_lookups
    obtain ⟨c, hc, rfl⟩ := List.mem_map.1 (Block.lookups_subset _ hlook)
    exact List.mem_cons_of_mem _ (List.mem_map_of_mem (List.mem_of_mem_filter hc))

end

/-- The menu that asks again keeps its body when a block is added that nothing leads to, with a
connection from it and one to it behind another, and a second start. -/
theorem Script.retryMenu_unchanged_by_edits :
    let es : List Edit := [.addBlock ⟨9, "", .answer⟩, .connect 9 1, .connect 1 9,
      .addBlock ⟨1, "in", .start⟩]
    ∃ text, retryMenu.compile "10.0.0.5" = .ok text ∧
      (retryMenu.editAll es).compile "10.0.0.5" = .ok text ∧
      (retryMenu.editAll es).reach = retryMenu.reach := by
  intro es
  have hf : (retryMenu.walk ⟨1, "in", .start⟩).fault = none := by cbv
  have hstart : retryMenu.start? = some ⟨1, "in", .start⟩ := rfl
  obtain ⟨text, h⟩ : ∃ text, retryMenu.compile "10.0.0.5" = .ok text := by
    rw [compile_of_start? hstart]
    exact exists_compileFrom_eq_ok hf
  have hout : (9 : LocalId) ∉ retryMenu.reach := fun hi =>
    absurd (mem_targets_of_mem_reach hstart hi) (by decide)
  have hin : (⟨1, "in", .start⟩ : Block) ∈ retryMenu.reachedBlocks :=
    ⟨_, hstart, .refl, rfl⟩
  have hharmless : ∀ e ∈ es, retryMenu.Harmless e := by
    simp only [es, List.forall_mem_cons]
    exact ⟨trivial, .inl hout, .inr ⟨_, hin, rfl, rfl, by decide⟩, trivial, List.forall_mem_nil _⟩
  refine ⟨text, h, (compile_unchanged_by_edits retryMenu "10.0.0.5").2 text h es ?_⟩
  intro before e after heq
  exact .inl (hharmless e (heq ▸ List.mem_append_right _ List.mem_cons_self))

end CallFlow
