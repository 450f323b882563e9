import CallFlow.Proofs.Coverage

/-!
# Which scripts have a body

A script has a body exactly when nothing is wrong with any id that a call can come to. A walk
renders nothing that is faulty, and it leaves out nothing that is reached, so it misses no fault
(`Script.not_faulty_of_walk`); the fault that stops it lies where it was led, so it reports no other
(`Script.exists_faulty_of_walk`).
-/

namespace CallFlow

open Relation

section
variable {s : Script} {entry b : Block} {fresh : List LocalId} {tasks : List Task} {t : Trace}
  {i : LocalId} {f : Fault} {host : String}

/-- Without a fault nothing is wrong with a rendered block. -/
theorem Walked.expand_of_rendered (h : Walked s fresh tasks t) (hf : t.fault = none)
    (hb : b ∈ t.rendered) : ∃ ts, (s.expand b).2 = .ok ts := by
  induction h with
  | nil => cases hb
  | enter _ ih | rejoin _ _ ih => exact ih hf hb
  | stop => cases hf
  | go _ he _ ih =>
    rw [Script.rendered_prepend he] at hb
    rcases List.mem_cons.1 hb with rfl | hb
    · exact ⟨_, congrArg Prod.snd he⟩
    · exact ih hf hb

/-- Without a fault nothing is wrong with an id that the entry reaches. -/
theorem Script.not_faulty_of_walk (hf : (s.walk entry).fault = none)
    (hr : ReflTransGen (s.Leads entry) entry.id i) : ¬ s.Faulty entry i f := by
  have hw := s.walked_walk entry
  obtain ⟨b, hb, rfl⟩ := Trace.mem_done.1 ((mem_done_walk hf).2 hr)
  obtain ⟨ts, hts⟩ := hw.expand_of_rendered hf hb
  have hfrom : s.blockFrom entry b.id = some b := (hw.rendered_sound sourced_entry b hb).1
  rw [faulty_iff hfrom, hts]
  exact nofun

/-- The fault that stops a walk is one of an id that the entry reaches. -/
theorem Script.exists_faulty_of_walk (hf : (s.walk entry).fault = some f) :
    ∃ i, ReflTransGen (s.Passes entry) entry.id i ∧ s.Faulty entry i f := by
  obtain ⟨i, ⟨b, hb, -, hr⟩, hi⟩ := (s.walked_walk entry).exists_faulty sourced_entry hf
  obtain rfl := List.mem_singleton.1 hb
  exact ⟨i, ReflTransGen.mono (fun _ _ h => h.1) _ _ hr, hi⟩

/-- Something is wrong with an id only for want of a block or of a default. -/
theorem Script.Faulty.ne_noStart (h : s.Faulty entry i f) : f ≠ .noStart := by
  cases h <;> exact nofun

/-- **A script fails to compile exactly on the faults that it reaches.** From an entry block it
compiles if and only if nothing is wrong with any id that the entry reaches, and otherwise it fails
with the fault of such an id. As a whole it is compiled from its first start block, and fails for
want of one if and only if it has none. -/
theorem Script.compile_fails_on_reached_faults (s : Script) (host : String) :
    (∀ entry,
      ((∃ text, s.compileFrom host entry = .ok text) ↔
        ∀ i f, ReflTransGen (s.Passes entry) entry.id i → ¬ s.Faulty entry i f) ∧
      ∀ f, s.compileFrom host entry = .error f →
        ∃ i, ReflTransGen (s.Passes entry) entry.id i ∧ s.Faulty entry i f) ∧
    (s.compile host = .error .noStart ↔ ∀ b ∈ s.blocks, b.isStart = false) ∧
    ∀ b, s.start? = some b → s.compile host = s.compileFrom host b := by
  refine ⟨fun entry => ⟨⟨?_, ?_⟩, ?_⟩, ⟨?_, ?_⟩, fun b hb => compile_of_start? hb⟩
  · rintro ⟨text, h⟩ i f hr
    refine not_faulty_of_walk (compileFrom_eq_ok.1 h).1 ?_
    exact ReflTransGen.mono (fun _ _ h => h.1) _ _ hr
  · intro h
    cases hf : (s.walk entry).fault with
    | none => exact exists_compileFrom_eq_ok hf
    | some f =>
      obtain ⟨i, hr, hi⟩ := exists_faulty_of_walk hf
      exact absurd hi (h i f hr)
  · intro f h
    exact exists_faulty_of_walk (compileFrom_eq_error.1 h)
  · intro h
    cases hs : s.start? with
    | none => simpa [start?] using hs
    | some b =>
      rw [compile_of_start? hs] at h
      obtain ⟨i, -, hi⟩ := exists_faulty_of_walk (compileFrom_eq_error.1 h)
      exact absurd rfl hi.ne_noStart
  · intro h
    exact compile_of_start?_eq_none (by simpa [start?] using h)

end

end CallFlow
