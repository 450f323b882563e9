import CallFlow.Proofs.Refresh

/-!
# Dialplans part by part

A dialplan is one text that grows context by context and extension by extension, and still each part
of it is what it would be by itself. Contexts that are compiled apart can be put behind each other
(`Dialplan.compile_append`), and so can the extensions of one context
(`Extension.compileAll_append`): nothing that is compiled earlier is seen later. An extension has
the body of its own script and of no other (`Extension.body_eq_ok`), and the first one whose script
has none is the failure of the whole (`Dialplan.compile_eq_error`). The id by which an extension
names a script is not looked at (`Dialplan.compile_withoutIds`).
-/

namespace CallFlow

/-- Two results as one: their texts one behind the other, or else the first failure. -/
def joined {ε : Type} : Except ε String → Except ε String → Except ε String
  | .ok a, .ok b => .ok (a ++ b)
  | .ok _, .error e => .error e
  | .error e, _ => .error e

/-- The text of extensions, one behind the other. -/
def Extension.compileAll (es : List Extension) (host : String) : Except Fault String :=
  (es.mapM (Extension.compile · host)).map String.join

/-- The extension without the id by which it names a script. -/
def Extension.withoutId (e : Extension) : Extension :=
  { e with scriptId := none }

/-- The context without the ids by which its extensions name scripts. -/
def Context.withoutIds (c : Context) : Context :=
  c.mapExtensions Extension.withoutId

section
variable {cs : List Context} {e : Extension} {s : Script} {host text : String} {f : Fault}

/-! ## Texts behind each other -/

/-- Results of two lists are joined as the results of one list. -/
theorem joined_mapM {α ε : Type} (g : α → Except ε String) (xs ys : List α) :
    ((xs ++ ys).mapM g).map String.join =
      joined ((xs.mapM g).map String.join) ((ys.mapM g).map String.join) := by
  rw [List.mapM_append]
  cases xs.mapM g with
  | error err => rfl
  | ok as =>
    cases ys.mapM g with
    | error err => rfl
    | ok bs => exact congrArg Except.ok String.join_append

/-- Contexts can be compiled apart. -/
theorem Dialplan.compile_append (xs ys : List Context) (host : String) :
    compile (xs ++ ys) host = joined (compile xs host) (compile ys host) :=
  joined_mapM (Context.compile · host) xs ys

/-- Extensions can be compiled apart. -/
theorem Extension.compileAll_append (es fs : List Extension) (host : String) :
    compileAll (es ++ fs) host = joined (compileAll es host) (compileAll fs host) :=
  joined_mapM (Extension.compile · host) es fs

/-- Behind its header a context is the text of its extensions. -/
theorem Context.compile_eq (c : Context) (host : String) :
    c.compile host = (Extension.compileAll c.extensions host).map (c.header ++ ·) := by
  rw [compile, Extension.compileAll]
  cases c.extensions.mapM (Extension.compile · host) <;> rfl

/-! ## Bodies of their own -/

/-- The body of an extension is that of its script, and nothing without a script. -/
theorem Extension.body_eq_ok : e.body host = .ok text ↔
    (∀ s, e.script = some s → s.compile host = .ok text) ∧ (e.script = none → text = "") := by
  unfold body
  cases e.script with
  | none => simp [eq_comm]
  | some s => simp

/-- An extension has no body if its script has none. -/
theorem Extension.body_eq_error :
    e.body host = .error f ↔ ∃ s, e.script = some s ∧ s.compile host = .error f := by
  unfold body
  cases e.script with
  | none => simp
  | some s => simp

/-- An extension has a body if its script has one. -/
theorem Extension.failure?_body_eq_none : failure? (e.body host) = none ↔
    ∀ s, e.script = some s → ∃ body, s.compile host = .ok body := by
  rw [failure?_eq_none]
  unfold body
  cases e.script with
  | none => simp
  | some s => simp

/-- The scripts that contexts carry are those of their extensions. -/
theorem Dialplan.mem_scripts :
    s ∈ cs.flatMap Context.scripts ↔ ∃ e ∈ extensions cs, e.script = some s := by
  simp only [List.mem_flatMap, Context.scripts, List.mem_filterMap, mem_extensions]
  constructor
  · rintro ⟨c, hc, e, he, hs⟩
    exact ⟨e, ⟨c, hc, he⟩, hs⟩
  · rintro ⟨e, ⟨c, hc, he⟩, hs⟩
    exact ⟨c, hc, e, he, hs⟩

namespace Dialplan

/-- A dialplan has a text exactly when every script that it carries has a body. -/
theorem exists_compile_eq_ok : (∃ text, compile cs host = .ok text) ↔
    ∀ s ∈ cs.flatMap Context.scripts, ∃ body, s.compile host = .ok body := by
  rw [← failure?_eq_none, failure?_compile, List.findSome?_eq_none_iff]
  simp only [Extension.failure?_body_eq_none, mem_scripts]
  constructor
  · rintro h s ⟨e, he, hs⟩
    exact h e he s hs
  · intro h e he s hs
    exact h s ⟨e, he, hs⟩

/-- The text of a dialplan is that of its headers and lines with the body of each extension behind
its own line. -/
theorem compile_eq_ok : compile cs host = .ok text ↔
    ∃ body, text = layout body cs ∧ ∀ e ∈ extensions cs, e.body host = .ok (body e) := by
  constructor
  · intro h
    have hnone := failure?_compile cs host
    rw [h, failure?_ok] at hnone
    have hbody := eq_ok_of_findSome?_eq_none (fun _ => "") hnone.symm
    rw [compile_of_body hbody] at h
    cases h
    exact ⟨_, rfl, hbody⟩
  · rintro ⟨body, rfl, hbody⟩
    exact compile_of_body hbody

/-- A dialplan fails as the first of its extensions whose script has no body. -/
theorem compile_eq_error : compile cs host = .error f ↔
    ∃ before e after, extensions cs = before ++ e :: after ∧ e.body host = .error f ∧
      ∀ e' ∈ before, failure? (e'.body host) = none := by
  rw [← failure?_eq_some, failure?_compile, List.findSome?_eq_some_iff]
  simp only [failure?_eq_some]

/-- The ids by which extensions name scripts say nothing once the scripts are there. -/
theorem compile_withoutIds (cs : List Context) (host : String) :
    compile (cs.map Context.withoutIds) host = compile cs host := by
  have hcontext : (Context.compile · host) ∘ Context.withoutIds = (Context.compile · host) := by
    funext c
    change (c.mapExtensions Extension.withoutId).compile host = c.compile host
    rw [Context.compile, Context.compile, Context.mapExtensions, List.mapM_map]
    rfl
  rw [compile, compile, List.mapM_map, hcontext]

end Dialplan

open Dialplan (extensions layout)

/-- **A dialplan is put together part by part, and all of it or nothing.** Two lists of contexts
compile to their texts one behind the other, or fail as the first of them that fails, and the same
is true of the extensions behind the header of a context. There is a text exactly when every script
that is carried compiles, and then each extension has the body of its own script, whatever the
others carry. Otherwise the failure is that of the first extension whose script does not compile.
The ids by which extensions name scripts have no influence. -/
theorem Dialplan.compile_part_by_part (xs ys : List Context) (name : String)
    (es fs : List Extension) (host : String) :
    compile (xs ++ ys) host = joined (compile xs host) (compile ys host) ∧
    (Context.mk name es).compile host =
      (Extension.compileAll es host).map ("[" ++ name ++ "]\n" ++ ·) ∧
    Extension.compileAll (es ++ fs) host =
      joined (Extension.compileAll es host) (Extension.compileAll fs host) ∧
    ((∃ text, compile xs host = .ok text) ↔
      ∀ s ∈ xs.flatMap Context.scripts, ∃ body, s.compile host = .ok body) ∧
    (∀ text, compile xs host = .ok text ↔
      ∃ body, text = layout body xs ∧ ∀ e ∈ extensions xs,
        (∀ s, e.script = some s → s.compile host = .ok (body e)) ∧
        (e.script = none → body e = "")) ∧
    (∀ f, compile xs host = .error f ↔
      ∃ before e after s, extensions xs = before ++ e :: after ∧ e.script = some s ∧
        s.compile host = .error f ∧
        ∀ e' ∈ before, ∀ s', e'.script = some s' → ∃ body, s'.compile host = .ok body) ∧
    ∀ zs, zs.map Context.withoutIds = xs.map Context.withoutIds →
      compile zs host = compile xs host := by
  refine ⟨compile_append xs ys host, Context.compile_eq ⟨name, es⟩ host,
    Extension.compileAll_append es fs host, exists_compile_eq_ok, fun text => ?_, fun f => ?_,
    fun zs h => ?_⟩
  · simp only [compile_eq_ok, Extension.body_eq_ok]
  · simp only [compile_eq_error, Extension.body_eq_error, Extension.failure?_body_eq_none]
    constructor
    · rintro ⟨before, e, after, hsplit, ⟨s, hs, hfault⟩, hbefore⟩
      exact ⟨before, e, after, s, hsplit, hs, hfault, hbefore⟩
    · rintro ⟨before, e, after, s, hsplit, hs, hfault, hbefore⟩
      exact ⟨before, e, after, hsplit, ⟨s, hs, hfault⟩, hbefore⟩
  · rw [← compile_withoutIds zs, h, compile_withoutIds]

end

end CallFlow
