import CallFlow.Proofs.Assembly
import CallFlow.Service
import Mathlib.Data.List.Induction

/-!
# Refreshing a dialplan and compiling its scripts one by one

A refresh loads all scripts before it compiles any, and a script can also be loaded and compiled by
itself. Both ways give an extension the same body (`Service.bodyOf`): a refresh lays these bodies
out, and fails when one is missing (`Service.refresh_of_resolve`, `Service.failure?_refresh`). Which
failure it reports depends on the order: a script that cannot be loaded counts before every script
that has no body. A catalog gives out its contexts without the scripts they carry, and of the
scripts with one id the last one that was put into it (`Catalog.keeps_ofFilings`).
-/

namespace CallFlow

/-! ## Extensions -/

/-- The context with each extension changed. -/
def Context.mapExtensions (g : Extension → Extension) (c : Context) : Context :=
  { c with extensions := c.extensions.map g }

namespace Dialplan

section
variable {cs : List Context} {g : Extension → Extension} {body : Extension → String}

theorem extensions_mapExtensions :
    extensions (cs.map (Context.mapExtensions g)) = (extensions cs).map g := by
  simp [extensions, Context.mapExtensions, List.flatMap_map, List.map_flatMap]

/-- Extensions that keep their names are laid out with the bodies that they have after the change.
-/
theorem layout_mapExtensions (h : ∀ e ∈ extensions cs, (g e).name = e.name) :
    layout body (cs.map (Context.mapExtensions g)) = layout (fun e => body (g e)) cs := by
  have hline : ∀ c ∈ cs, ((c.extensions.map g).map fun e => e.line ++ body e) =
      c.extensions.map fun e => e.line ++ body (g e) := by
    intro c hc
    rw [List.map_map]
    refine List.map_congr_left fun e he => ?_
    simp only [Function.comp_apply, Extension.line, h e (mem_extensions.2 ⟨c, hc, he⟩)]
  unfold layout
  rw [List.map_map]
  congr 1
  refine List.map_congr_left fun c hc => ?_
  change c.header ++ String.join ((c.extensions.map g).map _) = c.header ++ String.join _
  rw [hline c hc]

/-- Bodies that are given for extensions before they are changed can be given for the changed ones,
with the same layout. -/
theorem exists_layout_mapExtensions {ε : Type} {f : Extension → Except ε String}
    (hname : ∀ e ∈ extensions cs, (g e).name = e.name)
    (hf : ∀ e ∈ extensions cs, f (g e) = .ok (body e)) :
    ∃ found, (∀ e ∈ extensions (cs.map (Context.mapExtensions g)), f e = .ok (found e)) ∧
      layout found (cs.map (Context.mapExtensions g)) = layout body cs := by
  have hvalue : ∀ e ∈ extensions cs, (f (g e)).toOption.getD "" = body e := by
    intro e he
    simp [hf e he, Except.toOption]
  refine ⟨fun e => (f e).toOption.getD "", ?_, ?_⟩
  · rw [extensions_mapExtensions, List.forall_mem_map]
    intro e he
    exact (hf e he).trans (congrArg Except.ok (hvalue e he).symm)
  · rw [layout_mapExtensions hname, layout_congr hvalue]

end

end Dialplan

namespace Service

open Dialplan (extensions layout)

/-- The body that an extension has by itself: that of the script that it names, compiled by itself;
if it names none, that of the script that it carries; and otherwise nothing. -/
def bodyOf (v : Service) (e : Extension) : Except CompileError String :=
  match e.scriptId, e.script with
  | some i, _ => v.compileScript i
  | none, some s => (s.compile v.config.host).mapError .structural
  | none, none => .ok ""

/-- Why the script that an extension names is not loaded. -/
def loadFailure? (v : Service) (e : Extension) : Option CompileError :=
  e.scriptId.bind fun i => (failure? (v.store.loadScript i)).map (.scriptLoad i)

section
variable {v : Service} {e e' : Extension} {cs : List Context} {g : Extension → Extension}

/-- An extension is resolved unless the script that it names is not loaded. -/
theorem failure?_resolve (e : Extension) : failure? (v.resolve e) = v.loadFailure? e := by
  unfold resolve loadFailure?
  cases e.scriptId with
  | none => rfl
  | some i => exact (failure?_map _).trans (failure?_mapError _)

/-- An extension that is resolved keeps its name. -/
theorem name_of_resolve (h : v.resolve e = .ok e') : e'.name = e.name := by
  unfold resolve at h
  split at h
  · cases hs : v.loadScript _ with
    | error err => rw [hs] at h; cases h
    | ok s => rw [hs] at h; cases h; rfl
  · cases h; rfl

/-- A resolved extension has the body that the extension has by itself. -/
theorem bodyOf_of_resolve (h : v.resolve e = .ok e') :
    v.bodyOf e = (e'.body v.config.host).mapError .structural := by
  unfold resolve at h
  unfold bodyOf
  cases hi : e.scriptId with
  | some i =>
    simp only [hi] at h
    dsimp only
    unfold compileScript
    cases hs : v.loadScript i with
    | error err => rw [hs] at h; cases h
    | ok s => rw [hs] at h; cases h; rfl
  | none =>
    simp only [hi] at h
    cases h
    unfold Extension.body
    cases e.script <;> rfl

/-! ## Loading -/

/-- Contexts are loaded unless a script that one of their extensions names is not. -/
theorem failure?_loadContexts (h : v.store.loadContexts = .ok cs) :
    failure? v.loadContexts = (extensions cs).findSome? v.loadFailure? := by
  have hload : v.loadContexts = cs.mapM v.resolveContext := by
    unfold loadContexts
    rw [h]
    rfl
  simp only [hload, failure?_mapM, resolveContext, failure?_map, failure?_resolve, extensions,
    findSome?_flatMap]

/-- Contexts are loaded with all their extensions resolved. -/
theorem loadContexts_of_resolve (h : v.store.loadContexts = .ok cs)
    (hg : ∀ e ∈ extensions cs, v.resolve e = .ok (g e)) :
    v.loadContexts = .ok (cs.map (Context.mapExtensions g)) := by
  have hcontext : ∀ c ∈ cs, v.resolveContext c = .ok (c.mapExtensions g) := by
    intro c hc
    have he : ∀ e ∈ c.extensions, v.resolve e = .ok (g e) := fun e he =>
      hg e (Dialplan.mem_extensions.2 ⟨c, hc, he⟩)
    rw [resolveContext, mapM_of_ok he]
    rfl
  unfold loadContexts
  rw [h]
  exact mapM_of_ok hcontext

/-! ## Refreshing -/

/-- Once the extensions are resolved, a refresh compiles the dialplan. -/
theorem refresh_of_resolve (h : v.store.loadContexts = .ok cs)
    (hg : ∀ e ∈ extensions cs, v.resolve e = .ok (g e)) : v.refresh =
      (Dialplan.compile (cs.map (Context.mapExtensions g)) v.config.host).mapError .structural := by
  rw [refresh, loadContexts_of_resolve h hg]
  rfl

/-- Where no script fails to load, every extension is resolved. -/
theorem exists_resolve (h : (extensions cs).findSome? v.loadFailure? = none) :
    ∃ g : Extension → Extension, ∀ e ∈ extensions cs, v.resolve e = .ok (g e) := by
  rw [← findSome?_congr fun e _ => failure?_resolve e] at h
  exact ⟨_, eq_ok_of_findSome?_eq_none id h⟩

/-- Where no script fails to load, a refresh fails as the first extension that has no body. -/
theorem failure?_refresh (h : v.store.loadContexts = .ok cs)
    (hload : (extensions cs).findSome? v.loadFailure? = none) :
    failure? v.refresh = (extensions cs).findSome? fun e => failure? (v.bodyOf e) := by
  obtain ⟨g, hg⟩ := exists_resolve hload
  rw [refresh_of_resolve h hg, failure?_mapError, Dialplan.failure?_compile,
    Dialplan.extensions_mapExtensions, List.findSome?_map, List.map_findSome?]
  refine findSome?_congr fun e he => ?_
  rw [bodyOf_of_resolve (hg e he), failure?_mapError]
  rfl

/-- A script that is not loaded leaves its extension without a body. -/
theorem loadFailure?_of_bodyOf {text : String} (h : v.bodyOf e = .ok text) :
    v.loadFailure? e = none := by
  unfold loadFailure?
  cases hi : e.scriptId with
  | none => rfl
  | some i =>
    have hcompile : v.compileScript i = .ok text := by simpa [bodyOf, hi] using h
    unfold compileScript loadScript at hcompile
    cases hs : v.store.loadScript i with
    | error cause => rw [hs] at hcompile; cases hcompile
    | ok s => simp [hs]

/-- An extension whose script is loaded has no body only for a fault of that script. -/
theorem isStructural_of_bodyOf {err : CompileError} (hload : v.loadFailure? e = none)
    (h : v.bodyOf e = .error err) : err.isStructural = true := by
  obtain ⟨e', he'⟩ := failure?_eq_none.1 ((failure?_resolve e).trans hload)
  rw [bodyOf_of_resolve he'] at h
  cases hb : e'.body v.config.host with
  | ok text => rw [hb] at h; cases h
  | error f => rw [hb] at h; cases h; rfl

/-- Without contexts there is nothing to refresh. -/
theorem refresh_of_loadContexts_eq_error {cause : StoreError}
    (h : v.store.loadContexts = .error cause) : v.refresh = .error (.contextLoad cause) := by
  rw [refresh, loadContexts, h]
  rfl

/-- A script that is not loaded stops a refresh before anything is compiled. -/
theorem refresh_of_loadFailure {err : CompileError} (h : v.store.loadContexts = .ok cs)
    (hload : (extensions cs).findSome? v.loadFailure? = some err) : v.refresh = .error err := by
  have hcontexts : v.loadContexts = .error err :=
    failure?_eq_some.1 ((failure?_loadContexts h).trans hload)
  rw [refresh, hcontexts]
  rfl

/-- A refresh lays out the bodies that the extensions have by themselves. -/
theorem refresh_of_bodyOf {body : Extension → String} (h : v.store.loadContexts = .ok cs)
    (hbody : ∀ e ∈ extensions cs, v.bodyOf e = .ok (body e)) :
    v.refresh = .ok (layout body cs) := by
  have hload : (extensions cs).findSome? v.loadFailure? = none :=
    List.findSome?_eq_none_iff.2 fun e he => loadFailure?_of_bodyOf (hbody e he)
  obtain ⟨g, hg⟩ := exists_resolve hload
  have hresolved : ∀ e ∈ extensions cs, (g e).body v.config.host = .ok (body e) := by
    intro e he
    have heq := hbody e he
    rw [bodyOf_of_resolve (hg e he)] at heq
    cases hb : (g e).body v.config.host with
    | error f => rw [hb] at heq; cases heq
    | ok text => rw [hb] at heq; cases heq; rfl
  obtain ⟨found, hfound, hlayout⟩ := Dialplan.exists_layout_mapExtensions
    (f := fun e => e.body v.config.host) (fun e he => name_of_resolve (hg e he)) hresolved
  rw [refresh_of_resolve h hg, Dialplan.compile_of_body hfound, hlayout]
  rfl

/-- A refresh has a text exactly when the contexts are loaded and every extension has a body. -/
theorem refresh_eq_ok {text : String} : v.refresh = .ok text ↔
    ∃ cs body, v.store.loadContexts = .ok cs ∧ text = layout body cs ∧
      ∀ e ∈ extensions cs, v.bodyOf e = .ok (body e) := by
  constructor
  · intro htext
    cases h : v.store.loadContexts with
    | error cause => rw [refresh_of_loadContexts_eq_error h] at htext; cases htext
    | ok cs =>
      cases hload : (extensions cs).findSome? v.loadFailure? with
      | some err => rw [refresh_of_loadFailure h hload] at htext; cases htext
      | none =>
        have hnone := failure?_refresh h hload
        rw [htext, failure?_ok] at hnone
        have hbody := eq_ok_of_findSome?_eq_none (fun _ => "") hnone.symm
        rw [refresh_of_bodyOf h hbody] at htext
        cases htext
        exact ⟨cs, _, rfl, rfl, hbody⟩
  · rintro ⟨cs, body, h, rfl, hbody⟩
    exact refresh_of_bodyOf h hbody

/-- A refresh fails for want of the contexts, else as the first extension whose script is not
loaded, else as the first extension whose script has no body. -/
theorem refresh_eq_error {err : CompileError} : v.refresh = .error err ↔
    (∃ cause, v.store.loadContexts = .error cause ∧ err = .contextLoad cause) ∨
    ∃ cs, v.store.loadContexts = .ok cs ∧
      ((extensions cs).findSome? v.loadFailure? = some err ∨
        (extensions cs).findSome? v.loadFailure? = none ∧ err.isStructural = true ∧
          ((extensions cs).findSome? fun e => failure? (v.bodyOf e)) = some err) := by
  constructor
  · intro herr
    cases h : v.store.loadContexts with
    | error cause =>
      rw [refresh_of_loadContexts_eq_error h] at herr
      cases herr
      exact .inl ⟨cause, rfl, rfl⟩
    | ok cs =>
      refine .inr ⟨cs, rfl, ?_⟩
      cases hload : (extensions cs).findSome? v.loadFailure? with
      | some err' =>
        rw [refresh_of_loadFailure h hload] at herr
        cases herr
        exact .inl rfl
      | none =>
        have hbody := failure?_refresh h hload
        rw [herr, failure?_error] at hbody
        obtain ⟨e, he, hfail⟩ := List.exists_of_findSome?_eq_some hbody.symm
        have hloaded := List.findSome?_eq_none_iff.1 hload e he
        exact .inr ⟨rfl, isStructural_of_bodyOf hloaded (failure?_eq_some.1 hfail), hbody.symm⟩
  · rintro (⟨cause, h, rfl⟩ | ⟨cs, h, hload | ⟨hload, -, hbody⟩⟩)
    · exact refresh_of_loadContexts_eq_error h
    · exact refresh_of_loadFailure h hload
    · exact failure?_eq_some.1 ((failure?_refresh h hload).trans hbody)

/-- An extension has a body when the script that it names is compiled by itself, or when it names
none and the script that it carries, if any, is compiled. -/
theorem exists_bodyOf_eq_ok : (∃ text, v.bodyOf e = .ok text) ↔
    (∀ i, e.scriptId = some i → ∃ text, v.compileScript i = .ok text) ∧
      ∀ s, e.scriptId = none → e.script = some s → ∃ text, s.compile v.config.host = .ok text := by
  unfold bodyOf
  cases e.scriptId with
  | some i => simp
  | none =>
    cases e.script with
    | none => simp
    | some s => cases hs : s.compile v.config.host <;> simp [Except.mapError, hs]

end

end Service

/-! ## Catalogs -/

/-- What can be done to a catalog: to read it anew from an inventory, to insert a script and to push
a context. -/
inductive Filing where
  | load (inventory : Inventory)
  | insert (script : Script)
  | push (context : Context)
deriving DecidableEq, Repr

/-- The catalog after a filing. -/
def Catalog.file (c : Catalog) : Filing → Catalog
  | .load w => .ofInventory w
  | .insert s => c.insertScript s
  | .push x => c.pushContext x

/-- The catalog after filings, in order. -/
def Catalog.ofFilings (fs : List Filing) : Catalog :=
  fs.foldl file empty

/-- Everything that was filed, written down in order, since an inventory was last read. -/
def Inventory.file (w : Inventory) : Filing → Inventory
  | .load w' => w'
  | .insert s => { w with scripts := w.scripts ++ [s] }
  | .push x => { w with contexts := w.contexts ++ [x] }

/-- What filings come to, in order. -/
def Inventory.ofFilings (fs : List Filing) : Inventory :=
  fs.foldl file {}

/-- The last script of an id. -/
def Inventory.script? (w : Inventory) (i : ScriptId) : Option Script :=
  w.scripts.reverse.find? (·.id = i)

/-- A catalog keeps what an inventory lists: of the scripts with one id the last, and all
contexts. -/
structure Catalog.Keeps (c : Catalog) (w : Inventory) : Prop where
  script? : ∀ i, c.script? i = w.script? i
  contexts : c.contexts = w.contexts

open Dialplan (extensions layout)

section
variable {c : Catalog} {w : Inventory}

/-- Inserting scripts in order puts the last of an id in the place of the others. -/
theorem Catalog.script?_foldl_insertScript (ss : List Script) (c : Catalog) (i : ScriptId) :
    (ss.foldl insertScript c).script? i = (ss.reverse.find? (·.id = i)).or (c.script? i) := by
  induction ss generalizing c with
  | nil => rfl
  | cons s ss ih =>
    rw [List.foldl_cons, ih, script?_insertScript, List.reverse_cons, List.find?_append,
      List.find?_singleton, Option.or_assoc]
    congr 1
    by_cases h : s.id = i <;> simp [h]

/-- A catalog keeps what it is read from. -/
theorem Catalog.keeps_ofInventory (w : Inventory) : (ofInventory w).Keeps w where
  script? i := by
    have h := script?_foldl_insertScript w.scripts empty i
    rwa [show empty.script? i = none from rfl, Option.or_none] at h
  contexts := rfl

/-- A filing adds to a catalog what it adds to the list. -/
theorem Catalog.Keeps.file (h : c.Keeps w) (f : Filing) : (c.file f).Keeps (w.file f) := by
  cases f with
  | load w' => exact keeps_ofInventory w'
  | insert s =>
    refine ⟨fun i => ?_, h.contexts⟩
    have hlast : (w.scripts ++ [s]).reverse.find? (·.id = i) =
        if s.id = i then some s else w.script? i := by
      rw [List.reverse_append, List.reverse_singleton, List.singleton_append, List.find?_cons]
      by_cases hid : s.id = i <;> simp [hid, Inventory.script?]
    rw [Catalog.file, script?_insertScript, h.script?]
    exact hlast.symm
  | push x => exact ⟨h.script?, congrArg (· ++ [x]) h.contexts⟩

/-- After any filings a catalog keeps what they come to. -/
theorem Catalog.keeps_ofFilings (fs : List Filing) : (ofFilings fs).Keeps (.ofFilings fs) := by
  induction fs using List.reverseRecOn with
  | nil => exact ⟨fun _ => rfl, rfl⟩
  | append_singleton fs f ih =>
    rw [ofFilings, Inventory.ofFilings, List.foldl_append, List.foldl_append]
    exact ih.file f

/-- A catalog that keeps an inventory gives out its contexts without the scripts they carry. -/
theorem Catalog.Keeps.loadContexts (h : c.Keeps w) :
    c.store.loadContexts = .ok (w.contexts.map Context.detach) := by
  rw [Catalog.store, h.contexts]

/-- A catalog that keeps an inventory gives out the last script of an id. -/
theorem Catalog.Keeps.loadScript (h : c.Keeps w) (i : ScriptId) :
    c.store.loadScript i = (w.script? i).elim (.error (.scriptNotFound i)) .ok := by
  rw [← h.script?]
  unfold Catalog.store
  dsimp only
  cases c.script? i <;> rfl

/-- With a catalog, an extension that names a script has the body of the last script of that id, and
any other extension has none, whatever script it carried. -/
theorem Catalog.Keeps.bodyOf_detach (h : c.Keeps w) {config : Configuration} {e : Extension}
    {text : String} : Service.bodyOf ⟨c.store, config⟩ e.detach = .ok text ↔
      match e.scriptId with
      | some i => ∃ s, w.script? i = some s ∧ s.compile config.host = .ok text
      | none => text = "" := by
  unfold Service.bodyOf Extension.detach
  cases e.scriptId with
  | none => simp [eq_comm]
  | some i =>
    dsimp only
    rw [Service.compileScript, Service.loadScript]
    dsimp only
    rw [h.loadScript]
    cases w.script? i with
    | none => simp [bind, Except.bind, Except.mapError]
    | some s => cases hs : s.compile config.host <;> simp [bind, Except.bind, Except.mapError, hs]

/-- With a catalog a refresh has a text exactly when the last script of every id that an extension
names compiles. -/
theorem Catalog.Keeps.refresh_eq_ok (h : c.Keeps w) {config : Configuration} {text : String} :
    Service.refresh ⟨c.store, config⟩ = .ok text ↔
      ∃ body, text = layout body w.contexts ∧ ∀ e ∈ extensions w.contexts,
        match e.scriptId with
        | some i => ∃ s, w.script? i = some s ∧ s.compile config.host = .ok (body e)
        | none => body e = "" := by
  -- The store gives out contexts with their scripts taken off, which keep their names and layout.
  have hname : ∀ e ∈ extensions w.contexts, e.detach.name = e.name := fun _ _ => rfl
  have hmap : w.contexts.map Context.detach =
      w.contexts.map (Context.mapExtensions Extension.detach) := rfl
  rw [Service.refresh_eq_ok]
  constructor
  · rintro ⟨cs, body, hcs, rfl, hbody⟩
    cases h.loadContexts.symm.trans hcs
    rw [hmap, Dialplan.extensions_mapExtensions, List.forall_mem_map] at hbody
    refine ⟨_, Dialplan.layout_mapExtensions hname, fun e he => ?_⟩
    exact h.bodyOf_detach.1 (hbody e he)
  · rintro ⟨body, rfl, hbody⟩
    have hdetach : ∀ e ∈ extensions w.contexts,
        Service.bodyOf ⟨c.store, config⟩ e.detach = .ok (body e) := fun e he =>
      h.bodyOf_detach.2 (hbody e he)
    obtain ⟨found, hfound, hlayout⟩ := Dialplan.exists_layout_mapExtensions hname hdetach
    exact ⟨_, found, h.loadContexts, hlayout.symm, hfound⟩

end

/-- **A refresh agrees with compiling scripts one by one.** It has a text exactly when the contexts
are loaded and every script that an extension names, or carries without naming one, compiles by
itself, and then it lays out the very texts of these. It fails for want of the contexts; else as the
first extension whose script is not loaded, whatever is wrong with scripts before it; else with the
fault of the first extension whose script does not compile. With a catalog, however it was filled,
contexts are always loaded, scripts that were pushed with a context are left out, and the last
script of an id is the one that counts. -/
theorem Service.refresh_agrees_with_scripts (v : Service) (fs : List Filing) :
    ((∃ text, v.refresh = .ok text) ↔
      ∃ cs, v.store.loadContexts = .ok cs ∧ ∀ e ∈ extensions cs,
        (∀ i, e.scriptId = some i → ∃ text, v.compileScript i = .ok text) ∧
        ∀ s, e.scriptId = none → e.script = some s →
          ∃ text, s.compile v.config.host = .ok text) ∧
    (∀ cs text, v.store.loadContexts = .ok cs → v.refresh = .ok text →
      ∃ body, text = layout body cs ∧ ∀ e ∈ extensions cs, v.bodyOf e = .ok (body e)) ∧
    (∀ err, v.refresh = .error err ↔
      (∃ cause, v.store.loadContexts = .error cause ∧ err = .contextLoad cause) ∨
      ∃ cs, v.store.loadContexts = .ok cs ∧
        ((extensions cs).findSome? v.loadFailure? = some err ∨
          (extensions cs).findSome? v.loadFailure? = none ∧ err.isStructural = true ∧
            ((extensions cs).findSome? fun e => failure? (v.bodyOf e)) = some err)) ∧
    let w := Inventory.ofFilings fs
    let store := (Catalog.ofFilings fs).store
    store.loadContexts = .ok (w.contexts.map Context.detach) ∧
    (∀ i, store.loadScript i = (w.script? i).elim (.error (.scriptNotFound i)) .ok) ∧
    ∀ text, refresh ⟨store, v.config⟩ = .ok text ↔
      ∃ body, text = layout body w.contexts ∧ ∀ e ∈ extensions w.contexts,
        match e.scriptId with
        | some i => ∃ s, w.script? i = some s ∧ s.compile v.config.host = .ok (body e)
        | none => body e = "" := by
  have hkeeps := Catalog.keeps_ofFilings fs
  refine ⟨⟨?_, ?_⟩, ?_, fun err => refresh_eq_error, hkeeps.loadContexts, hkeeps.loadScript,
    fun text => hkeeps.refresh_eq_ok⟩
  · rintro ⟨text, htext⟩
    obtain ⟨cs, body, h, -, hbody⟩ := refresh_eq_ok.1 htext
    exact ⟨cs, h, fun e he => exists_bodyOf_eq_ok.1 ⟨_, hbody e he⟩⟩
  · rintro ⟨cs, h, hcompile⟩
    choose! body hbody using fun e he => exists_bodyOf_eq_ok.2 (hcompile e he)
    exact ⟨_, refresh_of_bodyOf h hbody⟩
  · intro cs text h htext
    obtain ⟨cs', body, h', rfl, hbody⟩ := refresh_eq_ok.1 htext
    cases h.symm.trans h'
    exact ⟨body, rfl, hbody⟩

-- The script of the first extension has no start, and still it is the second one that is reported.
example :
    let es : List Extension := [⟨"100", some 1, none⟩, ⟨"200", some 2, none⟩]
    let c := (Catalog.empty.insertScript { id := 1 }).pushContext ⟨"in", es⟩
    Service.refresh ⟨c.store, {}⟩ = .error (.scriptLoad 2 (.scriptNotFound 2)) := rfl

end CallFlow
