import CallFlow.Dialplan

/-!
# Dialplans, extension by extension

A dialplan is put together from lists of lists, and one failure leaves it without a text. What comes
of a list of results is said here once: its failure is the first one in the list (`failure?_mapM`),
and without a failure it is the list of the values (`mapM_of_ok`). So a dialplan fails as the first
of its extensions that fails (`Dialplan.failure?_compile`), and otherwise its text is that of its
headers, lines and bodies in their order (`Dialplan.compile_of_body`).
-/

namespace CallFlow

section
variable {α β γ ε ε' : Type} {f : α → Except ε β} {x : Except ε α} {e : ε}

/-! ## Results -/

/-- The error of a result that is one. -/
def failure? : Except ε α → Option ε
  | .ok _ => none
  | .error e => some e

@[simp] theorem failure?_ok (a : α) : failure? (.ok a : Except ε α) = none := rfl

@[simp] theorem failure?_error (e : ε) : failure? (.error e : Except ε α) = some e := rfl

theorem failure?_eq_some : failure? x = some e ↔ x = .error e := by
  cases x <;> simp

theorem failure?_eq_none : failure? x = none ↔ ∃ a, x = .ok a := by
  cases x <;> simp

@[simp] theorem failure?_map (g : α → β) : failure? (x.map g) = failure? x := by
  cases x <;> rfl

@[simp] theorem failure?_mapError (g : ε → ε') :
    failure? (x.mapError g) = (failure? x).map g := by
  cases x <;> rfl

/-- A list of results fails as the first of them that fails. -/
theorem failure?_mapM (xs : List α) :
    failure? (xs.mapM f) = xs.findSome? fun x => failure? (f x) := by
  induction xs with
  | nil => rfl
  | cons x xs ih =>
    rw [List.mapM_cons, List.findSome?_cons, ← ih]
    cases f x with
    | error e => rfl
    | ok b => cases xs.mapM f <;> rfl

/-- Without a failure a list of results is the list of their values. -/
theorem mapM_of_ok {xs : List α} {g : α → β} (h : ∀ x ∈ xs, f x = .ok (g x)) :
    xs.mapM f = .ok (xs.map g) := by
  induction xs with
  | nil => rfl
  | cons x xs ih =>
    rw [List.forall_mem_cons] at h
    rw [List.mapM_cons, h.1, ih h.2]
    rfl

/-- Where no result of a list fails, each of them is its value. -/
theorem eq_ok_of_findSome?_eq_none {xs : List α} (d : α → β)
    (h : (xs.findSome? fun x => failure? (f x)) = none) :
    ∀ x ∈ xs, f x = .ok ((f x).toOption.getD (d x)) := by
  intro x hx
  obtain ⟨b, hb⟩ := failure?_eq_none.1 (List.findSome?_eq_none_iff.1 h x hx)
  simp [hb, Except.toOption]

/-- What is first found in a list depends on what is looked for at its members only. -/
theorem findSome?_congr {p q : α → Option γ} {xs : List α} (h : ∀ x ∈ xs, p x = q x) :
    xs.findSome? p = xs.findSome? q := by
  induction xs with
  | nil => rfl
  | cons x xs ih =>
    rw [List.forall_mem_cons] at h
    rw [List.findSome?_cons, List.findSome?_cons, h.1, ih h.2]

/-- What is first found in lists is first found in the list of all their members. -/
theorem findSome?_flatMap (g : α → List β) (p : β → Option γ) (xs : List α) :
    (xs.flatMap g).findSome? p = xs.findSome? fun x => (g x).findSome? p := by
  induction xs with
  | nil => rfl
  | cons x xs ih =>
    rw [List.flatMap_cons, List.findSome?_append, ih, List.findSome?_cons]
    cases (g x).findSome? p <;> rfl

end

namespace Dialplan

/-- The extensions of all contexts, in order. -/
def extensions (cs : List Context) : List Extension :=
  cs.flatMap Context.extensions

/-- The text of contexts whose extensions have the bodies that are given. -/
def layout (body : Extension → String) (cs : List Context) : String :=
  String.join (cs.map fun c =>
    c.header ++ String.join (c.extensions.map fun e => e.line ++ body e))

section
variable {cs : List Context} {host : String} {body body' : Extension → String}

theorem mem_extensions {e : Extension} :
    e ∈ extensions cs ↔ ∃ c ∈ cs, e ∈ c.extensions :=
  List.mem_flatMap

/-- A layout depends on the bodies of its extensions only. -/
theorem layout_congr (h : ∀ e ∈ extensions cs, body e = body' e) :
    layout body cs = layout body' cs := by
  unfold layout
  congr 1
  refine List.map_congr_left fun c hc => ?_
  congr 2
  refine List.map_congr_left fun e he => ?_
  rw [h e (mem_extensions.2 ⟨c, hc, he⟩)]

/-- A dialplan fails as the first of its extensions that has no body. -/
theorem failure?_compile (cs : List Context) (host : String) :
    failure? (compile cs host) = (extensions cs).findSome? fun e => failure? (e.body host) := by
  simp only [compile, Context.compile, Extension.compile, extensions, failure?_map, failure?_mapM,
    findSome?_flatMap]

/-- A dialplan whose extensions have bodies has the text that these are laid out to. -/
theorem compile_of_body (h : ∀ e ∈ extensions cs, e.body host = .ok (body e)) :
    compile cs host = .ok (layout body cs) := by
  have hcontext : ∀ c ∈ cs, c.compile host =
      .ok (c.header ++ String.join (c.extensions.map fun e => e.line ++ body e)) := by
    intro c hc
    have hextension : ∀ e ∈ c.extensions, e.compile host = .ok (e.line ++ body e) := by
      intro e he
      rw [Extension.compile, h e (mem_extensions.2 ⟨c, hc, he⟩)]
      rfl
    rw [Context.compile, mapM_of_ok hextension]
    rfl
  rw [compile, mapM_of_ok hcontext]
  rfl

end

end Dialplan

end CallFlow
