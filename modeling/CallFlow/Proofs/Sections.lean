import CallFlow.Proofs.Host
import CallFlow.Proofs.Layout
import CallFlow.Proofs.Rows

/-!
# Sections of a dialplan

The text of a dialplan can be read back without knowing what wrote it. It is cut into rows, and the
first character of a row says what it is: a bracket opens a section, an `e` opens an entry of it,
and a tab continues the body of the entry. `Outline.add?` takes one row in, from the last one to the
first, and `sections?` reads a whole text.

The rows of a dialplan are its headers, its extension lines and the rows of its bodies
(`Dialplan.layout_eq_unrows`), and adding them gives the contexts back (`sections?_layout`).
Nothing has to be known of the names and the labels but that they hold no newline: a row is told by
what stands in front of them, and they are cut out by what stands around them.
-/

namespace CallFlow

/-- Rows as a text, each with a newline behind it. -/
def unrows (rs : List String) : String :=
  String.join (rs.map (· ++ "\n"))

/-- The rows of a text, without their newlines. What stands behind the last newline is a row if it
is not empty. -/
def rows (text : String) : List String :=
  let pieces := (text.split '\n').toList.map String.Slice.copy
  if pieces.getLast? = some "" then pieces.dropLast else pieces

/-- What stands between two given texts in a row. -/
def between? (before after row : String) : Option String :=
  let inner := (row.toList.drop before.length).take (row.length - before.length - after.length)
  if row = before ++ String.ofList inner ++ after then some (String.ofList inner) else none

/-- One entry of a section, with the text behind its line. -/
structure Entry where
  name : String
  body : String
deriving DecidableEq, Repr

/-- One section of a text. -/
structure Section where
  name : String
  entries : List Entry
deriving DecidableEq, Repr

/-- What is read of a text, from its end: the body that has no entry yet, the entries that have no
section yet, and the sections. -/
structure Outline where
  body : String := ""
  entries : List Entry := []
  sections : List Section := []
deriving DecidableEq, Repr

/-- The row in front of what is read. A body has to stand behind an entry. -/
def Outline.add? (row : String) (o : Outline) : Option Outline :=
  match row.toList.head? with
  | some '[' =>
    if o.body.isEmpty then
      (between? "[" "]" row).map fun name => { sections := ⟨name, o.entries⟩ :: o.sections }
    else none
  | some 'e' =>
    (between? "exten = " ",1,NoOp()" row).map fun name =>
      { o with body := "", entries := ⟨name, o.body⟩ :: o.entries }
  | some '\t' => some { o with body := row ++ "\n" ++ o.body }
  | _ => none

/-- The sections of a text. An entry has to stand behind the header of a section. -/
def sections? (text : String) : Option (List Section) := do
  let o ← (rows text).foldrM Outline.add? {}
  if o.body.isEmpty ∧ o.entries = [] then some o.sections else none

/-- The forms that a row of a dialplan has: the header of a context, the line of an extension, and
the row of a body with a label or without one. -/
inductive RowForm : String → Prop
  | header (name : String) : RowForm ("[" ++ name ++ "]")
  | extension (name : String) : RowForm ("exten = " ++ name ++ ",1,NoOp()")
  | plain (application arguments : String) :
    RowForm ("\tsame = n," ++ application ++ "(" ++ arguments ++ ")")
  | labelled (label application arguments : String) :
    RowForm ("\tsame = n(" ++ label ++ ")," ++ application ++ "(" ++ arguments ++ ")")

/-- The rows behind the line of an extension, when its script has no fault. -/
def Extension.bodyRows (host : String) (e : Extension) : List String :=
  match e.script with
  | some s => (s.walkStart.items.flatMap Item.lines).map (Line.row (some host))
  | none => []

/-- Neither the name of the extension nor a text of its blocks holds a newline. -/
def Extension.OneLine (e : Extension) : Prop :=
  NoNewline e.name ∧ ∀ s, e.script = some s → ∀ b ∈ s.blocks, b.OneLine

/-- Neither the name of the context nor an extension of it holds a newline. -/
def Context.OneLine (c : Context) : Prop :=
  NoNewline c.name ∧ ∀ e ∈ c.extensions, e.OneLine

/-- The rows of contexts whose extensions have bodies of the rows that are given. -/
def Dialplan.layoutRows (body : Extension → List String) (cs : List Context) : List String :=
  cs.flatMap fun c => ("[" ++ c.name ++ "]") :: c.extensions.flatMap fun e =>
    ("exten = " ++ e.name ++ ",1,NoOp()") :: body e

section
variable {rs : List String} {s : Script} {e : Extension} {cs : List Context} {o : Outline}
  {host text : String}

/-! ## Rows -/

theorem unrows_cons (r : String) (rs : List String) : unrows (r :: rs) = r ++ "\n" ++ unrows rs :=
  String.join_cons

theorem unrows_append (rs rs' : List String) : unrows (rs ++ rs') = unrows rs ++ unrows rs' := by
  rw [unrows, List.map_append, String.join_append]
  rfl

/-- A text of rows is cut at its newlines into these rows and an empty rest. -/
theorem splitOn_unrows (h : ∀ r ∈ rs, NoNewline r) :
    (unrows rs).toList.splitOn '\n' = rs.map String.toList ++ [[]] := by
  induction rs with
  | nil => exact List.splitOn_nil _
  | cons r rs ih =>
    rw [List.forall_mem_cons] at h
    have hrow : (unrows (r :: rs)).toList = r.toList ++ '\n' :: (unrows rs).toList := by
      simp [unrows_cons]
    rw [hrow, List.splitOn, List.splitOnP_append_cons _ _ (by rfl), ← List.splitOn, ← List.splitOn,
      List.splitOn_eq_singleton h.1, ih h.2]
    rfl

/-- Rows without newlines are read back from their text. -/
theorem rows_unrows (h : ∀ r ∈ rs, NoNewline r) : rows (unrows rs) = rs := by
  have hpieces : ((unrows rs).split '\n').toList.map String.Slice.copy = rs ++ [""] := by
    rw [String.toList_split_char, splitOn_unrows h, List.map_append, List.map_map]
    simp [Function.comp_def]
  simp [rows, hpieces]

/-- What was put between two texts is found between them. -/
theorem between?_append (before name after : String) :
    between? before after (before ++ name ++ after) = some name := by
  have hinner : ((before ++ name ++ after).toList.drop before.length).take
      ((before ++ name ++ after).length - before.length - after.length) = name.toList := by
    simp [← String.length_toList]
  rw [between?, hinner, String.ofList_toList, if_pos rfl]

/-! ## What is written -/

/-- Lines are written as their rows. -/
theorem Line.textAll_eq_unrows (host : Option String) (ls : List Line) :
    textAll host ls = unrows (ls.map (row host)) := by
  rw [textAll, unrows, List.map_map]
  rfl

/-- A body is written as its rows. -/
theorem Extension.bodyText_eq_unrows (host : String) (e : Extension) :
    e.bodyText host = unrows (e.bodyRows host) := by
  unfold bodyText bodyRows
  cases e.script with
  | none => rfl
  | some s => exact Line.textAll_eq_unrows _ _

/-- A dialplan is written as its rows. -/
theorem Dialplan.layout_eq_unrows (body : Extension → List String) (cs : List Context) :
    layout (fun e => unrows (body e)) cs = unrows (layoutRows body cs) := by
  have hextensions : ∀ es : List Extension,
      String.join (es.map fun e => e.line ++ unrows (body e)) =
        unrows (es.flatMap fun e => ("exten = " ++ e.name ++ ",1,NoOp()") :: body e) := by
    intro es
    induction es with
    | nil => rfl
    | cons e es ih =>
      rw [List.map_cons, String.join_cons, ih, List.flatMap_cons, unrows_append, unrows_cons]
      simp [Extension.line, String.append_assoc]
  unfold layout layoutRows
  induction cs with
  | nil => rfl
  | cons c cs ih =>
    rw [List.map_cons, String.join_cons, ih, hextensions, List.flatMap_cons, unrows_append,
      unrows_cons]
    simp [Context.header, String.append_assoc]

/-! ## What is read -/

/-- Rows with a tab in front go to the body. -/
theorem Outline.foldrM_add?_body (h : ∀ r ∈ rs, r.toList.head? = some '\t') :
    rs.foldrM add? o = some { o with body := unrows rs ++ o.body } := by
  induction rs with
  | nil => simp [unrows]
  | cons r rs ih =>
    rw [List.forall_mem_cons] at h
    rw [List.foldrM_cons, ih h.2]
    simp [add?, h.1, unrows_cons, String.append_assoc]

/-- The line of an extension takes the body behind it. -/
theorem Outline.add?_extension (name : String) (o : Outline) :
    add? ("exten = " ++ name ++ ",1,NoOp()") o =
      some { o with body := "", entries := ⟨name, o.body⟩ :: o.entries } := by
  have hhead : ("exten = " ++ name ++ ",1,NoOp()").toList.head? = some 'e' := by simp
  simp only [add?, hhead, between?_append, Option.map_some]

/-- The header of a context takes the entries behind it. -/
theorem Outline.add?_header (name : String) (ho : o.body = "") :
    add? ("[" ++ name ++ "]") o = some { sections := ⟨name, o.entries⟩ :: o.sections } := by
  have hhead : ("[" ++ name ++ "]").toList.head? = some '[' := by simp
  simp only [add?, hhead, ho, between?_append, Option.map_some]
  rfl

/-- The rows of extensions are read as entries. -/
theorem Outline.foldrM_add?_extensions {body : Extension → List String} {es : List Extension}
    (h : ∀ e ∈ es, ∀ r ∈ body e, r.toList.head? = some '\t') (ho : o.body = "") :
    (es.flatMap fun e => ("exten = " ++ e.name ++ ",1,NoOp()") :: body e).foldrM add? o =
      some { o with entries := es.map (fun e => ⟨e.name, unrows (body e)⟩) ++ o.entries } := by
  induction es with
  | nil => rfl
  | cons e es ih =>
    rw [List.forall_mem_cons] at h
    -- From the end: the other extensions, then the body, then the line that takes it.
    rw [List.flatMap_cons, List.foldrM_append, ih h.2, Option.bind_eq_bind, Option.bind_some,
      List.foldrM_cons, foldrM_add?_body h.1, Option.bind_eq_bind, Option.bind_some,
      add?_extension]
    simp [ho]

/-- The rows of contexts are read as sections. -/
theorem Outline.foldrM_add?_layoutRows {body : Extension → List String}
    (h : ∀ e ∈ Dialplan.extensions cs, ∀ r ∈ body e, r.toList.head? = some '\t') :
    (Dialplan.layoutRows body cs).foldrM add? {} = some { sections := cs.map fun c =>
      ⟨c.name, c.extensions.map fun e => ⟨e.name, unrows (body e)⟩⟩ } := by
  induction cs with
  | nil => rfl
  | cons c cs ih =>
    rw [Dialplan.extensions, List.flatMap_cons, List.forall_mem_append] at h
    rw [Dialplan.layoutRows, List.flatMap_cons, List.foldrM_append, ← Dialplan.layoutRows, ih h.2,
      Option.bind_eq_bind, Option.bind_some, List.foldrM_cons, foldrM_add?_extensions h.1 rfl,
      Option.bind_eq_bind, Option.bind_some, add?_header _ rfl]
    simp

/-- The rows of a layout are read as its contexts. -/
theorem sections?_layout {body : Extension → List String}
    (h : ∀ e ∈ Dialplan.extensions cs, ∀ r ∈ body e, r.toList.head? = some '\t')
    (hrows : ∀ r ∈ Dialplan.layoutRows body cs, NoNewline r) :
    sections? (Dialplan.layout (fun e => unrows (body e)) cs) = some (cs.map fun c =>
      ⟨c.name, c.extensions.map fun e => ⟨e.name, unrows (body e)⟩⟩) := by
  rw [Dialplan.layout_eq_unrows, sections?, rows_unrows hrows, Outline.foldrM_add?_layoutRows h]
  simp

/-! ## Dialplans -/

/-- A row of a body has a tab in front. -/
theorem Line.head?_row (host : Option String) (l : Line) :
    (l.row host).toList.head? = some '\t' := by
  simp [row]

/-- A row of a body has the form of one. -/
theorem Line.rowForm_row (host : Option String) (l : Line) : RowForm (l.row host) := by
  unfold row priority Application.text
  generalize l.application host = a
  split
  · have hform := RowForm.plain a.name a.arguments
    simpa [String.append_assoc] using hform
  · have heq : "\tsame = " ++ ("n(" ++ l.label ++ ")") ++ "," ++
        (a.name ++ "(" ++ a.arguments ++ ")") =
        "\tsame = n(" ++ l.label ++ ")," ++ a.name ++ "(" ++ a.arguments ++ ")" := by
      simp [← String.toList_inj]
    exact heq ▸ RowForm.labelled l.label a.name a.arguments

/-- The rows of a body are those of its lines. -/
theorem Extension.mem_bodyRows {r : String} (h : r ∈ e.bodyRows host) :
    ∃ s, e.script = some s ∧ ∃ l ∈ s.walkStart.items.flatMap Item.lines, l.row (some host) = r := by
  unfold bodyRows at h
  cases hs : e.script with
  | none => simp [hs] at h
  | some s =>
    rw [hs] at h
    exact ⟨s, rfl, List.mem_map.1 h⟩

/-- A walk from the start block without a fault is a walk from a block of the script. -/
theorem Script.exists_start (hf : s.walkStart.fault = none) :
    ∃ entry ∈ s.blocks, s.walkStart = s.walk entry := by
  unfold walkStart at hf ⊢
  cases hs : s.start? with
  | none => simp [hs, Trace.stop] at hf
  | some entry => exact ⟨entry, List.mem_of_find?_eq_some hs, rfl⟩

/-- The rows of a body hold no newline, if the blocks of the script and the host hold none. -/
theorem Extension.noNewline_bodyRows (he : e.OneLine) (hf : e.fault? = none)
    (hhost : NoNewline host) : ∀ r ∈ e.bodyRows host, NoNewline r := by
  intro r hr
  obtain ⟨s, hs, l, hl, rfl⟩ := mem_bodyRows hr
  rw [fault?, hs, Option.bind_some] at hf
  have hblocks := he.2 s hs
  obtain ⟨entry, hentry, hwalk⟩ := Script.exists_start hf
  rw [hwalk] at hf hl
  exact Script.noNewline_walk hf (List.forall_mem_cons.2 ⟨hblocks entry hentry, hblocks⟩) hhost l hl

/-- A body is empty for want of a script only: otherwise it begins with a header. -/
theorem Extension.bodyText_eq_empty (hf : e.fault? = none) :
    e.bodyText host = "" ↔ e.script = none := by
  unfold fault? at hf
  unfold bodyText
  cases hs : e.script with
  | none => simp
  | some s =>
    rw [hs, Option.bind_some] at hf
    obtain ⟨entry, -, hwalk⟩ := Script.exists_start hf
    rw [hwalk] at hf
    obtain ⟨ls, hls⟩ := (s.walked_walk entry).lines_eq_cons hf List.mem_cons_self
    simp [hwalk, hls, Line.textAll, Line.text]

/-- A row of a layout is a header, the line of an extension, or a row of a body. -/
theorem Dialplan.forall_mem_layoutRows {P : String → Prop} {body : Extension → List String}
    (hcs : ∀ c ∈ cs, P ("[" ++ c.name ++ "]"))
    (hes : ∀ e ∈ extensions cs, P ("exten = " ++ e.name ++ ",1,NoOp()"))
    (hbody : ∀ e ∈ extensions cs, ∀ r ∈ body e, P r) : ∀ r ∈ layoutRows body cs, P r := by
  intro r hr
  obtain ⟨c, hc, hr⟩ := List.mem_flatMap.1 hr
  rcases List.mem_cons.1 hr with rfl | hr
  · exact hcs c hc
  obtain ⟨e, he, hr⟩ := List.mem_flatMap.1 hr
  have he : e ∈ extensions cs := mem_extensions.2 ⟨c, hc, he⟩
  rcases List.mem_cons.1 hr with rfl | hr
  · exact hes e he
  · exact hbody e he r hr

/-- **A dialplan can be read back.** If the names, the texts of the blocks and the host hold no
newline, the sections of the text are the contexts in their order, each with its name, its
extensions and their bodies. The body of an extension is that of its script, and it is empty exactly
if the extension carries none. Every row has one of the forms that rows have. -/
theorem Dialplan.compile_reads_back (hcs : ∀ c ∈ cs, c.OneLine) (hhost : NoNewline host)
    (h : compile cs host = .ok text) :
    ∃ body : Extension → String,
      (∀ e ∈ extensions cs, (∀ s, e.script = some s → s.compile host = .ok (body e)) ∧
        (body e = "" ↔ e.script = none)) ∧
      sections? text = some (cs.map fun c =>
        ⟨c.name, c.extensions.map fun e => ⟨e.name, body e⟩⟩) ∧
      ∀ r ∈ rows text, RowForm r := by
  have hfault : ∀ e ∈ extensions cs, e.fault? = none := by
    refine List.findSome?_eq_none_iff.1 ?_
    rw [← failure?_compile_host cs host, h, failure?_ok]
  have hbody : ∀ e ∈ extensions cs, e.body host = .ok (e.bodyText host) := fun e he =>
    (Extension.body_of_fault? (hfault e he)).1 host
  have hes : ∀ e ∈ extensions cs, e.OneLine := by
    intro e he
    obtain ⟨c, hc, he⟩ := mem_extensions.1 he
    exact (hcs c hc).2 e he
  obtain rfl : layout (Extension.bodyText host) cs = text :=
    Except.ok.inj ((compile_of_body hbody).symm.trans h)
  -- Without a fault every body is written from its rows, and so is the whole text.
  have hlayout : layout (Extension.bodyText host) cs =
      layout (fun e => unrows (e.bodyRows host)) cs :=
    layout_congr fun e _ => e.bodyText_eq_unrows host
  have hrows : ∀ r ∈ layoutRows (Extension.bodyRows host) cs, NoNewline r :=
    forall_mem_layoutRows (fun c hc => by simpa [NoNewline] using (hcs c hc).1)
      (fun e he => by simpa [NoNewline] using (hes e he).1)
      fun e he => Extension.noNewline_bodyRows (hes e he) (hfault e he) hhost
  refine ⟨Extension.bodyText host, fun e he => ⟨fun s hs => ?_, ?_⟩, ?_, ?_⟩
  · rw [← hbody e he, Extension.body, hs]
  · exact Extension.bodyText_eq_empty (hfault e he)
  · simp only [hlayout, Extension.bodyText_eq_unrows]
    refine sections?_layout (fun e _ r hr => ?_) hrows
    obtain ⟨-, -, l, -, rfl⟩ := Extension.mem_bodyRows hr
    exact l.head?_row _
  · rw [hlayout, layout_eq_unrows, rows_unrows hrows]
    refine forall_mem_layoutRows (fun c _ => .header c.name) (fun e _ => .extension e.name) ?_
    intro e _ r hr
    obtain ⟨-, -, l, -, rfl⟩ := Extension.mem_bodyRows hr
    exact l.rowForm_row _

end

/-- A context with the menu behind an extension that is named like a header, and one without a
script; and a context without extensions. -/
def Dialplan.menus : List Context :=
  [⟨"main", [⟨"[1],1,NoOp()", some 7, some .retryMenu⟩, ⟨"exten", some 8, none⟩]⟩, ⟨"rest", []⟩]

/-- The menus are read back. -/
theorem Dialplan.menus_read_back : ∃ text body, compile menus "10.0.0.5" = .ok text ∧
    Script.retryMenu.compile "10.0.0.5" = .ok body ∧ body ≠ "" ∧
    sections? text =
      some [⟨"main", [⟨"[1],1,NoOp()", body⟩, ⟨"exten", ""⟩]⟩, ⟨"rest", []⟩] ∧
    ∀ r ∈ rows text, RowForm r := by
  have hf : Script.retryMenu.walkStart.fault = none := by cbv
  obtain ⟨text, h⟩ : ∃ text, compile menus "10.0.0.5" = .ok text := by
    rw [← failure?_eq_none, failure?_compile_host]
    simp [menus, extensions, Extension.fault?, hf]
  have hblocks : ∀ b ∈ Script.retryMenu.blocks, b.OneLine := by
    simp [Script.retryMenu, Block.OneLine, Kind.texts, NoNewline]
  have hcs : ∀ c ∈ menus, c.OneLine := by
    simpa [menus, Context.OneLine, Extension.OneLine, NoNewline] using hblocks
  obtain ⟨body, hbody, hsections, hrows⟩ := compile_reads_back hcs (by simp [NoNewline]) h
  have hmenu := hbody ⟨"[1],1,NoOp()", some 7, some .retryMenu⟩ (by simp [menus, extensions])
  have hplain := (hbody ⟨"exten", some 8, none⟩ (by simp [menus, extensions])).2.2 rfl
  refine ⟨text, _, h, hmenu.1 _ rfl, fun hempty => ?_, ?_, hrows⟩
  · cases hmenu.2.1 hempty
  · simpa [menus, hplain] using hsections

end CallFlow
