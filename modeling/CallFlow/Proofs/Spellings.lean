import CallFlow.Proofs.Members
import Mathlib.Data.List.Forall2

/-!
# Spellings of a record

A value can be spelled in many ways. A record is an object or an array: in an object its fields come
in any order, among members that are none of its fields, and in an array they come in their own
order; a field that holds its default may be left out, in an array only at the end
(`RecordSpelling`). A list is an array of spellings of its values (`ListSpelling`), and a text may
hold any escapes (`TextSpelling`).

A reader understands a kind of spellings if it reads each of them, at whatever depth, as long as the
whole is not nested too deep (`Understands`). Whoever understands the values of a list understands
the list (`Understands.list`), and a layout whose fields understand what stands under their names
understands the record, in both of its forms (`Layout.Matches.read`). So the text of a document does
not matter beyond what it spells (`Understands.decode`).
-/

namespace CallFlow.Json

namespace Tree

mutual

/-- How many arrays and objects stand inside each other in a value, from the value itself on. -/
def nesting : Tree → Nat
  | .array items _ => nestingItems items + 1
  | .object members _ => nestingMembers members + 1
  | .null | .bool _ | .number _ | .text _ | .broken _ => 0

/-- The deepest nesting of a value of an array. -/
def nestingItems : List Tree → Nat
  | [] => 0
  | t :: ts => max t.nesting (nestingItems ts)

/-- The deepest nesting of a value of an object. -/
def nestingMembers : List (List Piece × Tree) → Nat
  | [] => 0
  | (_, t) :: ms => max t.nesting (nestingMembers ms)

end

end Tree

/-- Every spelling of a value is read as the value, if it is whole and nested no deeper than the
limit from where it stands. -/
def Understands {α : Type} (read : Nat → Tree → Except Failure α) (Spelling : α → Tree → Prop) :
    Prop :=
  ∀ ⦃depth : Nat⦄ ⦃a : α⦄ ⦃t : Tree⦄, Spelling a t → t.Whole → depth + t.nesting ≤ depthLimit →
    read depth t = .ok a

/-- The spellings of a text: pieces that stand for it. -/
def TextSpelling (s : String) (t : Tree) : Prop :=
  ∃ ps, t = .text ps ∧ readPieces ps = .ok s

/-- The spelling of an integer of 32 bits. -/
def Int32Spelling (n : Int32) (t : Tree) : Prop :=
  t = .ofInt n.toInt

/-- The spelling of an integer of 64 bits. -/
def Int64Spelling (n : Int64) (t : Tree) : Prop :=
  t = .ofInt n.toInt

/-- The spellings of a value that may be absent: null, or those of the value. -/
def OptionSpelling {α : Type} (Spelling : α → Tree → Prop) : Option α → Tree → Prop
  | none, t => t = .null
  | some a, t => Spelling a t

/-- The spellings of a list: an array of spellings of its values, in their order. -/
def ListSpelling {α : Type} (Spelling : α → Tree → Prop) (as : List α) (t : Tree) : Prop :=
  ∃ items, t = .array items none ∧ List.Forall₂ Spelling as items

/-- A field of a record that is spelled: its name, the spellings of what it holds, and whether it
may be left out. -/
structure FieldSpelling where
  name : String
  Spells : Tree → Prop
  MayOmit : Prop

/-- The spellings of a record. The keys of an object are texts. Under the name of each field stands
one spelling of what the field holds, or nothing if the field may be left out; what stands under
other keys does not matter. An array holds spellings of the first fields, and the others may be left
out. -/
inductive RecordSpelling (fs : List FieldSpelling) : Tree → Prop
  | object {ms : List Member} (hkeys : ∀ m ∈ ms, ∃ s, readPieces m.1 = .ok s)
    (hfields : ∀ f ∈ fs, (∃ t, valuesOf ms f.name = [t] ∧ f.Spells t) ∨
      valuesOf ms f.name = [] ∧ f.MayOmit) : RecordSpelling fs (.object ms none)
  | array {items : List Tree} (given omitted : List FieldSpelling) (hfs : fs = given ++ omitted)
    (hitems : List.Forall₂ FieldSpelling.Spells given items) (homitted : ∀ f ∈ omitted, f.MayOmit) :
    RecordSpelling fs (.array items none)

/-- Reading fields in order, each from any spelling of what it holds, makes one record of another.
A field that may be left out makes no change. -/
inductive Layout.Matches {σ : Type} (depth : Nat) :
    List (FieldReader σ) → List FieldSpelling → σ → σ → Prop
  | done {v : σ} : Matches depth [] [] v v
  | next {f : FieldReader σ} {fs : List (FieldReader σ)} {g : FieldSpelling}
    {gs : List FieldSpelling} {update : σ → σ} {v w : σ} (hname : g.name = f.name)
    (hread : ∀ t, g.Spells t → t.Whole → depth + t.nesting ≤ depthLimit →
      f.read depth t = .ok update)
    (homit : g.MayOmit → f.required = false ∧ update v = v)
    (hrest : Matches depth fs gs (update v) w) : Matches depth (f :: fs) (g :: gs) v w

section
variable {α σ : Type} {depth d : Nat} {t : Tree} {items : List Tree} {ms : List Member}

/-! ## Nesting -/

/-- A value of an array is nested no deeper than the array allows. -/
theorem Tree.nesting_le_items (h : t ∈ items) : t.nesting ≤ nestingItems items := by
  induction items with
  | nil => cases h
  | cons u items ih =>
    rw [nestingItems]
    rcases List.mem_cons.1 h with rfl | h
    · exact Nat.le_max_left _ _
    · exact Nat.le_trans (ih h) (Nat.le_max_right _ _)

/-- A value of an object is nested no deeper than the object allows. -/
theorem Tree.nesting_le_members {m : Member} (h : m ∈ ms) :
    m.2.nesting ≤ nestingMembers ms := by
  induction ms with
  | nil => cases h
  | cons n ms ih =>
    rw [nestingMembers]
    rcases List.mem_cons.1 h with rfl | h
    · exact Nat.le_max_left _ _
    · exact Nat.le_trans (ih h) (Nat.le_max_right _ _)

/-- The limit for an array leaves one level less for its values. -/
theorem Tree.nesting_array {close : Option Break}
    (h : depth + (Tree.array items close).nesting ≤ depthLimit) :
    depth < depthLimit ∧ ∀ u ∈ items, depth + 1 + u.nesting ≤ depthLimit := by
  rw [nesting] at h
  refine ⟨by omega, fun u hu => ?_⟩
  have hle := nesting_le_items hu
  omega

/-- The limit for an object leaves one level less for its values. -/
theorem Tree.nesting_object {close : Option Break}
    (h : depth + (Tree.object ms close).nesting ≤ depthLimit) :
    depth < depthLimit ∧ ∀ m ∈ ms, depth + 1 + m.2.nesting ≤ depthLimit := by
  rw [nesting] at h
  refine ⟨by omega, fun m hm => ?_⟩
  have hle := nesting_le_members hm
  omega

/-- A value that is sound at one depth is sound at every depth at which it is not nested too deep.
-/
theorem Tree.Sound.moved (h : t.Sound depth) (hd : d + t.nesting ≤ depthLimit) : t.Sound d := by
  induction h generalizing d with
  | null => exact .null
  | bool b => exact .bool b
  | integer n => exact .integer n
  | float => exact .float
  | text hs => exact .text hs
  | array _ _ ih =>
    obtain ⟨hdepth, hitems⟩ := nesting_array hd
    exact .array hdepth fun t ht => ih t ht (hitems t ht)
  | object _ hkeys _ ih =>
    obtain ⟨hdepth, hmembers⟩ := nesting_object hd
    exact .object hdepth hkeys fun m hm => ih m hm (hmembers m hm)

/-- Inside an array or an object the depth is one more. -/
theorem descend_eq_ok : descend depth = .ok d ↔ depth < depthLimit ∧ d = depth + 1 := by
  by_cases h : depth < depthLimit <;> simp [descend, h, eq_comm]

/-- A whole value that can be read is sound. -/
theorem Tree.Whole.sound (h : t.Whole) (hcheck : t.check .read depth = .ok ()) :
    t.Sound depth := by
  induction h generalizing depth with
  | null => exact .null
  | bool b => exact .bool b
  | number n =>
    cases n with
    | integer n => exact .integer n
    | float => exact .float
    | huge => cases hcheck
  | text ps =>
    obtain ⟨s, hs⟩ := checkPieces_read_eq_ok.1 hcheck
    exact .text hs
  | array _ ih =>
    obtain ⟨d, hd, hcheck⟩ := exists_of_bind_eq_ok hcheck
    obtain ⟨_, hitems, -⟩ := exists_of_bind_eq_ok hcheck
    obtain ⟨hdepth, rfl⟩ := descend_eq_ok.1 hd
    exact .array hdepth fun t ht => ih t ht (checkItems_eq_ok.1 hitems t ht)
  | object _ ih =>
    obtain ⟨d, hd, hcheck⟩ := exists_of_bind_eq_ok hcheck
    obtain ⟨_, hmembers, -⟩ := exists_of_bind_eq_ok hcheck
    obtain ⟨hdepth, rfl⟩ := descend_eq_ok.1 hd
    have hmembers := checkMembers_eq_ok.1 hmembers
    exact .object hdepth (fun m hm => checkPieces_read_eq_ok.1 (hmembers m hm).1)
      fun m hm => ih m hm (hmembers m hm).2

/-! ## Whole values -/

/-- The values of a whole array are whole. -/
theorem Tree.Whole.of_array (h : (Tree.array items none).Whole) : ∀ t ∈ items, t.Whole := by
  cases h with
  | array h => exact h

/-- The values of a whole object are whole. -/
theorem Tree.Whole.of_object (h : (Tree.object ms none).Whole) : ∀ m ∈ ms, m.2.Whole := by
  cases h with
  | object h => exact h

/-- What is written is whole. -/
theorem Tree.Written.whole {cs : List Char} (h : t.Written cs) : t.Whole := by
  induction h with
  | null => exact .null
  | bool b => exact .bool b
  | number => exact .number _
  | text => exact .text _
  | emptyArray => exact .array nofun
  | array items _ _ ih => exact .array (List.forall_mem_map.2 ih)
  | emptyObject => exact .object nofun
  | object members _ _ _ ih => exact .object (List.forall_mem_map.2 ih)
  | blanks _ _ _ ih => exact ih

/-! ## Understanding -/

/-- A document is read as what it spells. -/
theorem Understands.decode {read : Nat → Tree → Except Failure α} {Spelling : α → Tree → Prop}
    (h : Understands read Spelling) {s : String} (hs : t.Written s.toList)
    (ht : t.nesting ≤ depthLimit) {a : α} (ha : Spelling a t) : Json.decode read s = .ok a := by
  rw [decode_of_run hs.run]
  exact h ha hs.whole (by omega)

/-- A text is read from each of its spellings. -/
theorem understands_text : Understands (fun _ t => t.readText) TextSpelling := by
  rintro _ s t ⟨ps, rfl, hs⟩ - -
  exact hs

theorem understands_int32 : Understands (fun _ t => t.readInt32) Int32Spelling := by
  rintro _ n t rfl - -
  exact Tree.readInt32_ofInt n

theorem understands_int64 : Understands (fun _ t => t.readInt64) Int64Spelling := by
  rintro _ n t rfl - -
  exact Tree.readInt64_ofInt n

/-- Whoever understands a value that is never null understands it where it may be absent. -/
theorem Understands.option {read : Tree → Except Failure α} {Spelling : α → Tree → Prop}
    (h : Understands (fun _ => read) Spelling) (hnull : ∀ a, ¬ Spelling a .null) :
    Understands (fun _ t => t.readOption read) (OptionSpelling Spelling) := by
  intro depth o t ht hwhole hnesting
  cases o with
  | none =>
    cases ht
    rfl
  | some a =>
    have hread : t.readOption read = (read t).map some := by
      cases t with
      | null => exact absurd ht (hnull a)
      | _ => rfl
    have ha : read t = .ok a := h ht hwhole hnesting
    exact hread.trans (map_eq_ok _ ha)

/-- Spellings of values are read one by one. -/
theorem Understands.mapM {read : Nat → Tree → Except Failure α} {Spelling : α → Tree → Prop}
    (h : Understands read Spelling) {as : List α} (hitems : List.Forall₂ Spelling as items)
    (hwhole : ∀ t ∈ items, t.Whole) (hnesting : ∀ t ∈ items, depth + t.nesting ≤ depthLimit) :
    items.mapM (read depth) = .ok as := by
  induction hitems with
  | nil => rfl
  | cons ha _ ih =>
    rw [List.forall_mem_cons] at hwhole hnesting
    rw [List.mapM_cons, h ha hwhole.1 hnesting.1, ih hwhole.2 hnesting.2]
    rfl

/-- Whoever understands the values of a list understands the list. -/
theorem Understands.list {read : Nat → Tree → Except Failure α} {Spelling : α → Tree → Prop}
    (h : Understands read Spelling) :
    Understands (fun depth t => t.readList read depth) (ListSpelling Spelling) := by
  rintro depth as t ⟨items, rfl, hitems⟩ hwhole hnesting
  obtain ⟨hdepth, hnesting⟩ := Tree.nesting_array hnesting
  have hmap := h.mapM hitems hwhole.of_array hnesting
  simp only [Tree.readList, descend, if_pos hdepth, hmap, checkClose, bind, Except.bind]

/-! ## Records -/

namespace Layout

variable {l : Layout σ} {fs : List (FieldReader σ)} {gs : List FieldSpelling} {v w : σ}

/-- A field that has to be there is read by whoever understands what it holds. -/
theorem Matches.required {name : String} {read : Nat → Tree → Except Failure α}
    {Spelling : α → Tree → Prop} {set : α → σ → σ} {a : α} (h : Understands read Spelling)
    (hrest : Matches depth fs gs (set a v) w) :
    Matches depth (⟨name, true, fun d t => (read d t).map set⟩ :: fs)
      (⟨name, Spelling a, False⟩ :: gs) v w :=
  .next rfl (fun _ ht hwhole hnesting => map_eq_ok _ (h ht hwhole hnesting)) nofun hrest

/-- A field that may be left out at its default is read so, if the record has the default before. -/
theorem Matches.optional {name : String} {read : Nat → Tree → Except Failure α}
    {Spelling : α → Tree → Prop} {set : α → σ → σ} {a default : α} (h : Understands read Spelling)
    (hset : set default v = v) (hrest : Matches depth fs gs (set a v) w) :
    Matches depth (⟨name, false, fun d t => (read d t).map set⟩ :: fs)
      (⟨name, Spelling a, a = default⟩ :: gs) v w := by
  refine .next rfl (fun _ ht hwhole hnesting => map_eq_ok _ (h ht hwhole hnesting)) ?_ hrest
  rintro rfl
  exact ⟨rfl, hset⟩

/-- A record is supplied from spellings of its fields under their names. -/
theorem Matches.supplyAll? (h : Matches depth fs gs v w) {values : String → List Tree}
    (hfields : ∀ g ∈ gs, (∃ t, values g.name = [t] ∧ g.Spells t) ∨
      values g.name = [] ∧ g.MayOmit)
    (hvalues : ∀ key, ∀ t ∈ values key, t.Whole ∧ depth + t.nesting ≤ depthLimit) :
    Json.supplyAll? depth values [] fs v = some w := by
  induction h with
  | done => rfl
  | @next f fs g gs update v w hname hread homit _ ih =>
    rw [List.forall_mem_cons, hname] at hfields
    have hrest := ih hfields.2
    rcases hfields.1 with ⟨t, ht, hspells⟩ | ⟨hnone, hmay⟩
    · obtain ⟨hwhole, hnesting⟩ := hvalues f.name t (by simp [ht])
      have hupdate := hread t hspells hwhole hnesting
      have hsupply : f.supply? depth [] [t] = some update := by
        simp [FieldReader.supply?, one?, oneOr?, hupdate]
      rw [Json.supplyAll?, ht, hsupply]
      exact hrest
    · obtain ⟨hrequired, hsame⟩ := homit hmay
      have hsupply : f.supply? depth [] [] = some id := by
        simp [FieldReader.supply?, oneOr?, hrequired]
      rw [hsame] at hrest
      rw [Json.supplyAll?, hnone, hsupply]
      exact hrest

/-- A record is read from spellings of its first fields in their order. -/
theorem Matches.readItems (h : Matches depth fs gs v w) {given omitted : List FieldSpelling}
    (hgs : gs = given ++ omitted) (hitems : List.Forall₂ FieldSpelling.Spells given items)
    (homitted : ∀ g ∈ omitted, g.MayOmit)
    (hvalues : ∀ t ∈ items, t.Whole ∧ depth + t.nesting ≤ depthLimit) (taken : Nat) :
    l.readItems depth none fs items taken v = .ok w := by
  induction h generalizing given omitted items taken with
  | done =>
    obtain ⟨rfl, rfl⟩ := List.append_eq_nil_iff.1 hgs.symm
    cases hitems
    rfl
  | @next f fs g gs update v w _ hread homit _ ih =>
    cases hitems with
    | nil =>
      -- No value is left, so this field and all behind it are omitted.
      obtain rfl : g :: gs = omitted := hgs
      rw [List.forall_mem_cons] at homitted
      obtain ⟨hrequired, hsame⟩ := homit homitted.1
      have hrest := ih rfl .nil homitted.2 nofun taken
      rw [hsame] at hrest
      simpa [Layout.readItems, checkClose, hrequired, bind, Except.bind] using hrest
    | @cons g' t given items ht hitems =>
      obtain ⟨rfl, rfl⟩ := List.cons.inj hgs
      rw [List.forall_mem_cons] at hvalues
      have hupdate := hread t ht hvalues.1.1 hvalues.1.2
      have hrest := ih rfl hitems homitted hvalues.2 (taken + 1)
      simpa [Layout.readItems, hupdate, bind, Except.bind] using hrest

/-- **A record is read from each of its spellings**, be it an object or an array. -/
theorem Matches.read (h : Matches (depth + 1) l.fields gs l.blank v) (hl : l.Orderless)
    (ht : RecordSpelling gs t) (hwhole : t.Whole) (hnesting : depth + t.nesting ≤ depthLimit) :
    l.read depth t = .ok v := by
  cases ht with
  | @object ms hkeys hfields =>
    obtain ⟨hdepth, hnesting⟩ := Tree.nesting_object hnesting
    have hmembers : WholeMembers ms := fun m hm => ⟨hkeys m hm, hwhole.of_object m hm⟩
    have hvalues : ∀ key, ∀ t ∈ valuesOf ms key, t.Whole ∧ depth + 1 + t.nesting ≤ depthLimit := by
      intro key t ht
      obtain ⟨m, hm, rfl⟩ := exists_of_mem_valuesOf ht
      exact ⟨hwhole.of_object m hm, hnesting m hm⟩
    have hobject : l.readObject (depth + 1) ms none = .ok v := by
      rw [← toOption_eq_some, readObject_eq_supplyAll? hl hmembers]
      exact h.supplyAll? hfields hvalues
    simp only [Layout.read, descend, if_pos hdepth, hobject, bind, Except.bind]
  | @array items given omitted hgs hitems homitted =>
    obtain ⟨hdepth, hnesting⟩ := Tree.nesting_array hnesting
    have hvalues := fun t ht => And.intro (hwhole.of_array t ht) (hnesting t ht)
    have hitems := h.readItems (l := l) hgs hitems homitted hvalues 0
    simp only [Layout.read, descend, if_pos hdepth, hitems, bind, Except.bind]

/-- Values for which no field is left cannot be read. -/
theorem readItems_ne_ok {close : Option Break} (h : fs.length < items.length) (taken : Nat)
    (v : σ) : l.readItems depth close fs items taken v ≠ .ok w := by
  induction fs generalizing items taken v with
  | nil =>
    cases items with
    | nil => cases h
    | cons t items => exact nofun
  | cons f fs ih =>
    cases items with
    | nil => cases h
    | cons t items =>
      intro hread
      obtain ⟨update, -, hread⟩ := exists_of_bind_eq_ok hread
      exact ih (Nat.lt_of_succ_lt_succ h) _ _ hread

/-- An array of more values than there are fields is no record. -/
theorem read_array_ne_ok {close : Option Break} (h : l.fields.length < items.length) :
    l.read depth (.array items close) ≠ .ok v := by
  intro hread
  obtain ⟨d, -, hread⟩ := exists_of_bind_eq_ok hread
  exact readItems_ne_ok h 0 _ hread

end Layout

end

end CallFlow.Json
