import CallFlow.Document.Block
import CallFlow.Proofs.Members

/-!
# Shapes of block documents

Which objects are blocks, and of which block an object is, said without reading it. Both depend on
the values under a few keys: those of the id, the label and the tag, and the names of the fields
that the kind of this tag has. `Block.Shaped` says what has to stand there, and `Block.shape?` makes
a block of it.

Reading finds the same, though the tag may come behind the fields that it speaks for: a draft keeps
the members that are neither id nor label (`Block.readMembers_eq`), the tag is looked for among them
(`Tag.readMembers_eq_oneMore?`), and then the fields of its kind (`Kind.readFields_eq_shape?`).
-/

namespace CallFlow

open Json

/-- The kind of a tag, made of the values under the names of its fields. -/
def Kind.shape? (values : String → List Tree) (tag : Tag) : Option Kind :=
  let text (name : String) := one? Tree.readText (values name)
  match tag with
  | .start => some .start
  | .answer => some .answer
  | .playback => (text "file").map .playback
  | .background => (text "file").map .background
  | .wait => (one? Tree.readUInt32 (values "seconds")).map .wait
  | .setVariable => do
    let name ← text "name"
    (text "value").map (.setVariable name)
  | .dial => do
    let destination ← text "destination"
    (oneOr? (Tree.readOption Tree.readUInt32) none (values "timeout")).map (.dial destination)
  | .queue => (text "name").map .queue
  | .custom => do
    let application ← text "application"
    (oneOr? Tree.readText "" (values "arguments")).map (.custom application)
  | .switch => (text "expression").map .switch
  | .timeSwitch => some .timeSwitch
  | .agiSwitch => (text "script").map .agiSwitch
  | .caseArm => (text "value").map .caseArm
  | .defaultArm => some .defaultArm

/-- The block that is made of the values under the keys of an object. -/
def Block.shape? (values : String → List Tree) : Option Block := do
  let id ← one? Tree.readInt32 (values "local_id")
  let label ← oneOr? Tree.readText "" (values "label")
  let tag ← one? Tag.read (values Tag.key)
  (Kind.shape? values tag).map fun kind => ⟨id, label, kind⟩

/-- What a field of a kind may hold. -/
inductive FieldType where
  | text
  | word
  | wordOrNull
deriving DecidableEq, Repr

/-- A field of a kind. -/
structure FieldShape where
  name : String
  type : FieldType
  required : Bool
deriving DecidableEq, Repr

/-- The fields of the kind of a tag. -/
def Tag.fields : Tag → List FieldShape
  | .start | .answer | .timeSwitch | .defaultArm => []
  | .playback | .background => [⟨"file", .text, true⟩]
  | .wait => [⟨"seconds", .word, true⟩]
  | .setVariable => [⟨"name", .text, true⟩, ⟨"value", .text, true⟩]
  | .dial => [⟨"destination", .text, true⟩, ⟨"timeout", .wordOrNull, false⟩]
  | .queue => [⟨"name", .text, true⟩]
  | .custom => [⟨"application", .text, true⟩, ⟨"arguments", .text, false⟩]
  | .switch => [⟨"expression", .text, true⟩]
  | .agiSwitch => [⟨"script", .text, true⟩]
  | .caseArm => [⟨"value", .text, true⟩]

/-- The keys that a block of a kind is read from. -/
def Tag.keys (tag : Tag) : List String :=
  ["local_id", "label", Tag.key] ++ tag.fields.map (·.name)

/-- The value is a text. -/
def Json.Tree.IsText (t : Tree) : Prop :=
  ∃ ps, t = .text ps

/-- The value is an integer between two bounds. -/
def Json.Tree.IsInteger (least greatest : Int) (t : Tree) : Prop :=
  ∃ n, t = .number (.integer n) ∧ least ≤ n ∧ n ≤ greatest

/-- The value is of the type of a field. A word has 32 bits. -/
def FieldType.Holds : FieldType → Tree → Prop
  | .text => Tree.IsText
  | .word => Tree.IsInteger 0 4294967295
  | .wordOrNull => fun t => t = .null ∨ t.IsInteger 0 4294967295

/-- The value is the name of a tag or its place in the list of all tags. -/
def Tag.Names (tag : Tag) (t : Tree) : Prop :=
  (∃ ps, t = .text ps ∧ readPieces ps = .ok tag.name) ∨
    ∃ n : Nat, t = .number (.integer n) ∧ all[n]? = some tag

/-- At most one value is there, and it is as it should be. If it is required, it is there. -/
def Json.Takes (required : Bool) (P : Tree → Prop) (ts : List Tree) : Prop :=
  ts.length ≤ 1 ∧ (required = true → ts ≠ []) ∧ ∀ t ∈ ts, P t

/-- The values under the keys of an object are those of a block: one id, at most one label, one tag,
and at most one value for each field of its kind. -/
structure Block.Shaped (values : String → List Tree) : Prop where
  id : Takes true (Tree.IsInteger (-2147483648) 2147483647) (values "local_id")
  label : Takes false Tree.IsText (values "label")
  kind : ∃ tag : Tag, Takes true tag.Names (values "type") ∧
    ∀ f ∈ tag.fields, Takes f.required f.type.Holds (values f.name)

section
variable {depth : Nat} {ms : List Member} {values values' : String → List Tree} {t : Tree}
  {tag : Tag}

/-! ## Kinds -/

/-- A kind is read from the values under the names of its fields. -/
theorem Kind.readFields_eq_shape? (hms : WholeMembers ms) (tag : Tag) :
    (readFields depth ms tag).toOption = shape? (valuesOf ms) tag := by
  have hunit : ((unitLayout tag).readObject depth ms none).toOption = some () :=
    Layout.readObject_eq_supplyAll? ⟨List.nodup_nil, nofun⟩ hms
  have htext (name : String) : ((textLayout tag name).readObject depth ms none).toOption =
      one? Tree.readText (valuesOf ms name) := Layout.readObject_single rfl hms
  cases tag with
  | start | answer | timeSwitch | defaultArm =>
    rw [readFields, toOption_map, hunit]
    rfl
  | playback | background | queue | switch | agiSwitch | caseArm =>
    rw [readFields, toOption_map, htext]
    rfl
  | wait =>
    rw [readFields, toOption_map, Layout.readObject_single (l := waitLayout) rfl hms]
    rfl
  | setVariable =>
    have hpair : (setVariableLayout.readObject depth ms none).toOption = _ :=
      Layout.readObject_pair rfl (by decide) hms
    simp [readFields, toOption_map, hpair, shape?, Option.map_bind, Function.comp_def]
  | dial =>
    have hpair : (dialLayout.readObject depth ms none).toOption = _ :=
      Layout.readObject_pair rfl (by decide) hms
    have hblank : dialLayout.blank.2 = none := rfl
    simp [readFields, toOption_map, hpair, hblank, shape?, Option.map_bind, Function.comp_def]
  | custom =>
    have hpair : (customLayout.readObject depth ms none).toOption = _ :=
      Layout.readObject_pair rfl (by decide) hms
    have hblank : customLayout.blank.2 = "" := rfl
    simp [readFields, toOption_map, hpair, hblank, shape?, Option.map_bind, Function.comp_def]

/-- The tag is read from the values under its key. -/
theorem Tag.readMembers_eq_oneMore? (hms : SoundMembers depth ms) (tag? : Option Tag) :
    (readMembers ms tag?).toOption = oneMore? read tag? (valuesOf ms key) := by
  induction ms generalizing tag? with
  | nil => cases tag? <;> rfl
  | cons m ms ih =>
    obtain ⟨k, t⟩ := m
    obtain ⟨⟨key', hkey⟩, -, hms⟩ := hms.of_cons
    rw [valuesOf_cons hkey]
    simp only [readMembers, hkey, toOption_bind, toOption_ok, Option.bind_some]
    by_cases htag : key' = key
    · rw [if_pos htag, if_pos htag, oneMore?_cons]
      cases tag? with
      | some _ => rfl
      | none => simp [toOption_bind, ih hms]
    · rw [if_neg htag, if_neg htag, ih hms]

/-- A kind is read from the values under the keys of an object. -/
theorem Kind.readMembers_eq_shape? (hms : SoundMembers depth ms) :
    (readMembers depth ms).toOption =
      (one? Tag.read (valuesOf ms Tag.key)).bind (shape? (valuesOf ms)) := by
  rw [readMembers, toOption_bind, Tag.readMembers_eq_oneMore? hms none, one?_eq_join]
  cases oneMore? Tag.read none (valuesOf ms Tag.key) with
  | none => rfl
  | some tag? =>
    cases tag? with
    | none => rfl
    | some tag => exact readFields_eq_shape? hms.whole tag

/-! ## Drafts -/

/-- The member is neither the id nor the label. -/
def Block.isKept (m : Member) : Bool :=
  (readPieces m.1).toOption.any fun key => key ≠ "local_id" && key ≠ "label"

/-- A draft holds the one id, the one label and all other members. -/
theorem Block.readMembers_eq (hms : SoundMembers depth ms) (d : Draft) :
    (readMembers depth ms d).toOption =
      (oneMore? Tree.readInt32 d.id (valuesOf ms "local_id")).bind fun id =>
        (oneMore? Tree.readText d.label (valuesOf ms "label")).map fun label =>
          ⟨id, label, (ms.filter isKept).reverse ++ d.kept⟩ := by
  induction ms generalizing d with
  | nil =>
    obtain ⟨id, label, kept⟩ := d
    cases id <;> cases label <;> rfl
  | cons m ms ih =>
    obtain ⟨k, t⟩ := m
    obtain ⟨⟨key, hkey⟩, ht, hms⟩ := hms.of_cons
    have hkept : isKept (k, t) = (key ≠ "local_id" && key ≠ "label") := by
      rw [isKept, hkey, toOption_ok, Option.any_some]
    rw [valuesOf_cons hkey, valuesOf_cons hkey, List.filter_cons, hkept, readMembers, hkey,
      toOption_bind, toOption_ok, Option.bind_some]
    -- A member goes to one of three places, and what the other two hold stays as it is.
    by_cases hid : key = "local_id"
    · cases hd : d.id.isSome with
      | true => simp [hid, hd, oneMore?_cons]
      | false => simp [hid, hd, oneMore?_cons, toOption_bind, ih hms, Option.bind_assoc]
    by_cases hlabel : key = "label"
    · cases hd : d.label.isSome with
      | true => simp [hlabel, hd, oneMore?_cons]
      | false =>
        cases hread : t.readText.toOption <;>
          simp [hlabel, hd, hread, oneMore?_cons, toOption_bind, ih hms]
    · simp [hid, hlabel, toOption_bind, ht.check_read, ih hms]

/-- Kinds look at the values under the names of their fields only. -/
theorem Kind.shape?_congr (h : ∀ f ∈ tag.fields, values f.name = values' f.name) :
    shape? values tag = shape? values' tag := by
  cases tag <;> simp_all [shape?, Tag.fields]

/-- No field of a kind has the key of the id or the label. -/
theorem Tag.name_of_mem_fields : ∀ f ∈ tag.fields, f.name ≠ "local_id" ∧ f.name ≠ "label" := by
  cases tag <;> simp [fields]

/-- A draft becomes a block if it has an id and the members that are kept make a kind. -/
theorem Block.ofDraft_eq (d : Draft) : (ofDraft depth d).toOption = d.id.bind fun id =>
    (Kind.readMembers depth d.kept.reverse).toOption.map fun kind =>
      ⟨id, d.label.getD "", kind⟩ := by
  unfold ofDraft
  cases d.id with
  | none => rfl
  | some id => cases Kind.readMembers depth d.kept.reverse <;> rfl

/-- A block is read from the values under the keys of an object. -/
theorem Block.read_eq_shape? (hms : SoundMembers (depth + 1) ms) (hdepth : depth < depthLimit) :
    (read depth (.object ms none)).toOption = shape? (valuesOf ms) := by
  have hkept : SoundMembers (depth + 1) (ms.filter isKept) := fun m hm =>
    hms m (List.mem_filter.1 hm).1
  have hvalues : ∀ key, key ≠ "local_id" ∧ key ≠ "label" →
      valuesOf (ms.filter isKept) key = valuesOf ms key := fun key hkey =>
    valuesOf_filter (by simpa using hkey)
  have hkind : (Kind.readMembers (depth + 1) (ms.filter isKept)).toOption =
      (one? Tag.read (valuesOf ms Tag.key)).bind (Kind.shape? (valuesOf ms)) := by
    rw [Kind.readMembers_eq_shape? hkept, hvalues Tag.key (by decide)]
    congr 1
    funext tag
    exact Kind.shape?_congr fun f hf => hvalues f.name (Tag.name_of_mem_fields f hf)
  simp only [read, toOption_bind, descend, if_pos hdepth, toOption_ok, Option.bind_some,
    readMembers_eq hms, checkClose, ofDraft_eq, shape?, one?_eq_join Tree.readInt32,
    oneOr?_eq_map Tree.readText]
  -- Without an id, or with a second one or a second label, both sides end. Otherwise the members
  -- that are kept decide.
  cases oneMore? Tree.readInt32 none (valuesOf ms "local_id") with
  | none => rfl
  | some id? =>
    cases oneMore? Tree.readText none (valuesOf ms "label") with
    | none => cases id? <;> rfl
    | some label? =>
      cases id? with
      | none => rfl
      | some id => simp [hkind, Option.bind_assoc, Option.map_eq_bind]

/-! ## Shapes -/

/-- A refusal is no result. -/
theorem Json.Tree.toOption_refuse {α : Type} (expected : String) (t : Tree) :
    (t.refuse expected : Except Failure α).toOption = none := by
  rw [refuse, toOption_bind]
  cases t.found <;> rfl

/-- Exactly one value is read, if it can be. -/
theorem Json.isSome_one? {α : Type} {read : Tree → Except Failure α} {P : Tree → Prop}
    {ts : List Tree} (h : ∀ t ∈ ts, (read t).toOption.isSome ↔ P t) :
    (one? read ts).isSome ↔ Takes true P ts := by
  rcases ts with _ | ⟨t, _ | ⟨u, rest⟩⟩
  · simp [one?, Takes]
  · simp [one?, Takes, h t List.mem_cons_self]
  · simp [one?, Takes]

/-- At most one value is read, if it can be. -/
theorem Json.isSome_oneOr? {α : Type} {read : Tree → Except Failure α} {P : Tree → Prop}
    {default : α} {ts : List Tree} (h : ∀ t ∈ ts, (read t).toOption.isSome ↔ P t) :
    (oneOr? read default ts).isSome ↔ Takes false P ts := by
  rcases ts with _ | ⟨t, _ | ⟨u, rest⟩⟩
  · simp [oneOr?, Takes]
  · simp [oneOr?, Takes, h t List.mem_cons_self]
  · simp [oneOr?, Takes]

/-- A text is read from a text. -/
theorem Json.Tree.isSome_readText (ht : t.Sound depth) : t.readText.toOption.isSome ↔ t.IsText := by
  cases ht with
  | text hs => simp [readText, hs, IsText]
  | _ => simp [readText, toOption_refuse, IsText]

/-- An integer is read from an integer between the bounds. -/
theorem Json.Tree.isSome_readInteger (least greatest : Int) (expected : String) (t : Tree) :
    (t.readInteger least greatest expected).toOption.isSome ↔ t.IsInteger least greatest := by
  unfold readInteger
  split
  · split <;> simp_all [IsInteger]
  · simp_all [toOption_refuse, IsInteger]

/-- A word is read from an integer of 32 bits. -/
theorem Json.Tree.isSome_readUInt32 (t : Tree) :
    t.readUInt32.toOption.isSome ↔ t.IsInteger 0 4294967295 := by
  rw [readUInt32, toOption_map, Option.isSome_map]
  exact isSome_readInteger _ _ _ t

/-- A word that may be null is read from one of the two. -/
theorem Json.Tree.isSome_readOption (t : Tree) :
    (t.readOption readUInt32).toOption.isSome ↔ t = .null ∨ t.IsInteger 0 4294967295 := by
  cases t with
  | null => simp [readOption]
  | _ => simp [readOption, toOption_map, isSome_readUInt32]

/-- A tag is read from its name and its number. -/
theorem Tag.read_eq_ok : read t = .ok tag ↔ tag.Names t := by
  have hname : ∀ s, ofName? s = some tag ↔ tag.name = s := by
    intro s
    constructor
    · intro h
      simpa using List.find?_some h
    · rintro rfl
      exact ofName?_name tag
  unfold Names
  cases t with
  | text ps =>
    cases hps : readPieces ps with
    | error e => simp [read, Tree.found, hps, Except.map, bind, Except.bind]
    | ok s =>
      have hread : read (.text ps) = .ok tag ↔ ofName? s = some tag := by
        simp only [read, Tree.found, hps, Except.map, bind, Except.bind]
        cases ofName? s <;> simp
      rw [hread, hname]
      simp [hps, eq_comm]
  | number n =>
    cases n with
    | integer n =>
      cases n with
      | ofNat n =>
        have hread : read (.number (.integer n)) = .ok tag ↔ ofIndex? n = some tag := by
          simp only [read, Tree.found, bind, Except.bind]
          cases ofIndex? n <;> simp
        simpa [ofIndex?, Int.natCast_inj] using hread
      | negSucc n => simp [read, Tree.found, bind, Except.bind]
    | float | huge => simp [read, Tree.found, bind, Except.bind]
  | _ => simp [read, Tree.found, bind, Except.bind]

/-- A chain of two values is there if both are. -/
theorem isSome_bind_iff {α β : Type} {x : Option α} {f : α → Option β} :
    (x.bind f).isSome ↔ ∃ a, x = some a ∧ (f a).isSome := by
  cases x <;> simp

/-- A pair of values is there if both are. -/
theorem isSome_bind_map {α β γ : Type} {x : Option α} {y : Option β} (g : α → β → γ) :
    (x.bind fun a => y.map (g a)).isSome ↔ x.isSome ∧ y.isSome := by
  cases x <;> simp

/-- The kind of a tag is there if its fields hold what they should. -/
theorem Kind.isSome_shape? (hvalues : ∀ key, ∀ t ∈ values key, t.Sound depth) (tag : Tag) :
    (shape? values tag).isSome ↔
      ∀ f ∈ tag.fields, Takes f.required f.type.Holds (values f.name) := by
  have htext : ∀ name, (one? Tree.readText (values name)).isSome ↔
      Takes true Tree.IsText (values name) := fun name =>
    isSome_one? fun t ht => Tree.isSome_readText (hvalues name t ht)
  have htext' : ∀ name default, (oneOr? Tree.readText default (values name)).isSome ↔
      Takes false Tree.IsText (values name) := fun name default =>
    isSome_oneOr? fun t ht => Tree.isSome_readText (hvalues name t ht)
  have hword : ∀ name, (one? Tree.readUInt32 (values name)).isSome ↔
      Takes true (Tree.IsInteger 0 4294967295) (values name) := fun name =>
    isSome_one? fun t _ => t.isSome_readUInt32
  have hnull : ∀ name default,
      (oneOr? (Tree.readOption Tree.readUInt32) default (values name)).isSome ↔
        Takes false (fun t => t = .null ∨ t.IsInteger 0 4294967295) (values name) :=
    fun name default => isSome_oneOr? fun t _ => t.isSome_readOption
  cases tag <;>
    simp [shape?, Tag.fields, FieldType.Holds, isSome_bind_map, htext, htext', hword, hnull]

/-- The tag is there if its one value names it. -/
theorem Tag.one?_read {ts : List Tree} : one? read ts = some tag ↔ Takes true tag.Names ts := by
  rcases ts with _ | ⟨t, _ | ⟨u, rest⟩⟩
  · simp [one?, Takes]
  · simp [one?, Takes, toOption_eq_some, read_eq_ok]
  · simp [one?, Takes]

/-- A block is there if the values under the keys are those of a block. -/
theorem Block.isSome_shape? (hvalues : ∀ key, ∀ t ∈ values key, t.Sound depth) :
    (shape? values).isSome ↔ Shaped values := by
  have hid : (one? Tree.readInt32 (values "local_id")).isSome ↔
      Takes true (Tree.IsInteger (-2147483648) 2147483647) (values "local_id") := by
    refine isSome_one? fun t _ => ?_
    rw [Tree.readInt32, toOption_map, Option.isSome_map]
    exact t.isSome_readInteger _ _ _
  have hlabel : (oneOr? Tree.readText "" (values "label")).isSome ↔
      Takes false Tree.IsText (values "label") :=
    isSome_oneOr? fun t ht => Tree.isSome_readText (hvalues _ t ht)
  have hkind : ((one? Tag.read (values Tag.key)).bind (Kind.shape? values)).isSome ↔
      ∃ tag : Tag, Takes true tag.Names (values "type") ∧
        ∀ f ∈ tag.fields, Takes f.required f.type.Holds (values f.name) := by
    simp only [isSome_bind_iff, Tag.one?_read, Kind.isSome_shape? hvalues, Tag.key]
  have hshape : (shape? values).isSome ↔ (one? Tree.readInt32 (values "local_id")).isSome ∧
      (oneOr? Tree.readText "" (values "label")).isSome ∧
      ((one? Tag.read (values Tag.key)).bind (Kind.shape? values)).isSome := by
    unfold shape?
    cases one? Tree.readInt32 (values "local_id") with
    | none => simp
    | some id =>
      cases oneOr? Tree.readText "" (values "label") with
      | none => simp
      | some label => simp [isSome_bind_iff]
  rw [hshape, hid, hlabel, hkind]
  constructor
  · rintro ⟨hid, hlabel, hkind⟩
    exact ⟨hid, hlabel, hkind⟩
  · rintro ⟨hid, hlabel, hkind⟩
    exact ⟨hid, hlabel, hkind⟩

/-! ## Documents -/

/-- A kind carries the tag that it was read by. -/
theorem Kind.tag_of_shape? {k : Kind} (h : shape? values tag = some k) : k.tag = tag := by
  cases tag <;>
    simp only [shape?, Option.bind_eq_bind, Option.bind_eq_some_iff, Option.map_eq_some_iff,
      Option.some.injEq] at h
  case start | answer | timeSwitch | defaultArm =>
    subst h
    rfl
  case setVariable | dial | custom =>
    obtain ⟨_, -, _, -, rfl⟩ := h
    rfl
  all_goals
    obtain ⟨_, -, rfl⟩ := h
    rfl

/-- A block is the same where the values under its keys are the same. -/
theorem Block.shape?_of_keys {b : Block} (h : shape? values = some b)
    (hkeys : ∀ key ∈ b.kind.tag.keys, values' key = values key) : shape? values' = some b := by
  simp only [shape?, Option.bind_eq_bind, Option.bind_eq_some_iff, Option.map_eq_some_iff] at h ⊢
  obtain ⟨id, hid, label, hlabel, tag, htag, kind, hkind, rfl⟩ := h
  obtain rfl : kind.tag = tag := Kind.tag_of_shape? hkind
  have hfields : ∀ f ∈ kind.tag.fields, values' f.name = values f.name := fun f hf =>
    hkeys f.name (List.mem_append_right _ (List.mem_map_of_mem hf))
  refine ⟨id, ?_, label, ?_, kind.tag, ?_, kind, ?_, rfl⟩
  · rwa [hkeys "local_id" (by simp [Tag.keys])]
  · rwa [hkeys "label" (by simp [Tag.keys])]
  · rwa [hkeys Tag.key (by simp [Tag.keys])]
  · rwa [Kind.shape?_congr hfields]

/-- Values in any order make the same block. -/
theorem Block.shape?_perm (h : ∀ key, (values key).Perm (values' key)) :
    shape? values = shape? values' := by
  have hone : ∀ {α : Type} (read : Tree → Except Failure α) key,
      one? read (values key) = one? read (values' key) := fun read key => one?_perm (h key) read
  have honeOr : ∀ {α : Type} (read : Tree → Except Failure α) default key,
      oneOr? read default (values key) = oneOr? read default (values' key) :=
    fun read default key => oneOr?_perm (h key) read default
  have hkind : Kind.shape? values = Kind.shape? values' := by
    funext tag
    cases tag <;> simp only [Kind.shape?, hone, honeOr]
  simp only [shape?, hone, honeOr, hkind]

/-- **Block documents are accepted exactly when they are well shaped.** The text of an object is
decoded if and only if the values under its keys are those of a block, and then to the block that is
made of them. Another object with the same values under the keys of this block is decoded to it too,
whatever else it holds, and so is the same object with its members in any other order. -/
theorem Block.decode_iff_shaped {s : String} (hs : IsObject s ms)
    (hms : (Tree.object ms none).Sound 0) :
    ((∃ b, decode s = .ok b) ↔ Shaped (valuesOf ms)) ∧
    (∀ b, decode s = .ok b ↔ shape? (valuesOf ms) = some b) ∧
    (∀ s' ms', IsObject s' ms' → (Tree.object ms' none).Sound 0 → ∀ b, decode s = .ok b →
      (∀ key ∈ b.kind.tag.keys, valuesOf ms' key = valuesOf ms key) → decode s' = .ok b) ∧
    ∀ s' ms', IsObject s' ms' → ms'.Perm ms → ∀ b, decode s' = .ok b ↔ decode s = .ok b := by
  have hdecode : ∀ s ms, IsObject s ms → (Tree.object ms none).Sound 0 →
      ∀ b, decode s = .ok b ↔ shape? (valuesOf ms) = some b := by
    intro s ms hs hms b
    obtain ⟨hdepth, hmembers⟩ := hms.members
    rw [decode, hs.decode_eq, ← toOption_eq_some, read_eq_shape? hmembers hdepth]
  refine ⟨?_, hdecode s ms hs hms, ?_, ?_⟩
  · rw [← isSome_shape? hms.members.2.values, Option.isSome_iff_exists]
    exact exists_congr fun b => hdecode s ms hs hms b
  · intro s' ms' hs' hms' b hb hkeys
    rw [hdecode s ms hs hms] at hb
    exact (hdecode s' ms' hs' hms' b).2 (shape?_of_keys hb hkeys)
  · intro s' ms' hs' hperm b
    rw [hdecode s ms hs hms, hdecode s' ms' hs' (hms.perm hperm),
      shape?_perm fun key => valuesOf_perm hperm key]

end

/-- A call as a document: the tag is a number and stands behind a field of its kind, the label is
left out, and a key of other kinds is used twice. -/
def Block.dialText : String :=
  "\x7b\"timeout\": null, \"file\": 3, \"type\": 6, \"file\": [true],\n" ++
    "\"destination\": \"SIP/1\", \"local_id\": -7\x7d"

/-- The members of the call. -/
def Block.dialMembers : List Member :=
  [(Piece.ofString "timeout", .null), (Piece.ofString "file", .ofInt 3),
    (Piece.ofString "type", .ofInt 6), (Piece.ofString "file", .array [.bool true] none),
    (Piece.ofString "destination", .ofString "SIP/1"), (Piece.ofString "local_id", .ofInt (-7))]

/-- The text is that of the members, with a blank before each value and each key but the first. -/
theorem Block.isObject_dialText : IsObject dialText dialMembers := by
  have hblank : Blank [' '] := by simp [Blank, isBlank]
  have hnewline : Blank ['\n'] := by simp [Blank, isBlank]
  have hkey {bs : List Char} (hbs : Blank bs) (s : String) : WrittenKey (Piece.ofString s) _ :=
    .mk hbs (quoted_printAll s) blank_nil
  have hvalue {t : Tree} (ht : t.Plain) : t.Written _ := .blanks hblank ht.written blank_nil
  have hinteger (n : Int) (hn : Fits n) : (Tree.ofInt n).Written _ := hvalue (.integer hn)
  have hlist : (Tree.array [.bool true] none).Written _ :=
    hvalue (.array (List.forall_mem_singleton.2 (.bool true)))
  have hwritten := Tree.Written.object
    [⟨(Piece.ofString "timeout", .null), _, _⟩, ⟨(Piece.ofString "file", .ofInt 3), _, _⟩,
      ⟨(Piece.ofString "type", .ofInt 6), _, _⟩,
      ⟨(Piece.ofString "file", .array [.bool true] none), _, _⟩,
      ⟨(Piece.ofString "destination", .ofString "SIP/1"), _, _⟩,
      ⟨(Piece.ofString "local_id", .ofInt (-7)), _, _⟩] (by simp)
    (by simpa only [List.forall_mem_cons] using ⟨hkey blank_nil _, hkey hblank _, hkey hblank _,
      hkey hblank _, hkey hnewline _, hkey hblank _, List.forall_mem_nil _⟩)
    (by simpa only [List.forall_mem_cons] using ⟨hvalue .null, hinteger 3 (by simp [Fits]),
      hinteger 6 (by simp [Fits]), hlist, hvalue (.text _), hinteger (-7) (by simp [Fits]),
      List.forall_mem_nil _⟩)
  refine Tree.Written.run (Eq.mpr (congrArg _ ?_) hwritten)
  decide +kernel

/-- The call is well shaped and decoded. -/
theorem Block.dialText_shaped : IsObject dialText dialMembers ∧
    (Tree.object dialMembers none).Sound 0 ∧ Shaped (valuesOf dialMembers) ∧
    decode dialText = .ok ⟨-7, "", .dial "SIP/1" none⟩ := by
  have hs := isObject_dialText
  have hms : (Tree.object dialMembers none).Sound 0 := by
    refine .object (by decide) (by simp [dialMembers]) ?_
    have harray : (Tree.array [.bool true] none).Sound 1 :=
      .array (by decide) (by simpa using Tree.Sound.bool true)
    have htext : (Tree.ofString "SIP/1").Sound 1 := .text (readPieces_ofString _)
    simpa [dialMembers, Tree.ofInt, Tree.Sound.null, Tree.Sound.integer, harray] using htext
  have hdecode := (decode_iff_shaped hs hms).2.1 ⟨-7, "", .dial "SIP/1" none⟩
  have hb : decode dialText = .ok ⟨-7, "", .dial "SIP/1" none⟩ := hdecode.2 rfl
  exact ⟨hs, hms, (decode_iff_shaped hs hms).1.1 ⟨_, hb⟩, hb⟩

end CallFlow
