import CallFlow.Document.Inventory
import CallFlow.Proofs.RoundTrip
import CallFlow.Proofs.Shapes
import CallFlow.Proofs.Spellings

/-!
# Spellings of documents

Connections, scripts, extensions, contexts, configurations and inventories may be spelled in all the
ways in which records may, at every level of a document at once. Only blocks are objects and nothing
else, and a spelling of a block is whatever is read as the block where it stands alone
(`Block.Spelling`).

What is read alone is read inside of a document too, because depth is all that makes a difference
(`Block.understands`). For each of the records it is enough to look at its fields one by one
(`fields_match`) and to see that they do not get in each other's way (`orderless`). So every text of
every spelling is decoded to the value that it spells (`spellings_decode`).
-/

namespace CallFlow

open Json
open Json.Layout (Matches)

section
variable {depth : Nat} {t : Tree} {ms : List Member}

/-! ## Blocks -/

/-- The spellings of a block: the objects that are read as the block where they stand alone. -/
def Block.Spelling (b : Block) (t : Tree) : Prop :=
  Block.read 0 t = .ok b

/-- What is read as a text is sound. -/
theorem Json.Tree.sound_of_readText {s : String} (h : t.readText = .ok s) : t.Sound depth := by
  cases t with
  | text ps => exact .text h
  | _ => exact absurd h Tree.refuse_ne_ok

/-- What is read as an integer is sound. -/
theorem Json.Tree.sound_of_readInt32 {n : Int32} (h : t.readInt32 = .ok n) : t.Sound depth := by
  obtain ⟨n, hn, -⟩ := exists_of_map_eq_ok h
  have hinteger := (Tree.isSome_readInteger _ _ _ t).1 (by rw [hn]; rfl)
  obtain ⟨n, rfl, -⟩ := hinteger
  exact .integer n

/-- The members of a block that is read are sound. -/
theorem Block.soundMembers_of_readMembers {d d' : Draft} (hms : ∀ m ∈ ms, m.2.Whole)
    (h : readMembers depth ms d = .ok d') : SoundMembers depth ms := by
  induction ms generalizing d with
  | nil => exact nofun
  | cons m ms ih =>
    obtain ⟨k, t⟩ := m
    rw [List.forall_mem_cons] at hms
    obtain ⟨key, hkey, h⟩ := exists_of_bind_eq_ok h
    -- However the member is read, its value is sound, and the rest is read behind it.
    have hsound : t.Sound depth ∧ ∃ d, readMembers depth ms d = .ok d' := by
      split at h
      · split at h
        · cases h
        · obtain ⟨n, hn, h⟩ := exists_of_bind_eq_ok h
          exact ⟨Tree.sound_of_readInt32 hn, _, h⟩
      · split at h
        · split at h
          · cases h
          · obtain ⟨s, hs, h⟩ := exists_of_bind_eq_ok h
            exact ⟨Tree.sound_of_readText hs, _, h⟩
        · obtain ⟨_, hcheck, h⟩ := exists_of_bind_eq_ok h
          exact ⟨hms.1.sound hcheck, _, h⟩
    obtain ⟨ht, d, h⟩ := hsound
    exact List.forall_mem_cons.2 ⟨⟨⟨key, hkey⟩, ht⟩, ih hms.2 h⟩

/-- A whole value that is read as a block is a sound object. -/
theorem Block.sound_of_read {b : Block} (ht : t.Whole) (h : read depth t = .ok b) :
    ∃ ms, t = .object ms none ∧ t.Sound depth := by
  cases ht with
  | @object ms hms =>
    obtain ⟨d, hd, h⟩ := exists_of_bind_eq_ok h
    obtain ⟨_, hmembers, -⟩ := exists_of_bind_eq_ok h
    obtain ⟨hdepth, rfl⟩ := descend_eq_ok.1 hd
    have hsound := soundMembers_of_readMembers hms hmembers
    exact ⟨ms, rfl, .object hdepth (fun m hm => (hsound m hm).1) fun m hm => (hsound m hm).2⟩
  | _ => exact absurd h Tree.refuse_ne_ok

/-- A block is read wherever it stands, if it is read where it stands alone. -/
theorem Block.understands : Understands Block.read Block.Spelling := by
  intro depth b t hb hwhole hnesting
  obtain ⟨ms, rfl, hsound⟩ := sound_of_read hwhole hb
  obtain ⟨hzero, hms⟩ := hsound.members
  obtain ⟨hdepth, hms'⟩ := (hsound.moved hnesting).members
  rw [Spelling, ← toOption_eq_some, read_eq_shape? hms hzero] at hb
  rw [← toOption_eq_some, read_eq_shape? hms' hdepth, hb]

/-! ## Scripts -/

namespace Connection

/-- The fields of a connection, none of which may be left out. -/
def fieldSpellings (c : Connection) : List FieldSpelling :=
  [⟨"source_local_id", Int32Spelling c.source, False⟩,
    ⟨"target_local_id", Int32Spelling c.target, False⟩]

/-- The spellings of a connection. -/
def Spelling (c : Connection) (t : Tree) : Prop :=
  RecordSpelling c.fieldSpellings t

/-- The fields of a connection are read from their spellings, one after the other. -/
theorem fields_match (c : Connection) :
    Matches depth layout.fields c.fieldSpellings layout.blank c :=
  .required understands_int32 <| .required understands_int32 .done

/-- The fields of a connection may come in any order. -/
theorem orderless : layout.Orderless :=
  .of_pairwise (by decide) (by simp [layout, commutes_map])

/-- A connection is read from each of its spellings. -/
theorem understands : Understands layout.read Spelling := fun _ c _ h hwhole hnesting =>
  c.fields_match.read orderless h hwhole hnesting

end Connection

namespace Script

/-- The fields of a script, all of which may be left out. -/
def fieldSpellings (s : Script) : List FieldSpelling :=
  [⟨"id", Int64Spelling s.id, s.id = 0⟩,
    ⟨"name", TextSpelling s.name, s.name = ""⟩,
    ⟨"blocks", ListSpelling Block.Spelling s.blocks, s.blocks = []⟩,
    ⟨"connections", ListSpelling Connection.Spelling s.connections, s.connections = []⟩]

/-- The spellings of a script. -/
def Spelling (s : Script) (t : Tree) : Prop :=
  RecordSpelling s.fieldSpellings t

theorem fields_match (s : Script) :
    Matches depth layout.fields s.fieldSpellings layout.blank s :=
  .optional understands_int64 rfl <|
  .optional understands_text rfl <|
  .optional Block.understands.list rfl <|
  .optional Connection.understands.list rfl .done

theorem orderless : layout.Orderless :=
  .of_pairwise (by decide) (by simp [layout, commutes_map])

theorem understands : Understands layout.read Spelling := fun _ s _ h hwhole hnesting =>
  s.fields_match.read orderless h hwhole hnesting

end Script

/-! ## Contexts -/

namespace Extension

/-- The fields of an extension. The id of its script may be left out, and a script that it carries
is no field. -/
def fieldSpellings (e : Extension) : List FieldSpelling :=
  [⟨"name", TextSpelling e.name, False⟩,
    ⟨"script_id", OptionSpelling Int64Spelling e.scriptId, e.scriptId = none⟩]

/-- The spellings of an extension that carries no script. -/
def Spelling (e : Extension) (t : Tree) : Prop :=
  e.script = none ∧ RecordSpelling e.fieldSpellings t

theorem fields_match (e : Extension) :
    Matches depth layout.fields e.fieldSpellings layout.blank e.detach :=
  .required understands_text <| .optional (understands_int64.option fun _ => nofun) rfl .done

theorem orderless : layout.Orderless :=
  .of_pairwise (by decide) (by simp [layout, commutes_map])

theorem understands : Understands layout.read Spelling := by
  rintro depth e t ⟨hscript, h⟩ hwhole hnesting
  rw [e.fields_match.read orderless h hwhole hnesting, detach_of_script hscript]

end Extension

namespace Context

/-- The fields of a context. Its extensions may be left out. -/
def fieldSpellings (c : Context) : List FieldSpelling :=
  [⟨"name", TextSpelling c.name, False⟩,
    ⟨"extensions", ListSpelling Extension.Spelling c.extensions, c.extensions = []⟩]

/-- The spellings of a context. -/
def Spelling (c : Context) (t : Tree) : Prop :=
  RecordSpelling c.fieldSpellings t

theorem fields_match (c : Context) :
    Matches depth layout.fields c.fieldSpellings layout.blank c :=
  .required understands_text <| .optional Extension.understands.list rfl .done

theorem orderless : layout.Orderless :=
  .of_pairwise (by decide) (by simp [layout, commutes_map])

theorem understands : Understands layout.read Spelling := fun _ c _ h hwhole hnesting =>
  c.fields_match.read orderless h hwhole hnesting

end Context

/-! ## Configurations and inventories -/

namespace Configuration

/-- The one field of a configuration, which may be left out. -/
def fieldSpellings (c : Configuration) : List FieldSpelling :=
  [⟨"fast_agi_host", TextSpelling c.host, c.host = "127.0.0.1"⟩]

/-- The spellings of a configuration. -/
def Spelling (c : Configuration) (t : Tree) : Prop :=
  RecordSpelling c.fieldSpellings t

theorem fields_match (c : Configuration) :
    Matches depth layout.fields c.fieldSpellings layout.blank c :=
  .optional understands_text rfl .done

theorem orderless : layout.Orderless :=
  .of_pairwise (by decide) (by simp [layout])

theorem understands : Understands layout.read Spelling := fun _ c _ h hwhole hnesting =>
  c.fields_match.read orderless h hwhole hnesting

end Configuration

namespace Inventory

/-- The fields of an inventory, both of which may be left out. -/
def fieldSpellings (v : Inventory) : List FieldSpelling :=
  [⟨"scripts", ListSpelling Script.Spelling v.scripts, v.scripts = []⟩,
    ⟨"contexts", ListSpelling Context.Spelling v.contexts, v.contexts = []⟩]

/-- The spellings of an inventory. -/
def Spelling (v : Inventory) (t : Tree) : Prop :=
  RecordSpelling v.fieldSpellings t

theorem fields_match (v : Inventory) :
    Matches depth layout.fields v.fieldSpellings layout.blank v :=
  .optional Script.understands.list rfl <| .optional Context.understands.list rfl .done

theorem orderless : layout.Orderless :=
  .of_pairwise (by decide) (by simp [layout, commutes_map])

theorem understands : Understands layout.read Spelling := fun _ v _ h hwhole hnesting =>
  v.fields_match.read orderless h hwhole hnesting

end Inventory

/-! ## Documents -/

/-- **All spellings of a document are decoded to the same value**, that which they spell, if they
are nested no deeper than the limit: those of connections, scripts, extensions without scripts,
contexts, configurations and inventories. In an object a member by the name of the script that an
extension carries is ignored, whatever it holds, and in an array such a script has no place. -/
theorem spellings_decode {s : String} (hs : t.Written s.toList) (ht : t.nesting ≤ depthLimit) :
    (∀ c : Connection, c.Spelling t → Connection.decode s = .ok c) ∧
    (∀ v : Script, v.Spelling t → Script.decode s = .ok v) ∧
    (∀ e : Extension, e.Spelling t → Extension.decode s = .ok e) ∧
    (∀ c : Context, c.Spelling t → Context.decode s = .ok c) ∧
    (∀ c : Configuration, c.Spelling t → Configuration.decode s = .ok c) ∧
    (∀ v : Inventory, v.Spelling t → Inventory.decode s = .ok v) ∧
    (∀ before after k u s', t = .object (before ++ (k, u) :: after) none →
      readPieces k = .ok "script" → (Tree.object (before ++ after) none).Written s'.toList →
      Extension.decode s = Extension.decode s') ∧
    ∀ items e, t = .array items none → 2 < items.length → Extension.decode s ≠ .ok e := by
  refine ⟨?_, ?_, ?_, ?_, ?_, ?_, ?_, ?_⟩
  · exact fun c hc => Connection.understands.decode hs ht hc
  · exact fun v hv => Script.understands.decode hs ht hv
  · exact fun e he => Extension.understands.decode hs ht he
  · exact fun c hc => Context.understands.decode hs ht hc
  · exact fun c hc => Configuration.understands.decode hs ht hc
  · intro v hv
    rw [Inventory.decode, Inventory.understands.decode hs ht hv]
    rfl
  · rintro before after k u s' rfl hk hs'
    have hu : u.Whole := hs.whole.of_object (k, u) (by simp)
    have hfield : Extension.layout.field? "script" = none := rfl
    rw [Extension.decode, Extension.decode, decode_of_run hs.run, decode_of_run hs'.run]
    simp only [Layout.read, Layout.readObject_append_cons hk hfield hu.check_skip]
  · rintro items e rfl hlength
    rw [Extension.decode, decode_of_run hs.run]
    exact Layout.read_array_ne_ok hlength

end

/-- A context as an array. Its first extension is an object with two members by the name of a
script, one of them a list of a number beyond all doubles, and with a name that is escaped. The
second one is an array that ends behind the name. -/
def Context.mixedText : String :=
  "[\"in\",[\x7b\"script\":[1e999],\"name\":\"\\u0037\",\"script\":null\x7d, [\"8\"]]]"

/-- The tree of the text. -/
def Context.mixedTree : Tree :=
  .array [.ofString "in",
    .array [.object [(Piece.ofString "script", .array [.number .huge] none),
        (Piece.ofString "name", .text [.char '7']), (Piece.ofString "script", .null)] none,
      .array [.ofString "8"] none] none] none

/-- The text is one of those of the tree. -/
theorem Context.written_mixedText : mixedTree.Written mixedText.toList := by
  have hkey (s : String) : WrittenKey (Piece.ofString s) _ :=
    .mk blank_nil (quoted_printAll s) blank_nil
  have htext (s : String) : Tree.Written (.ofString s) _ := .text (quoted_printAll s)
  have hhuge : Tree.Written (.number .huge) _ :=
    .number (n := ⟨false, ['1'], [], some (false, ['9', '9', '9'])⟩)
      (.mk false (by simp [Digits]) (by decide) .absent
        (.digits (.inl rfl) .none (by simp [Digits])))
  have hname : Tree.Written (.text [.char '7']) _ :=
    .text (.mk (.cons (.unit (by decide : Piece.hexDigits? '0' '0' '3' '7' = some 55)) .nil))
  have hlist := Tree.Written.array [(_, _)] (by simp) (List.forall_mem_singleton.2 hhuge)
  have hfirst := Tree.Written.object
    [⟨(Piece.ofString "script", .array [.number .huge] none), _, _⟩,
      ⟨(Piece.ofString "name", .text [.char '7']), _, _⟩,
      ⟨(Piece.ofString "script", .null), _, _⟩] (by simp)
    (by simpa only [List.forall_mem_cons] using ⟨hkey _, hkey _, hkey _, nofun⟩)
    (by simpa only [List.forall_mem_cons] using ⟨hlist, hname, .null, nofun⟩)
  have hblank : Blank [' '] := by simp [Blank, isBlank]
  have hsecond := Tree.Written.array [(_, _)] (by simp) (List.forall_mem_singleton.2 (htext "8"))
  have hextensions := Tree.Written.array [(_, _), (_, _)] (by simp)
    (List.forall_mem_cons.2 ⟨hfirst, List.forall_mem_singleton.2
      (.blanks hblank hsecond blank_nil)⟩)
  have hcontext := Tree.Written.array [(_, _), (_, _)] (by simp)
    (List.forall_mem_cons.2 ⟨htext "in", List.forall_mem_singleton.2 hextensions⟩)
  convert hcontext using 1
  · rfl
  · decide

/-- The context is spelled by the tree, and so it is decoded from the text. -/
theorem Context.mixedText_decode :
    mixedTree.Written mixedText.toList ∧ mixedTree.nesting ≤ depthLimit ∧
    Spelling ⟨"in", [⟨"7", none, none⟩, ⟨"8", none, none⟩]⟩ mixedTree ∧
    decode mixedText = .ok ⟨"in", [⟨"7", none, none⟩, ⟨"8", none, none⟩]⟩ := by
  have hdepth : mixedTree.nesting ≤ depthLimit := by decide
  have hfirst : Extension.Spelling ⟨"7", none, none⟩
      (.object [(Piece.ofString "script", .array [.number .huge] none),
        (Piece.ofString "name", .text [.char '7']), (Piece.ofString "script", .null)] none) := by
    refine ⟨rfl, .object (by simp) (List.forall_mem_cons.2 ⟨?_, List.forall_mem_singleton.2 ?_⟩)⟩
    · exact .inl ⟨_, rfl, _, rfl, rfl⟩
    · exact .inr ⟨rfl, rfl⟩
  have hsecond : Extension.Spelling ⟨"8", none, none⟩ (.array [.ofString "8"] none) := by
    refine ⟨rfl, .array [_] [_] rfl (.cons ⟨_, rfl, readPieces_ofString "8"⟩ .nil) ?_⟩
    exact List.forall_mem_singleton.2 rfl
  have hspelling : Spelling ⟨"in", [⟨"7", none, none⟩, ⟨"8", none, none⟩]⟩ mixedTree := by
    refine .array [_, _] [] rfl ?_ nofun
    exact .cons ⟨_, rfl, readPieces_ofString "in"⟩
      (.cons ⟨_, rfl, .cons hfirst (.cons hsecond .nil)⟩ .nil)
  exact ⟨written_mixedText, hdepth, hspelling,
    (spellings_decode written_mixedText hdepth).2.2.2.1 _ hspelling⟩

end CallFlow
