import CallFlow.Document.Configuration
import CallFlow.Document.Context
import CallFlow.Document.Script
import CallFlow.Proofs.Records
import CallFlow.Proofs.Trees

/-!
# Documents read back

Blocks, connections, scripts, extensions, contexts and configurations are written as trees without
breaks (`plain_tree`) and are read back from them (`read_tree`). In a block the id, the label, the
tag and the fields of the kind share one object. The fields are therefore read from members that
hold the tag too (`Kind.readFields_members`), and this goes well because no kind has a field by the
name of another member (`Kind.key_fields`). An extension comes back without the script that it
carries, and no extension that is read carries one (`Extension.script_of_read`). So decoding undoes
encoding (`documents_read_back`).
-/

namespace CallFlow

open Json (Tree Member Layout Failure map_eq_ok readPieces_ofString)
open Json.Layout (Fills)
open Json.Tree (Plain)

section
variable {depth : Nat}

/-! ## Kinds -/

namespace Kind

/-- The members of a block that come of its kind: the tag, then the fields. -/
def members (k : Kind) : List Member :=
  ((Tag.key, .ofString k.tag.name) :: k.fields).map fun f => (Json.Piece.ofString f.1, f.2)

/-- No field of a kind has the key of another member of a block. -/
theorem key_fields (k : Kind) :
    ∀ f ∈ k.fields, f.1 ≠ "local_id" ∧ f.1 ≠ "label" ∧ f.1 ≠ Tag.key := by
  cases k <;> simp [fields, Tag.key]

/-- No field of a kind is nested. -/
theorem check_fields (k : Kind) : ∀ f ∈ k.fields, f.2.check .read depth = .ok () := by
  have htext : ∀ s, (Tree.ofString s).check .read depth = .ok () := fun s =>
    map_eq_ok _ (readPieces_ofString s)
  have hinteger : ∀ n, (Tree.ofInt n).check .read depth = .ok () := fun n => rfl
  have hoption : ∀ timeout : Option UInt32,
      (Tree.ofOption (fun n => .ofInt n.toNat) timeout).check .read depth = .ok () := by
    intro timeout
    cases timeout with
    | none => rfl
    | some n => exact hinteger _
  cases k <;> simp [fields, htext, hinteger, hoption]

/-- Every field of a kind is plain. -/
theorem plain_fields (k : Kind) : ∀ f ∈ k.fields, f.2.Plain := by
  cases k <;> simp [fields, Plain.text, Plain.uint32, Plain.option]

/-- A record that the fields of a kind fill is read from all its members. -/
theorem readObject_members {σ : Type} (l : Layout σ) {v : σ} (k : Kind)
    (hkey : l.field? Tag.key = none) (hnames : (l.fields.map (·.name)).Nodup)
    (h : Fills depth l.fields k.fields l.blank v) : l.readObject depth k.members none = .ok v := by
  rw [members, List.map_cons, ← List.nil_append (_ :: _),
    Layout.readObject_append_cons (readPieces_ofString _) hkey rfl, List.nil_append]
  exact h.readObject hnames

/-- A kind without fields is read back. -/
theorem readObject_unitLayout {k : Kind} (hk : k.fields = []) :
    (unitLayout k.tag).readObject depth k.members none = .ok () := by
  refine readObject_members _ k rfl List.nodup_nil ?_
  rw [hk]
  exact .done

/-- A kind whose only field is a text is read back. -/
theorem readObject_textLayout {k : Kind} {name s : String} (hk : k.fields = [(name, .ofString s)]) :
    (textLayout k.tag name).readObject depth k.members none = .ok s := by
  have hname : name ≠ Tag.key := (key_fields k (name, .ofString s) (by simp [hk])).2.2
  refine readObject_members _ k (by simp [Layout.field?, textLayout, textField, hname])
    (List.pairwise_singleton _ _) ?_
  rw [hk]
  exact .next (map_eq_ok _ (Tree.readText_ofString s)) .done

/-- The fields of a kind are read back. -/
theorem readFields_members (k : Kind) : readFields depth k.members k.tag = .ok k := by
  have hunit (hk : k.fields = []) : (unitLayout k.tag).readObject depth k.members none = .ok () :=
    readObject_unitLayout hk
  -- Kinds of one layout share a case; each of the others fills its own fields in order.
  cases k with
  | start | answer | timeSwitch | defaultArm => exact map_eq_ok (fun _ => _) (hunit rfl)
  | playback | background | queue | switch | agiSwitch | caseArm =>
    exact map_eq_ok _ (readObject_textLayout rfl)
  | wait seconds =>
    have hfills : Fills depth waitLayout.fields (wait seconds).fields 0 seconds :=
      .next (map_eq_ok _ (Tree.readUInt32_ofInt seconds)) .done
    exact map_eq_ok _ (readObject_members waitLayout _ rfl (by decide) hfills)
  | setVariable name value =>
    have hfills : Fills depth setVariableLayout.fields (setVariable name value).fields ("", "")
        (name, value) :=
      .next (map_eq_ok _ (Tree.readText_ofString name))
        (.next (map_eq_ok _ (Tree.readText_ofString value)) .done)
    exact map_eq_ok _ (readObject_members setVariableLayout _ rfl (by decide) hfills)
  | dial destination timeout =>
    have htimeout := Tree.readOption_ofOption Tree.readUInt32_ofInt (fun _ => nofun) timeout
    have hfills : Fills depth dialLayout.fields (dial destination timeout).fields ("", none)
        (destination, timeout) :=
      .next (map_eq_ok _ (Tree.readText_ofString destination))
        (.next (map_eq_ok _ htimeout) .done)
    exact map_eq_ok _ (readObject_members dialLayout _ rfl (by decide) hfills)
  | custom application arguments =>
    have hfills : Fills depth customLayout.fields (custom application arguments).fields ("", "")
        (application, arguments) :=
      .next (map_eq_ok _ (Tree.readText_ofString application))
        (.next (map_eq_ok _ (Tree.readText_ofString arguments)) .done)
    exact map_eq_ok _ (readObject_members customLayout _ rfl (by decide) hfills)

end Kind

namespace Tag

/-- A tag is read back from its name. -/
theorem read_ofString (t : Tag) : read (.ofString t.name) = .ok t := by
  simp only [read, Tree.ofString, Tree.found, readPieces_ofString, Except.map, bind,
    Except.bind, ofName?_name]

/-- Members with other keys hold no tag. -/
theorem readMembers_of_ne {fs : List (String × Tree)} (hfs : ∀ f ∈ fs, f.1 ≠ key)
    (tag? : Option Tag) :
    readMembers (fs.map fun f => (Json.Piece.ofString f.1, f.2)) tag? = .ok tag? := by
  induction fs with
  | nil => rfl
  | cons f fs ih =>
    rw [List.forall_mem_cons] at hfs
    simp only [List.map_cons, readMembers, readPieces_ofString, bind, Except.bind,
      if_neg hfs.1, ih hfs.2]

end Tag

/-- A kind is read back from its members. -/
theorem Kind.readMembers_members (k : Kind) : readMembers depth k.members = .ok k := by
  have htag : Tag.readMembers k.members none = .ok (some k.tag) := by
    have hfields := Tag.readMembers_of_ne (fun f hf => (key_fields k f hf).2.2) (some k.tag)
    simp only [members, List.map_cons, Tag.readMembers, readPieces_ofString, bind, Except.bind,
      if_true, Tag.read_ofString, hfields]
  simp only [readMembers, htag, bind, Except.bind, readFields_members]

/-! ## Blocks -/

namespace Block

/-- Members other than the id and the label are kept, the last one first. -/
theorem readMembers_of_ne {fs : List (String × Tree)}
    (hfs : ∀ f ∈ fs, f.1 ≠ "local_id" ∧ f.1 ≠ "label" ∧ f.2.check .read depth = .ok ())
    (d : Draft) :
    let members := fs.map fun f => (Json.Piece.ofString f.1, f.2)
    readMembers depth members d = .ok { d with kept := members.reverse ++ d.kept } := by
  induction fs generalizing d with
  | nil => rfl
  | cons f fs ih =>
    rw [List.forall_mem_cons] at hfs
    obtain ⟨⟨hid, hlabel, hcheck⟩, hfs⟩ := hfs
    simp only [List.map_cons, readMembers, readPieces_ofString, bind, Except.bind, if_neg hid,
      if_neg hlabel, hcheck, ih hfs, List.reverse_cons, List.append_assoc, List.singleton_append]

/-- A block is read back from its tree. -/
theorem read_tree (b : Block) (hdepth : depth < Json.depthLimit) : read depth b.tree = .ok b := by
  have hkept (d : Draft) : readMembers (depth + 1) b.kind.members d =
      .ok { d with kept := b.kind.members.reverse ++ d.kept } := by
    have hkey : Tag.key ≠ "local_id" ∧ Tag.key ≠ "label" := by decide
    refine readMembers_of_ne (List.forall_mem_cons.2 ⟨?_, fun f hf => ?_⟩) d
    · exact ⟨hkey.1, hkey.2, map_eq_ok _ (readPieces_ofString _)⟩
    · obtain ⟨hid, hlabel, -⟩ := b.kind.key_fields f hf
      exact ⟨hid, hlabel, b.kind.check_fields f hf⟩
  -- The id and the label come first and are read; the members of the kind are kept in reverse.
  have htree : b.tree = .object ((Json.Piece.ofString "local_id", .ofInt b.id.toInt) ::
      (Json.Piece.ofString "label", .ofString b.label) :: b.kind.members) none := rfl
  have hdraft : readMembers (depth + 1) ((Json.Piece.ofString "local_id", .ofInt b.id.toInt) ::
      (Json.Piece.ofString "label", .ofString b.label) :: b.kind.members) {} =
      .ok ⟨some b.id, some b.label, b.kind.members.reverse⟩ := by
    simp [readMembers, hkept, bind, Except.bind]
  rw [htree]
  simp only [read, Json.descend, if_pos hdepth, hdraft, Json.checkClose, ofDraft,
    List.reverse_reverse, Kind.readMembers_members, bind, Except.bind, Option.getD_some]

/-- The tree of a block is plain. -/
theorem plain_tree (b : Block) : b.tree.Plain := by
  refine .record (List.forall_mem_append.2 ⟨?_, b.kind.plain_fields⟩)
  simp [Plain.int32, Plain.text]

end Block

/-! ## Records -/

namespace Connection

/-- A connection is read back from its tree. -/
theorem read_tree (c : Connection) (hdepth : depth < Json.depthLimit) :
    layout.read depth c.tree = .ok c := by
  refine Fills.read (l := layout) ?_ (by decide) hdepth
  exact .next (map_eq_ok _ (Tree.readInt32_ofInt c.source))
    (.next (map_eq_ok _ (Tree.readInt32_ofInt c.target)) .done)

/-- The tree of a connection is plain. -/
theorem plain_tree (c : Connection) : c.tree.Plain :=
  .record (by simp [Plain.int32])

end Connection

namespace Script

/-- A script is read back from its tree. -/
theorem read_tree (s : Script) : layout.read 0 s.tree = .ok s := by
  have hblocks : (Tree.ofList Block.tree s.blocks).readList Block.read 1 =
      .ok (s.blocks.map fun b => b) :=
    Tree.readList_ofList (by decide) fun b _ => b.read_tree (by decide)
  have hconnections :
      (Tree.ofList Connection.tree s.connections).readList Connection.layout.read 1 =
        .ok (s.connections.map fun c => c) :=
    Tree.readList_ofList (by decide) fun c _ => c.read_tree (by decide)
  rw [List.map_id'] at hblocks hconnections
  refine Fills.read (l := layout) ?_ (by decide) (by decide)
  exact .next (map_eq_ok _ (Tree.readInt64_ofInt s.id))
    (.next (map_eq_ok _ (Tree.readText_ofString s.name))
      (.next (map_eq_ok _ hblocks) (.next (map_eq_ok _ hconnections) .done)))

/-- The tree of a script is plain. -/
theorem plain_tree (s : Script) : s.tree.Plain :=
  .record (by simp [Plain.int64, Plain.text, Plain.list, Block.plain_tree, Connection.plain_tree])

end Script

namespace Extension

/-- An extension is read back from its tree, without the script that it carries. -/
theorem read_tree (e : Extension) (hdepth : depth < Json.depthLimit) :
    layout.read depth e.tree = .ok e.detach := by
  have hscript := Tree.readOption_ofOption Tree.readInt64_ofInt (fun _ => nofun) e.scriptId
  refine Fills.read (l := layout) ?_ (by decide) hdepth
  exact .next (map_eq_ok _ (Tree.readText_ofString e.name))
    (.next (map_eq_ok _ hscript) .done)

/-- The tree of an extension is plain. -/
theorem plain_tree (e : Extension) : e.tree.Plain :=
  .record (by simp [Plain.text, Plain.option, Plain.int64])

/-- An extension without a script has none to lose. -/
theorem detach_of_script {e : Extension} (h : e.script = none) : e.detach = e := by
  rw [detach, ← h]

/-- An extension that is read carries no script. -/
theorem script_of_read {t : Tree} {e : Extension} (h : layout.read depth t = .ok e) :
    e.script = none := by
  refine Layout.holds_of_read (P := fun e => e.script = none) rfl ?_ h
  refine List.forall_mem_cons.2 ⟨?_, List.forall_mem_singleton.2 ?_⟩
  · intro depth t update e hread he
    obtain ⟨name, -, rfl⟩ := Json.exists_of_map_eq_ok hread
    exact he
  · intro depth t update e hread he
    obtain ⟨scriptId, -, rfl⟩ := Json.exists_of_map_eq_ok hread
    exact he

end Extension

namespace Context

/-- A context is read back from its tree, without the scripts that its extensions carry. -/
theorem read_tree (c : Context) : layout.read 0 c.tree = .ok c.detach := by
  have hextensions : (Tree.ofList Extension.tree c.extensions).readList Extension.layout.read 1 =
      .ok (c.extensions.map Extension.detach) :=
    Tree.readList_ofList (by decide) fun e _ => e.read_tree (by decide)
  refine Fills.read (l := layout) ?_ (by decide) (by decide)
  exact .next (map_eq_ok _ (Tree.readText_ofString c.name))
    (.next (map_eq_ok _ hextensions) .done)

/-- The tree of a context is plain. -/
theorem plain_tree (c : Context) : c.tree.Plain :=
  .record (by simp [Plain.text, Plain.list, Extension.plain_tree])

/-- A context whose extensions have no scripts has none to lose. -/
theorem detach_of_script {c : Context} (h : ∀ e ∈ c.extensions, e.script = none) :
    c.detach = c := by
  have hextensions : c.extensions.map Extension.detach = c.extensions.map fun e => e :=
    List.map_congr_left fun e he => Extension.detach_of_script (h e he)
  rw [detach, hextensions, List.map_id']

/-- The extensions of a context that is read carry no scripts. -/
theorem script_of_read {t : Tree} {c : Context} (h : layout.read depth t = .ok c) :
    ∀ e ∈ c.extensions, e.script = none := by
  refine Layout.holds_of_read (P := fun c => ∀ e ∈ c.extensions, e.script = none) nofun ?_ h
  refine List.forall_mem_cons.2 ⟨?_, List.forall_mem_singleton.2 ?_⟩
  · intro depth t update c hread hc
    obtain ⟨name, -, rfl⟩ := Json.exists_of_map_eq_ok hread
    exact hc
  · intro depth t update c hread _
    obtain ⟨extensions, hextensions, rfl⟩ := Json.exists_of_map_eq_ok hread
    exact Tree.holds_of_readList (fun _ _ _ he => Extension.script_of_read he) hextensions

end Context

namespace Configuration

/-- A configuration is read back from its tree. -/
theorem read_tree (c : Configuration) : layout.read 0 c.tree = .ok c := by
  refine Fills.read (l := layout) ?_ (by decide) (by decide)
  exact .next (map_eq_ok _ (Tree.readText_ofString c.host)) .done

/-- The tree of a configuration is plain. -/
theorem plain_tree (c : Configuration) : c.tree.Plain :=
  .record (by simp [Plain.text])

end Configuration

end

/-! ## Documents -/

/-- Reading undoes writing, up to what `kept` leaves of a value, and what is read is all written
again. -/
structure ReadsBack {α : Type} (decode : String → Except Failure α) (encode : α → String)
    (kept : α → α) : Prop where
  /-- A value that is written is read, as far as it is kept. -/
  of_value : ∀ a, decode (encode a) = .ok (kept a)
  /-- A value that is read from any text is read from its own document too. -/
  of_text : ∀ s a, decode s = .ok a → decode (encode a) = .ok a

/-- Documents read back if their trees are plain and are read, and what is read is kept. -/
theorem readsBack_of_tree {α : Type} {read : Nat → Tree → Except Failure α} {tree : α → Tree}
    {kept : α → α} (hplain : ∀ a, (tree a).Plain) (hread : ∀ a, read 0 (tree a) = .ok (kept a))
    (hkept : ∀ t a, read 0 t = .ok a → kept a = a) :
    ReadsBack (Json.decode read) (fun a => (tree a).toText) kept := by
  have hvalue : ∀ a, Json.decode read (tree a).toText = .ok (kept a) := fun a => by
    rw [(hplain a).decode_toText, hread]
  refine ⟨hvalue, fun s a h => ?_⟩
  obtain ⟨t, ht⟩ := Json.exists_of_decode h
  rw [hvalue, hkept t a ht]

/-- **Decoding undoes encoding.** Every block, connection, script, extension, context and
configuration is read back from its document, only that an extension comes back without the script
that it carries. A value that is read from any document, however that is written, is read again from
the document that is written of it. -/
theorem documents_read_back :
    ReadsBack Block.decode Block.encode id ∧
    ReadsBack Connection.decode Connection.encode id ∧
    ReadsBack Script.decode Script.encode id ∧
    ReadsBack Extension.decode Extension.encode Extension.detach ∧
    ReadsBack Context.decode Context.encode Context.detach ∧
    ReadsBack Configuration.decode Configuration.encode id := by
  refine ⟨?_, ?_, ?_, ?_, ?_, ?_⟩
  · exact readsBack_of_tree Block.plain_tree (fun b => b.read_tree (by decide)) fun _ _ _ => rfl
  · exact readsBack_of_tree Connection.plain_tree (fun c => c.read_tree (by decide))
      fun _ _ _ => rfl
  · exact readsBack_of_tree Script.plain_tree Script.read_tree fun _ _ _ => rfl
  · exact readsBack_of_tree Extension.plain_tree (fun e => e.read_tree (by decide)) fun _ _ h =>
      Extension.detach_of_script (Extension.script_of_read h)
  · exact readsBack_of_tree Context.plain_tree Context.read_tree fun _ _ h =>
      Context.detach_of_script (Context.script_of_read h)
  · exact readsBack_of_tree Configuration.plain_tree Configuration.read_tree fun _ _ _ => rfl

/-- A menu with ids below zero, blocks of several kinds, and a name that is written with escapes. -/
def Script.greeting : Script where
  id := -7
  name := "say \"hi\"\n\\é\x01"
  blocks := [⟨-1, "in", .start⟩, ⟨2, "", .dial "SIP/1" none⟩,
    ⟨-2147483648, "menu", .switch "$\x7bX\x7d"⟩, ⟨5, "one\t", .caseArm "1"⟩, ⟨6, "no", .defaultArm⟩]
  connections := [⟨-1, 2⟩, ⟨2, -2147483648⟩]

/-- The menu is read from its document with blanks around it, and so it is read from the document
that is written of it. -/
theorem Script.greeting_reads_back :
    decode ("\n " ++ greeting.encode ++ " ") = .ok greeting ∧
    decode greeting.encode = .ok greeting := by
  have hfront : Json.Blank "\n ".toList := by simp [Json.Blank, Json.isBlank]
  have hback : Json.Blank " ".toList := by simp [Json.Blank, Json.isBlank]
  have hread (s : Script) : decode ("\n " ++ s.encode ++ " ") = .ok s := by
    have hchars : s.encode.toList = s.tree.print := String.toList_ofList
    have hwritten : s.tree.Written ("\n " ++ s.encode ++ " ").toList := by
      rw [String.toList_append, String.toList_append, List.append_assoc, hchars]
      exact .blanks hfront s.plain_tree.written hback
    rw [decode, Json.decode_of_run hwritten.run, s.read_tree]
  exact ⟨hread greeting, documents_read_back.2.2.1.of_text _ _ (hread greeting)⟩

end CallFlow
