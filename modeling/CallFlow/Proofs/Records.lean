import CallFlow.Json.Layout
import CallFlow.Json.Print
import CallFlow.Proofs.Assembly

/-!
# Records read back

A value that is written as a tree is read from it: texts, integers of every width, values that may
be absent, and lists. A record is read from an object whose members fill its fields in order
(`Layout.Fills.read`), and a member that is no field changes nothing
(`Layout.readObject_append_cons`). What every field of a record keeps holds of every record that is
read (`Layout.holds_of_read`).
-/

namespace CallFlow.Json

section
variable {α β ε : Type} {x : Except ε α} {b : β}

/-- A chain of two results ends well only if both do. -/
theorem exists_of_bind_eq_ok {f : α → Except ε β} (h : x >>= f = .ok b) :
    ∃ a, x = .ok a ∧ f a = .ok b := by
  cases x with
  | error e => cases h
  | ok a => exact ⟨a, rfl, h⟩

/-- A result that is there can be changed afterwards. -/
theorem map_eq_ok {a : α} (g : α → β) (h : x = .ok a) : x.map g = .ok (g a) := by
  rw [h, Except.map]

/-- A result that is changed afterwards was there before. -/
theorem exists_of_map_eq_ok {g : α → β} (h : x.map g = .ok b) : ∃ a, x = .ok a ∧ g a = b := by
  cases x with
  | error e => cases h
  | ok a =>
    cases h
    exact ⟨a, rfl, rfl⟩

/-- Every value of a list of results is the value of one of them. -/
theorem exists_of_mem_mapM {f : α → Except ε β} {xs : List α} {ys : List β}
    (h : xs.mapM f = .ok ys) (hb : b ∈ ys) : ∃ a ∈ xs, f a = .ok b := by
  induction xs generalizing ys with
  | nil =>
    cases h
    cases hb
  | cons x xs ih =>
    rw [List.mapM_cons] at h
    obtain ⟨y, hy, h⟩ := exists_of_bind_eq_ok h
    obtain ⟨zs, hzs, h⟩ := exists_of_bind_eq_ok h
    cases h
    cases hb with
    | head => exact ⟨x, List.mem_cons_self, hy⟩
    | tail _ hb =>
      obtain ⟨a, ha, hf⟩ := ih hzs hb
      exact ⟨a, List.mem_cons_of_mem _ ha, hf⟩

end

/-- A text without escapes stands for itself. -/
@[simp] theorem readPieces_ofString (s : String) : readPieces (Piece.ofString s) = .ok s := by
  rw [readPieces, Piece.ofString, Piece.join_map_char]
  exact congrArg Except.ok String.ofList_toList

/-- A value that is decoded is read from some tree. -/
theorem exists_of_decode {α : Type} {read : Nat → Tree → Except Failure α} {s : String} {a : α}
    (h : decode read s = .ok a) : ∃ t, read 0 t = .ok a := by
  obtain ⟨b, hread, h⟩ := exists_of_bind_eq_ok h
  split at h
  · cases h
  · cases h
    exact ⟨_, hread⟩

namespace Tree

section
variable {α : Type} {depth : Nat}

/-- A refusal is no value. -/
theorem refuse_ne_ok {expected : String} {t : Tree} {a : α} : t.refuse expected ≠ .ok a := by
  rw [refuse]
  intro h
  obtain ⟨_, -, h⟩ := exists_of_bind_eq_ok h
  cases h

@[simp] theorem readText_ofString (s : String) : (ofString s).readText = .ok s :=
  readPieces_ofString s

/-- An integer between the bounds is read. -/
theorem readInteger_ofInt {least greatest n : Int} (expected : String) (h : least ≤ n)
    (h' : n ≤ greatest) : (ofInt n).readInteger least greatest expected = .ok n :=
  if_pos ⟨h, h'⟩

@[simp] theorem readInt32_ofInt (n : Int32) : (ofInt n.toInt).readInt32 = .ok n := by
  have hleast := n.le_toInt
  have hgreatest := n.toInt_lt
  rw [readInt32, readInteger_ofInt _ (by omega) (by omega), Except.map, Int32.ofInt_toInt]

@[simp] theorem readInt64_ofInt (n : Int64) : (ofInt n.toInt).readInt64 = .ok n := by
  have hleast := n.le_toInt
  have hgreatest := n.toInt_lt
  rw [readInt64, readInteger_ofInt _ (by omega) (by omega), Except.map, Int64.ofInt_toInt]

@[simp] theorem readUInt32_ofInt (n : UInt32) : (ofInt n.toNat).readUInt32 = .ok n := by
  have hgreatest := n.toNat_lt
  rw [readUInt32, readInteger_ofInt _ (by omega) (by omega), Except.map, Int.toNat_natCast,
    UInt32.ofNat_toNat]

/-- A value that may be absent is read, if no value is written as null. -/
theorem readOption_ofOption {read : Tree → Except Failure α} {tree : α → Tree}
    (hread : ∀ a, read (tree a) = .ok a) (hnull : ∀ a, tree a ≠ .null) (o : Option α) :
    readOption read (ofOption tree o) = .ok o := by
  cases o with
  | none => rfl
  | some a =>
    rw [ofOption, readOption, hread, Except.map]
    exact hnull a

/-- A list is read value by value. -/
theorem readList_ofList {read : Nat → Tree → Except Failure α} {tree : α → Tree} {as : List α}
    {g : α → α} (hdepth : depth < depthLimit)
    (hread : ∀ a ∈ as, read (depth + 1) (tree a) = .ok (g a)) :
    readList read depth (ofList tree as) = .ok (as.map g) := by
  have hmap : (as.map tree).mapM (read (depth + 1)) = .ok (as.map g) := by
    rw [List.mapM_map]
    exact mapM_of_ok hread
  simp only [readList, ofList, descend, if_pos hdepth, bind, Except.bind, hmap, checkClose]

end

end Tree

namespace Layout

section
variable {σ : Type} {l : Layout σ} {depth : Nat} {v w : σ}

/-- A field is found by its name, if none before it has that name. -/
theorem field?_of_fields {f : FieldReader σ} {before after : List (FieldReader σ)}
    (hl : l.fields = before ++ f :: after) (hnew : f.name ∉ before.map (·.name)) :
    l.field? f.name = some f := by
  refine List.find?_eq_some_iff_append.2 ⟨decide_eq_true rfl, before, after, hl, ?_⟩
  intro g hg
  have hne : g.name ≠ f.name := fun h => hnew (h ▸ List.mem_map_of_mem hg)
  simpa using hne

/-- Reading values into fields, one after the other, makes one record of another. -/
inductive Fills (depth : Nat) : List (FieldReader σ) → List (String × Tree) → σ → σ → Prop
  | done {v : σ} : Fills depth [] [] v v
  | next {f : FieldReader σ} {fs : List (FieldReader σ)} {t : Tree} {rest : List (String × Tree)}
      {update : σ → σ} {v w : σ} (hread : f.read depth t = .ok update)
      (hrest : Fills depth fs rest (update v) w) : Fills depth (f :: fs) ((f.name, t) :: rest) v w

/-- Members that fill the fields behind those that are read are read one by one. -/
theorem Fills.readMembers {fs : List (FieldReader σ)} {ms : List (String × Tree)}
    (h : Fills depth fs ms v w) (hnames : (l.fields.map (·.name)).Nodup)
    (before : List (FieldReader σ)) (hl : l.fields = before ++ fs) :
    l.readMembers depth (ms.map fun f => (Piece.ofString f.1, f.2))
        (before.map (·.name)).reverse v =
      .ok ((l.fields.map (·.name)).reverse, w) := by
  -- The names that are seen are those of the fields before the ones that are left.
  induction h generalizing before with
  | done =>
    rw [hl, List.append_nil]
    rfl
  | @next f fs t rest update v w hread _ ih =>
    have hnew : f.name ∉ before.map (·.name) := by
      rw [hl, List.map_append, List.nodup_append] at hnames
      exact fun hf => hnames.2.2 _ hf _ List.mem_cons_self rfl
    have hf : l.field? f.name = some f := field?_of_fields hl hnew
    have hrest := ih (before ++ [f]) (by rw [hl, List.append_assoc, List.singleton_append])
    rw [List.map_append, List.reverse_append] at hrest
    simp only [List.map_cons, Layout.readMembers, readPieces_ofString, bind, Except.bind, hf,
      List.mem_reverse, hnew, if_false, hread]
    exact hrest

/-- No field is missing where all are seen. -/
theorem checkSeen_of_subset {seen : List String} (h : ∀ f ∈ l.fields, f.name ∈ seen) :
    l.checkSeen seen = .ok () := by
  have hnone : l.fields.find? (fun f => f.required && f.name ∉ seen) = none := by
    rw [List.find?_eq_none]
    intro f hf
    simp [h f hf]
  rw [checkSeen, hnone]

/-- A record is read from members that fill its fields. -/
theorem Fills.readObject {ms : List (String × Tree)} (h : Fills depth l.fields ms l.blank v)
    (hnames : (l.fields.map (·.name)).Nodup) :
    l.readObject depth (ms.map fun f => (Piece.ofString f.1, f.2)) none = .ok v := by
  have hmembers := h.readMembers hnames [] rfl
  have hseen : l.checkSeen (l.fields.map (·.name)).reverse = .ok () :=
    checkSeen_of_subset fun f hf => List.mem_reverse.2 (List.mem_map_of_mem hf)
  rw [List.map_nil, List.reverse_nil] at hmembers
  simp only [Layout.readObject, hmembers, bind, Except.bind, checkClose, hseen]

/-- A record is read from an object whose members fill its fields. -/
theorem Fills.read {ms : List (String × Tree)} (h : Fills (depth + 1) l.fields ms l.blank v)
    (hnames : (l.fields.map (·.name)).Nodup) (hdepth : depth < depthLimit) :
    l.read depth (.ofFields ms) = .ok v := by
  have hobject := h.readObject hnames
  simp only [Layout.read, Tree.ofFields, descend, if_pos hdepth, bind, Except.bind, hobject]

section
variable {before after : List Member} {k : List Piece} {key : String} {t : Tree}

/-- A member with a key of no field is skipped wherever it stands. -/
theorem readMembers_append_cons (hkey : readPieces k = .ok key) (hfield : l.field? key = none)
    (ht : t.check .skip depth = .ok ()) (seen : List String) (v : σ) :
    l.readMembers depth (before ++ (k, t) :: after) seen v =
      l.readMembers depth (before ++ after) seen v := by
  induction before generalizing seen v with
  | nil => simp only [List.nil_append, Layout.readMembers, hkey, hfield, ht, bind, Except.bind]
  | cons m before ih => simp only [List.cons_append, Layout.readMembers, ih]

/-- A member with a key of no field makes no difference to a record. -/
theorem readObject_append_cons (hkey : readPieces k = .ok key) (hfield : l.field? key = none)
    (ht : t.check .skip depth = .ok ()) :
    l.readObject depth (before ++ (k, t) :: after) none =
      l.readObject depth (before ++ after) none := by
  rw [readObject, readMembers_append_cons hkey hfield ht, readObject]

end

end

end Layout

/-! ## What every record has -/

/-- Reading the field keeps a property of the record. -/
def FieldReader.Keeps {σ : Type} (f : FieldReader σ) (P : σ → Prop) : Prop :=
  ∀ depth t update v, f.read depth t = .ok update → P v → P (update v)

namespace Layout

section
variable {σ : Type} {l : Layout σ} {depth : Nat} {P : σ → Prop} {v w : σ}

/-- Reading members keeps what every field keeps. -/
theorem holds_of_readMembers (hfields : ∀ f ∈ l.fields, f.Keeps P) {ms : List Member}
    {seen seen' : List String} (hv : P v) (h : l.readMembers depth ms seen v = .ok (seen', w)) :
    P w := by
  induction ms generalizing seen v with
  | nil =>
    cases h
    exact hv
  | cons m ms ih =>
    obtain ⟨key, -, h⟩ := exists_of_bind_eq_ok h
    cases hf : l.field? key with
    | none =>
      rw [hf] at h
      obtain ⟨_, -, h⟩ := exists_of_bind_eq_ok h
      exact ih hv h
    | some f =>
      simp only [hf] at h
      split at h
      · cases h
      · obtain ⟨update, hread, h⟩ := exists_of_bind_eq_ok h
        exact ih (hfields f (List.mem_of_find?_eq_some hf) _ _ _ _ hread hv) h

/-- Reading the values of an array keeps what every field keeps. -/
theorem holds_of_readItems {close : Option Break} {fs : List (FieldReader σ)}
    (hfields : ∀ f ∈ fs, f.Keeps P) {ts : List Tree} {taken : Nat} (hv : P v)
    (h : l.readItems depth close fs ts taken v = .ok w) : P w := by
  induction fs generalizing ts taken v with
  | nil =>
    cases ts with
    | nil =>
      obtain ⟨_, -, h⟩ := exists_of_bind_eq_ok h
      cases h
      exact hv
    | cons t ts => cases h
  | cons f fs ih =>
    rw [List.forall_mem_cons] at hfields
    cases ts with
    | nil =>
      obtain ⟨_, -, h⟩ := exists_of_bind_eq_ok h
      split at h
      · cases h
      · exact ih hfields.2 hv h
    | cons t ts =>
      obtain ⟨update, hread, h⟩ := exists_of_bind_eq_ok h
      exact ih hfields.2 (hfields.1 _ _ _ _ hread hv) h

/-- What holds of the blank record and is kept by every field holds of every record that is read. -/
theorem holds_of_read (hblank : P l.blank) (hfields : ∀ f ∈ l.fields, f.Keeps P) {t : Tree}
    (h : l.read depth t = .ok v) : P v := by
  cases t with
  | object ms close =>
    obtain ⟨depth, -, h⟩ := exists_of_bind_eq_ok h
    obtain ⟨⟨seen, w⟩, hmembers, h⟩ := exists_of_bind_eq_ok h
    obtain ⟨_, -, h⟩ := exists_of_bind_eq_ok h
    obtain ⟨_, -, h⟩ := exists_of_bind_eq_ok h
    cases h
    exact holds_of_readMembers hfields hblank hmembers
  | array ts close =>
    obtain ⟨depth, -, h⟩ := exists_of_bind_eq_ok h
    exact holds_of_readItems hfields hblank h
  | _ => exact absurd h Tree.refuse_ne_ok

end

end Layout

/-- What holds of every value that is read holds of every value of a list. -/
theorem Tree.holds_of_readList {α : Type} {read : Nat → Tree → Except Failure α} {P : α → Prop}
    (hread : ∀ depth t a, read depth t = .ok a → P a) {depth : Nat} {t : Tree} {as : List α}
    (h : t.readList read depth = .ok as) : ∀ a ∈ as, P a := by
  cases t with
  | array items close =>
    obtain ⟨depth, -, h⟩ := exists_of_bind_eq_ok h
    obtain ⟨values, hvalues, h⟩ := exists_of_bind_eq_ok h
    obtain ⟨_, -, h⟩ := exists_of_bind_eq_ok h
    cases h
    intro a ha
    obtain ⟨u, -, hu⟩ := exists_of_mem_mapM hvalues ha
    exact hread depth u a hu
  | _ => exact absurd h refuse_ne_ok

end CallFlow.Json
