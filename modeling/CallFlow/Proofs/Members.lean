import CallFlow.Proofs.Records
import CallFlow.Proofs.Trees
import Mathlib.Data.List.Pairwise

/-!
# Members in any order

An object is a list of members, but a record is read from it by keys. What a record comes to depends
on the values that stand under each of its keys (`valuesOf`) and on nothing else: a field takes the
one value under its name, or its default if there is none and it has one (`FieldReader.supply?`).
For a layout whose fields do not get in each other's way (`Layout.Orderless`), reading the members
one by one is the same as supplying the fields one by one (`Layout.readObject_eq_supplyAll?`), in
whatever order the members come and whatever others stand between them.

This is so for objects of values that are `Whole`, in which nothing breaks off. A value that is kept
and not only skipped has to be `Sound`: every text in it stands for characters, and it keeps within
the limits on depth and numbers.
-/

namespace CallFlow.Json

/-- A value that is whole and within the limits: its arrays and objects are closed and nested no
deeper than they may be, its texts hold no lone half of a surrogate pair, and its numbers are not
huge. -/
inductive Tree.Sound : Nat → Tree → Prop
  | null {depth : Nat} : Sound depth .null
  | bool {depth : Nat} (b : Bool) : Sound depth (.bool b)
  | integer {depth : Nat} (n : Int) : Sound depth (.number (.integer n))
  | float {depth : Nat} : Sound depth (.number .float)
  | text {depth : Nat} {ps : List Piece} {s : String} (h : readPieces ps = .ok s) :
    Sound depth (.text ps)
  | array {depth : Nat} {items : List Tree} (hdepth : depth < depthLimit)
    (hitems : ∀ t ∈ items, Sound (depth + 1) t) : Sound depth (.array items none)
  | object {depth : Nat} {members : List Member} (hdepth : depth < depthLimit)
    (hkeys : ∀ m ∈ members, ∃ s, readPieces m.1 = .ok s)
    (hvalues : ∀ m ∈ members, Sound (depth + 1) m.2) : Sound depth (.object members none)

/-- A value that is whole, within the limits or not. -/
inductive Tree.Whole : Tree → Prop
  | null : Whole .null
  | bool (b : Bool) : Whole (.bool b)
  | number (n : Number) : Whole (.number n)
  | text (ps : List Piece) : Whole (.text ps)
  | array {items : List Tree} (h : ∀ t ∈ items, Whole t) : Whole (.array items none)
  | object {members : List Member} (h : ∀ m ∈ members, Whole m.2) : Whole (.object members none)

/-- The keys of members are texts and their values are whole. -/
def WholeMembers (ms : List Member) : Prop :=
  ∀ m ∈ ms, (∃ s, readPieces m.1 = .ok s) ∧ m.2.Whole

/-- The keys of members are texts and their values are sound. -/
def SoundMembers (depth : Nat) (ms : List Member) : Prop :=
  ∀ m ∈ ms, (∃ s, readPieces m.1 = .ok s) ∧ m.2.Sound depth

/-- The text is that of an object with these members. -/
def IsObject (s : String) (ms : List Member) : Prop :=
  Builder.run (lex s.toList) = .complete (.object ms none) false

/-- The values that stand under a key, in their order. -/
def valuesOf (ms : List Member) (key : String) : List Tree :=
  ms.filterMap fun m => if (readPieces m.1).toOption = some key then some m.2 else none

section
variable {α : Type}

/-- What is read where exactly one value stands. -/
def one? (read : Tree → Except Failure α) : List Tree → Option α
  | [t] => (read t).toOption
  | _ => none

/-- What is read where at most one value stands. -/
def oneOr? (read : Tree → Except Failure α) (default : α) : List Tree → Option α
  | [] => some default
  | [t] => (read t).toOption
  | _ => none

/-- What is read, where it may have been read before. -/
def oneMore? (read : Tree → Except Failure α) : Option α → List Tree → Option (Option α)
  | none, ts => oneOr? (fun t => (read t).map some) none ts
  | some a, ts => if ts.isEmpty then some (some a) else none

end

/-- What the values under the name of a field make of a record. Nothing may stand under the names
that are `seen` already. -/
def FieldReader.supply? {σ : Type} (f : FieldReader σ) (depth : Nat) (seen : List String)
    (ts : List Tree) : Option (σ → σ) :=
  if f.name ∈ seen then if ts.isEmpty then some id else none
  else if f.required then one? (f.read depth) ts
  else oneOr? (f.read depth) id ts

/-- What the values under the names of fields make of a record. -/
def supplyAll? {σ : Type} (depth : Nat) (values : String → List Tree) (seen : List String) :
    List (FieldReader σ) → σ → Option σ
  | [], v => some v
  | f :: fs, v =>
    (f.supply? depth seen (values f.name)).bind fun update =>
      supplyAll? depth values seen fs (update v)

/-- What two fields do to a record can be done in any order. -/
def FieldReader.Commutes {σ : Type} (f g : FieldReader σ) : Prop :=
  ∀ depth t u t' u', f.read depth t = .ok u → g.read depth t' = .ok u' → ∀ v, u (u' v) = u' (u v)

/-- Fields of different names change a record independently of each other. -/
structure Layout.Orderless {σ : Type} (l : Layout σ) : Prop where
  names : (l.fields.map (·.name)).Nodup
  commute : ∀ f ∈ l.fields, ∀ g ∈ l.fields, f.name ≠ g.name → f.Commutes g

section
variable {α β σ : Type} {depth : Nat} {t : Tree} {ms ms' : List Member} {k : List Piece}
  {key name : String}

/-! ## Results as options -/

@[simp] theorem toOption_ok {ε : Type} (a : α) : (.ok a : Except ε α).toOption = some a := rfl

@[simp] theorem toOption_error {ε : Type} (e : ε) : (.error e : Except ε α).toOption = none := rfl

theorem toOption_bind {ε : Type} (x : Except ε α) (f : α → Except ε β) :
    (x >>= f).toOption = x.toOption.bind fun a => (f a).toOption := by
  cases x <;> rfl

theorem toOption_map {ε : Type} (x : Except ε α) (f : α → β) :
    (x.map f).toOption = x.toOption.map f := by
  cases x <;> rfl

theorem toOption_eq_some {ε : Type} {x : Except ε α} {a : α} : x.toOption = some a ↔ x = .ok a := by
  cases x <;> simp [Except.toOption]

/-! ## Checked values -/

/-- Pieces that are read stand for a text. -/
theorem checkPieces_read_eq_ok : checkPieces .read k = .ok () ↔ ∃ s, readPieces k = .ok s := by
  rw [checkPieces]
  cases readPieces k <;> simp [Except.map]

/-- Values are well-formed if each of them is. -/
theorem Tree.checkItems_eq_ok {m : Mode} {ts : List Tree} :
    checkItems m depth ts = .ok () ↔ ∀ t ∈ ts, t.check m depth = .ok () := by
  induction ts with
  | nil => simp [checkItems]
  | cons t ts ih =>
    rw [checkItems, List.forall_mem_cons, ← ih]
    cases t.check m depth <;> simp [bind, Except.bind]

/-- Members are well-formed if each key and each value is. -/
theorem Tree.checkMembers_eq_ok {m : Mode} : checkMembers m depth ms = .ok () ↔
    ∀ p ∈ ms, checkPieces m p.1 = .ok () ∧ p.2.check m depth = .ok () := by
  induction ms with
  | nil => simp [checkMembers]
  | cons p ms ih =>
    rw [checkMembers, List.forall_mem_cons, ← ih]
    cases checkPieces m p.1 <;> cases p.2.check m depth <;> simp [bind, Except.bind]

/-- A whole value can be skipped. -/
theorem Tree.Whole.check_skip (h : t.Whole) : t.check .skip depth = .ok () := by
  induction h with
  | null | bool | text => rfl
  | number n => cases n <;> rfl
  | array _ ih =>
    have hitems := checkItems_eq_ok.2 ih
    simp only [check, checkDepth, hitems, checkClose, bind, Except.bind]
  | object _ ih =>
    have hmembers := checkMembers_eq_ok.2 fun p hp => ⟨rfl, ih p hp⟩
    simp only [check, checkDepth, hmembers, checkClose, bind, Except.bind]

/-- A sound value can be read. -/
theorem Tree.Sound.check_read (h : t.Sound depth) : t.check .read depth = .ok () := by
  induction h with
  | null | bool | integer | float => rfl
  | text hs => exact map_eq_ok _ hs
  | array hdepth _ ih =>
    have hitems := checkItems_eq_ok.2 ih
    simp only [check, checkDepth, descend, if_pos hdepth, hitems, checkClose, bind, Except.bind]
  | object hdepth hkeys _ ih =>
    have hmembers := checkMembers_eq_ok.2 fun p hp =>
      ⟨checkPieces_read_eq_ok.2 (hkeys p hp), ih p hp⟩
    simp only [check, checkDepth, descend, if_pos hdepth, hmembers, checkClose, bind, Except.bind]

/-- A sound value is whole. -/
theorem Tree.Sound.whole (h : t.Sound depth) : t.Whole := by
  induction h with
  | null => exact .null
  | bool b => exact .bool b
  | integer | float => exact .number _
  | text => exact .text _
  | array _ _ ih => exact .array ih
  | object _ _ _ ih => exact .object ih

theorem WholeMembers.of_cons (h : WholeMembers ((k, t) :: ms)) :
    (∃ s, readPieces k = .ok s) ∧ t.Whole ∧ WholeMembers ms := by
  obtain ⟨⟨hk, ht⟩, hms⟩ := List.forall_mem_cons.1 h
  exact ⟨hk, ht, hms⟩

theorem SoundMembers.of_cons (h : SoundMembers depth ((k, t) :: ms)) :
    (∃ s, readPieces k = .ok s) ∧ t.Sound depth ∧ SoundMembers depth ms := by
  obtain ⟨⟨hk, ht⟩, hms⟩ := List.forall_mem_cons.1 h
  exact ⟨hk, ht, hms⟩

/-- Members with sound values have whole values. -/
theorem SoundMembers.whole (h : SoundMembers depth ms) : WholeMembers ms := fun m hm =>
  ⟨(h m hm).1, (h m hm).2.whole⟩

/-- The members of a sound object are sound. -/
theorem Tree.Sound.members (h : (Tree.object ms none).Sound depth) :
    depth < depthLimit ∧ SoundMembers (depth + 1) ms := by
  cases h with
  | object hdepth hkeys hvalues => exact ⟨hdepth, fun m hm => ⟨hkeys m hm, hvalues m hm⟩⟩

/-- A sound object is sound with its members in any order. -/
theorem Tree.Sound.perm (h : (Tree.object ms none).Sound depth) (hms : ms'.Perm ms) :
    (Tree.object ms' none).Sound depth := by
  obtain ⟨hdepth, hmembers⟩ := h.members
  exact .object hdepth (fun m hm => (hmembers m (hms.mem_iff.1 hm)).1)
    fun m hm => (hmembers m (hms.mem_iff.1 hm)).2

/-- The document of an object is read as the object is. -/
theorem IsObject.decode_eq {s : String} (h : IsObject s ms) (read : Nat → Tree → Except Failure α) :
    decode read s = read 0 (.object ms none) :=
  decode_of_run h

/-! ## Values under a key -/

/-- A member adds its value to those under its key and to no others. -/
theorem valuesOf_cons (h : readPieces k = .ok key) : valuesOf ((k, t) :: ms) name =
    if key = name then t :: valuesOf ms name else valuesOf ms name := by
  rw [valuesOf, List.filterMap_cons, h, ← valuesOf]
  by_cases hkey : key = name <;> simp [Except.toOption, hkey]

/-- The values under a key of an object are values of the object. -/
theorem exists_of_mem_valuesOf (h : t ∈ valuesOf ms key) : ∃ m ∈ ms, m.2 = t := by
  obtain ⟨m, hm, hkey⟩ := List.mem_filterMap.1 h
  split at hkey
  · exact ⟨m, hm, Option.some_inj.1 hkey⟩
  · cases hkey

/-- The values under the keys of a sound object are sound. -/
theorem SoundMembers.values (h : SoundMembers depth ms) (key : String) :
    ∀ t ∈ valuesOf ms key, t.Sound depth := by
  intro t ht
  obtain ⟨m, hm, rfl⟩ := exists_of_mem_valuesOf ht
  exact (h m hm).2

/-- Members in another order have the same values under each key, in another order. -/
theorem valuesOf_perm (h : ms.Perm ms') (key : String) :
    (valuesOf ms key).Perm (valuesOf ms' key) :=
  h.filterMap _

/-- Values under other keys are left when members under some keys are taken out. -/
theorem valuesOf_filter {p : String → Bool} (hp : p key = true) :
    valuesOf (ms.filter fun m => (readPieces m.1).toOption.any p) key = valuesOf ms key := by
  rw [valuesOf, List.filterMap_filter, valuesOf]
  congr 1
  funext m
  by_cases hkey : (readPieces m.1).toOption = some key
  · simp [hkey, hp]
  · simp [hkey]

/-- At most one value is the same in any order. -/
theorem oneOr?_perm {ts ts' : List Tree} (h : ts.Perm ts') (read : Tree → Except Failure α)
    (default : α) : oneOr? read default ts = oneOr? read default ts' := by
  cases ts with
  | nil => rw [h.nil_eq]
  | cons t rest =>
    cases rest with
    | nil => rw [h.singleton_eq]
    | cons u rest =>
      obtain ⟨t', u', rest', rfl⟩ : ∃ t' u' rest', ts' = t' :: u' :: rest' := by
        have hlength := h.length_eq
        rcases ts' with _ | ⟨t', _ | ⟨u', rest'⟩⟩ <;> simp_all
      rfl

/-- Exactly one value is at most one that is there. -/
theorem one?_eq_join (read : Tree → Except Failure α) (ts : List Tree) :
    one? read ts = (oneMore? read none ts).join := by
  rcases ts with _ | ⟨t, _ | ⟨u, rest⟩⟩
  · rfl
  · rw [one?, oneMore?, oneOr?, toOption_map]
    cases (read t).toOption <;> rfl
  · rfl

/-- At most one value is the default where none is there. -/
theorem oneOr?_eq_map (read : Tree → Except Failure α) (default : α) (ts : List Tree) :
    oneOr? read default ts = (oneMore? read none ts).map (·.getD default) := by
  rcases ts with _ | ⟨t, _ | ⟨u, rest⟩⟩
  · rfl
  · rw [oneOr?, oneMore?, oneOr?, toOption_map]
    cases (read t).toOption <;> rfl
  · rfl

/-- One value is the same in any order. -/
theorem one?_perm {ts ts' : List Tree} (h : ts.Perm ts') (read : Tree → Except Failure α) :
    one? read ts = one? read ts' := by
  rw [one?_eq_join, one?_eq_join, oneMore?, oneMore?, oneOr?_perm h]

/-- What is read can be changed afterwards. -/
theorem one?_map (read : Tree → Except Failure α) (g : α → β) (ts : List Tree) :
    one? (fun t => (read t).map g) ts = (one? read ts).map g := by
  rcases ts with _ | ⟨t, _ | ⟨u, rest⟩⟩
  · rfl
  · exact toOption_map _ _
  · rfl

/-- A value comes first, or it comes twice. -/
theorem oneMore?_cons (read : Tree → Except Failure α) (a? : Option α) (t : Tree) (ts : List Tree) :
    oneMore? read a? (t :: ts) =
      if a?.isSome then none
      else (read t).toOption.bind fun a => oneMore? read (some a) ts := by
  cases a? with
  | some a => rfl
  | none =>
    cases ts with
    | nil =>
      rw [oneMore?, oneOr?, toOption_map]
      cases (read t).toOption <;> rfl
    | cons u ts => cases (read t).toOption <;> simp [oneMore?, oneOr?]

/-! ## Fields in any order -/

/-- Fields that set different parts of a record can be read in any order. -/
theorem commutes_map {name name' : String} {required required' : Bool}
    {read : Nat → Tree → Except Failure α} {read' : Nat → Tree → Except Failure β}
    {set : α → σ → σ} {set' : β → σ → σ} (h : ∀ a b v, set a (set' b v) = set' b (set a v)) :
    FieldReader.Commutes ⟨name, required, fun d t => (read d t).map set⟩
      ⟨name', required', fun d t => (read' d t).map set'⟩ := by
  intro depth t u t' u' hu hu' v
  obtain ⟨a, -, rfl⟩ := exists_of_map_eq_ok hu
  obtain ⟨b, -, rfl⟩ := exists_of_map_eq_ok hu'
  exact h a b v

/-- A layout is orderless if each of its fields commutes with those behind it. -/
theorem Layout.Orderless.of_pairwise {l : Layout σ} (hnames : (l.fields.map (·.name)).Nodup)
    (h : l.fields.Pairwise FieldReader.Commutes) : l.Orderless where
  names := hnames
  commute := by
    have hsymm : Std.Symm (@FieldReader.Commutes σ) :=
      ⟨fun f g hfg depth t u t' u' hu hu' v => (hfg depth t' u' t u hu' hu v).symm⟩
    intro f hf g hg hne
    exact h.forall hf hg fun heq => hne (congrArg _ heq)

/-- What a field does to a record is what it reads, or nothing. -/
theorem FieldReader.supply?_cases {f : FieldReader σ} {seen : List String} {ts : List Tree}
    {update : σ → σ} (h : f.supply? depth seen ts = some update) :
    update = id ∨ ∃ t, f.read depth t = .ok update := by
  unfold supply? one? oneOr? at h
  split at h
  · split at h <;> simp_all
  · split at h
    · split at h
      · exact .inr ⟨_, toOption_eq_some.1 h⟩
      · cases h
    · split at h
      · exact .inl (Option.some_inj.1 h).symm
      · exact .inr ⟨_, toOption_eq_some.1 h⟩
      · cases h

/-- Fields look at the values under their names only. -/
theorem supplyAll?_congr {values values' : String → List Tree} {seen seen' : List String}
    {fs : List (FieldReader σ)} (hvalues : ∀ f ∈ fs, values f.name = values' f.name)
    (hseen : ∀ f ∈ fs, f.name ∈ seen ↔ f.name ∈ seen') (v : σ) :
    supplyAll? depth values seen fs v = supplyAll? depth values' seen' fs v := by
  induction fs generalizing v with
  | nil => rfl
  | cons f fs ih =>
    rw [List.forall_mem_cons] at hvalues hseen
    have hf : f.supply? depth seen (values f.name) = f.supply? depth seen' (values' f.name) := by
      simp only [FieldReader.supply?, hvalues.1, hseen.1]
    rw [supplyAll?, supplyAll?, hf]
    congr 1
    funext update
    exact ih hvalues.2 hseen.2 (update v)

/-- Without values the fields that are not seen must not be required. -/
theorem supplyAll?_nil (seen : List String) (fs : List (FieldReader σ)) (v : σ) :
    supplyAll? depth (fun _ => []) seen fs v =
      if (fs.find? fun f => f.required && f.name ∉ seen).isSome then none else some v := by
  induction fs with
  | nil => rfl
  | cons f fs ih =>
    by_cases hseen : f.name ∈ seen
    · simp [supplyAll?, FieldReader.supply?, hseen, ih]
    · cases hrequired : f.required <;>
        simp [supplyAll?, FieldReader.supply?, hseen, hrequired, one?, oneOr?, ih]

/-- A value under a name that is seen is one too many. -/
theorem supplyAll?_of_seen {values : String → List Tree} {seen : List String}
    {fs : List (FieldReader σ)} {f : FieldReader σ} (hf : f ∈ fs) (hseen : f.name ∈ seen)
    (hvalue : values f.name ≠ []) (v : σ) : supplyAll? depth values seen fs v = none := by
  induction fs generalizing v with
  | nil => cases hf
  | cons g fs ih =>
    rcases List.mem_cons.1 hf with rfl | hf
    · simp [supplyAll?, FieldReader.supply?, hseen, hvalue]
    · simp only [supplyAll?, ih hf, Option.bind_fun_none]

/-- One value more under the name of a field can be read at once, and then none may follow. -/
theorem supplyAll?_of_mem {values values' : String → List Tree} {seen : List String}
    {fs : List (FieldReader σ)} {f : FieldReader σ} (hf : f ∈ fs) (hnames : (fs.map (·.name)).Nodup)
    (hcommute : ∀ g ∈ fs, f.name ≠ g.name → ∀ t u t' u', f.read depth t = .ok u →
      g.read depth t' = .ok u' → ∀ v, u (u' v) = u' (u v))
    (hnew : f.name ∉ seen) (hvalue : values f.name = t :: values' f.name)
    (hother : ∀ n, n ≠ f.name → values n = values' n) (v : σ) :
    supplyAll? depth values seen fs v = (f.read depth t).toOption.bind fun update =>
      supplyAll? depth values' (f.name :: seen) fs (update v) := by
  induction fs generalizing v with
  | nil => cases hf
  | cons g fs ih =>
    rw [List.map_cons, List.nodup_cons] at hnames
    rcases List.mem_cons.1 hf with rfl | hf
    · -- The fields behind it have other names.
      have hrest : ∀ v, supplyAll? depth values seen fs v =
          supplyAll? depth values' (f.name :: seen) fs v := by
        have hne : ∀ h ∈ fs, h.name ≠ f.name := fun h hh heq =>
          hnames.1 (heq ▸ List.mem_map_of_mem hh)
        exact supplyAll?_congr (fun h hh => hother h.name (hne h hh)) fun h hh => by simp [hne h hh]
      simp only [supplyAll?, hvalue, hrest, FieldReader.supply?, hnew, List.mem_cons_self, if_true,
        if_false]
      cases values' f.name with
      | nil => simp [one?, oneOr?]
      | cons u rest => simp [one?, oneOr?]
    · -- What the field in front does can be done before or after.
      have hne : f.name ≠ g.name := fun heq => hnames.1 (heq ▸ List.mem_map_of_mem hf)
      have hg : g.supply? depth (f.name :: seen) (values' g.name) =
          g.supply? depth seen (values g.name) := by
        rw [hother g.name hne.symm]
        simp [FieldReader.supply?, hne.symm]
      have ih := ih hf hnames.2 fun h hh => hcommute h (List.mem_cons_of_mem _ hh)
      simp only [supplyAll?, ih, hg]
      cases hread : (f.read depth t).toOption with
      | none => simp
      | some update =>
        cases hsupply : g.supply? depth seen (values g.name) with
        | none => simp
        | some update' =>
          have hswap : update (update' v) = update' (update v) := by
            rcases FieldReader.supply?_cases hsupply with rfl | ⟨t', ht'⟩
            · rfl
            · exact hcommute g List.mem_cons_self hne _ _ _ _ (toOption_eq_some.1 hread) ht' v
          simp [hswap]

/-! ## Records -/

namespace Layout

variable {l : Layout σ}

/-- Reading members one by one comes to supplying the fields one by one. -/
theorem readMembers_eq_supplyAll? (hl : l.Orderless) (hms : WholeMembers ms)
    (seen : List String) (v : σ) :
    (l.readMembers depth ms seen v >>= fun p => (l.checkSeen p.1).map fun _ => p.2).toOption =
      supplyAll? depth (valuesOf ms) seen l.fields v := by
  -- A member that is read leaves its field seen, so that the members behind it find none of it.
  induction ms generalizing seen v with
  | nil =>
    refine Eq.trans ?_ (supplyAll?_nil seen l.fields v).symm
    change ((l.checkSeen seen).map fun _ => v).toOption = _
    unfold checkSeen
    cases l.fields.find? fun f => f.required && f.name ∉ seen <;> rfl
  | cons m ms ih =>
    obtain ⟨k, t⟩ := m
    obtain ⟨⟨key, hkey⟩, ht, hms⟩ := hms.of_cons
    simp only [readMembers, hkey, bind, Except.bind] at ih ⊢
    cases hf : l.field? key with
    | none =>
      have hother : ∀ f ∈ l.fields, valuesOf ((k, t) :: ms) f.name = valuesOf ms f.name := by
        intro f hf'
        have hne : f.name ≠ key := by simpa using List.find?_eq_none.1 hf f hf'
        rw [valuesOf_cons hkey, if_neg hne.symm]
      simp only [ht.check_skip, ih hms]
      exact supplyAll?_congr (fun f hf => (hother f hf).symm) (fun _ _ => Iff.rfl) v
    | some f =>
      obtain rfl : f.name = key := by simpa using List.find?_some hf
      have hmem := List.mem_of_find?_eq_some hf
      by_cases hseen : f.name ∈ seen
      · have htwice : valuesOf ((k, t) :: ms) f.name ≠ [] := by
          rw [valuesOf_cons hkey, if_pos rfl]
          exact List.cons_ne_nil _ _
        rw [supplyAll?_of_seen hmem hseen htwice]
        simp only [hseen, if_true]
        rfl
      · have hvalue : valuesOf ((k, t) :: ms) f.name = t :: valuesOf ms f.name := by
          rw [valuesOf_cons hkey, if_pos rfl]
        have hother : ∀ n, n ≠ f.name → valuesOf ((k, t) :: ms) n = valuesOf ms n := by
          intro n hn
          rw [valuesOf_cons hkey, if_neg hn.symm]
        rw [supplyAll?_of_mem hmem hl.names (hl.commute f hmem · · · depth) hseen hvalue hother]
        simp only [hseen, if_false, ← ih hms]
        cases f.read depth t <;> rfl

/-- **A record is read by its keys.** Its members may come in any order, and members with other keys
may stand between them. -/
theorem readObject_eq_supplyAll? (hl : l.Orderless) (hms : WholeMembers ms) :
    (l.readObject depth ms none).toOption =
      supplyAll? depth (valuesOf ms) [] l.fields l.blank := by
  rw [← readMembers_eq_supplyAll? hl hms]
  rfl

/-- A record of one field is read from the one value under its name. -/
theorem readObject_single {l : Layout α} {read : Tree → Except Failure α} {name : String}
    (hl : l.fields = [⟨name, true, fun _ t => (read t).map fun a _ => a⟩])
    (hms : WholeMembers ms) :
    (l.readObject depth ms none).toOption = one? read (valuesOf ms name) := by
  have horderless : l.Orderless := .of_pairwise (by simp [hl]) (by simp [hl])
  rw [readObject_eq_supplyAll? horderless hms, hl]
  simp only [supplyAll?, FieldReader.supply?, List.not_mem_nil, if_false, if_true, one?_map]
  cases one? read (valuesOf ms name) <;> rfl

/-- A record of two fields, the first of which has to be there, is read from the values under their
names. -/
theorem readObject_pair {l : Layout (α × β)} {read : Tree → Except Failure α}
    {read' : Tree → Except Failure β} {name name' : String} {required : Bool}
    (hl : l.fields = [⟨name, true, fun _ t => (read t).map fun a v => (a, v.2)⟩,
      ⟨name', required, fun _ t => (read' t).map fun b v => (v.1, b)⟩])
    (hne : name ≠ name') (hms : WholeMembers ms) :
    (l.readObject depth ms none).toOption = (one? read (valuesOf ms name)).bind fun a =>
      (if required then one? read' (valuesOf ms name')
        else oneOr? read' l.blank.2 (valuesOf ms name')).map fun b => (a, b) := by
  have horderless : l.Orderless := by
    refine .of_pairwise (by simp [hl, hne]) ?_
    rw [hl, List.pairwise_pair]
    exact commutes_map fun _ _ _ => rfl
  rw [readObject_eq_supplyAll? horderless hms, hl]
  simp only [supplyAll?, FieldReader.supply?, List.not_mem_nil, if_false, if_true, one?_map]
  cases one? read (valuesOf ms name) with
  | none => rfl
  | some a =>
    cases required with
    | true => cases one? read' (valuesOf ms name') <;> simp
    | false =>
      rcases valuesOf ms name' with _ | ⟨t, _ | ⟨u, rest⟩⟩
      · rfl
      · cases h : read' t <;> simp [oneOr?, h, Except.map, Except.toOption]
      · rfl

end Layout

end

end CallFlow.Json
