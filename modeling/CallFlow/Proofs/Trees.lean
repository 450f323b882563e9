import CallFlow.Json.Read
import CallFlow.Proofs.Tokens

/-!
# Trees as they are written

`Tree.Written` says how a tree may be written, without reading it: a word, a number or a text, or
brackets with values and commas in between, and blanks around any of these. A document that is
written so is built into its tree (`Tree.Written.run`), so it is read as the tree is
(`decode_of_run`).

A tree that holds no break, no number but integers of 64 bits and no half of a surrogate pair is
`Plain`. What is printed for such a tree is one of the ways to write it (`Plain.written`), and so it
is read back (`Plain.decode_toText`).
-/

namespace CallFlow.Json

/-- Nothing but blanks. -/
def Blank (cs : List Char) : Prop :=
  ∀ c ∈ cs, isBlank c = true

/-- The ways to write a key, with blanks around it. -/
inductive WrittenKey : List Piece → List Char → Prop
  | mk {k : List Piece} {before cs after : List Char} (hbefore : Blank before) (h : Quoted k cs)
    (hafter : Blank after) : WrittenKey k (before ++ (cs ++ after))

/-- A member of an object with a text for its key and one for its value. -/
structure MemberText where
  member : Member
  key : List Char
  value : List Char

/-- The text of a member. -/
def MemberText.text (m : MemberText) : List Char :=
  m.key ++ ':' :: m.value

/-- The ways to write a tree, with blanks around it. -/
inductive Tree.Written : Tree → List Char → Prop
  | null : Written .null ['n', 'u', 'l', 'l']
  | bool (b : Bool) :
    Written (.bool b) (if b then ['t', 'r', 'u', 'e'] else ['f', 'a', 'l', 's', 'e'])
  | number {n : Numeral} {cs : List Char} (h : n.Written cs) : Written (.number n.value) cs
  | text {ps : List Piece} {cs : List Char} (h : Quoted ps cs) : Written (.text ps) cs
  | emptyArray {bs : List Char} (h : Blank bs) : Written (.array [] none) ('[' :: (bs ++ [']']))
  | array (items : List (Tree × List Char)) (hne : items ≠ []) (h : ∀ p ∈ items, Written p.1 p.2) :
    Written (.array (items.map (·.1)) none)
      ('[' :: ([','].intercalate (items.map (·.2)) ++ [']']))
  | emptyObject {bs : List Char} (h : Blank bs) :
    Written (.object [] none) ('\x7b' :: (bs ++ ['\x7d']))
  | object (members : List MemberText) (hne : members ≠ [])
    (hkeys : ∀ m ∈ members, WrittenKey m.member.1 m.key)
    (hvalues : ∀ m ∈ members, Written m.member.2 m.value) :
    Written (.object (members.map (·.member)) none)
      ('\x7b' :: ([','].intercalate (members.map MemberText.text) ++ ['\x7d']))
  | blanks {t : Tree} {before cs after : List Char} (hbefore : Blank before) (h : Written t cs)
    (hafter : Blank after) : Written t (before ++ (cs ++ after))

/-- A tree of texts, integers that fit, and arrays and objects that are closed. -/
inductive Tree.Plain : Tree → Prop
  | null : Plain .null
  | bool (b : Bool) : Plain (.bool b)
  | integer {n : Int} (h : Fits n) : Plain (.ofInt n)
  | text (s : String) : Plain (.ofString s)
  | array {items : List Tree} (h : ∀ t ∈ items, Plain t) : Plain (.array items none)
  | record {fields : List (String × Tree)} (h : ∀ f ∈ fields, Plain f.2) : Plain (.ofFields fields)

/-! ## Blanks -/

section
variable {bs cs rest : List Char}

theorem blank_nil : Blank [] :=
  nofun

/-- Blanks between tokens say nothing. -/
theorem Blank.lex (h : Blank bs) (cs : List Char) : Json.lex (bs ++ cs) = Json.lex cs := by
  induction bs with
  | nil => rfl
  | cons b bs ih =>
    obtain ⟨hb, hbs⟩ := List.forall_mem_cons.1 h
    rw [List.cons_append, lex_cons_of_isBlank hb, ih hbs]

/-- A text with blanks in front is settled if it is settled without them. -/
theorem Blank.settled (h : Blank bs) (hrest : Settled rest) : Settled (bs ++ rest) := by
  cases bs with
  | nil => exact hrest
  | cons b bs =>
    have hb : isBlank b = true := h b List.mem_cons_self
    simp only [isBlank, Bool.or_eq_true, decide_eq_true_eq] at hb
    refine settled_cons ?_
    rcases hb with ((rfl | rfl) | rfl) | rfl <;> decide

end

namespace Builder

/-- What becomes of a builder that is fed a text. -/
def feed (b : Builder) (cs : List Char) : Builder :=
  (lex cs).foldl step b

/-- The builder waits for a value, which goes to the top of the stack. -/
inductive Ready : Builder → List Frame → Prop
  | value {stack : List Frame} : Ready (.value stack) stack
  | item {stack : List Frame} : Ready (.item stack) (.array [] :: stack)

/-- The text is built into the tree, wherever a value may stand. -/
def Builds (cs : List Char) (t : Tree) : Prop :=
  ∀ (b : Builder) (stack : List Frame) (rest : List Char), b.Ready stack → Settled rest →
    b.feed (cs ++ rest) = (deliver t stack).feed rest

section
variable {b : Builder} {stack : List Frame} {t : Token} {bs cs rest : List Char}

/-- One token is one step. -/
theorem feed_of_lex (h : lex cs = t :: lex rest) : b.feed cs = (b.step t).feed rest := by
  rw [feed, h, List.foldl_cons, feed]

/-- Blanks change nothing. -/
theorem feed_of_blank (h : Blank bs) : b.feed (bs ++ cs) = b.feed cs := by
  rw [feed, h.lex, feed]

/-- A token that closes no array begins a value where a value may stand. -/
theorem Ready.feed (hb : b.Ready stack) (h : lex cs = t :: lex rest) (ht : t ≠ .closeArray) :
    b.feed cs = (begin stack t).feed rest := by
  rw [feed_of_lex h]
  cases hb with
  | value => rfl
  | item =>
    cases t with
    | closeArray => exact absurd rfl ht
    | _ => rfl

/-- An array is built from its values on. -/
theorem feed_items {p : Tree × List Char} {ps : List (Tree × List Char)} {done : List Tree}
    (hps : ∀ q ∈ p :: ps, Builds q.2 q.1) (hb : b.Ready (.array done :: stack)) :
    b.feed ([','].intercalate ((p :: ps).map (·.2)) ++ ']' :: rest) =
      (deliver (.array (done.reverse ++ (p :: ps).map (·.1)) none) stack).feed rest := by
  -- Each value moves from the text to `done`, and behind it stands a comma or the bracket.
  induction ps generalizing b p done with
  | nil =>
    rw [List.map_singleton, List.map_singleton, List.intercalate_singleton,
      hps p List.mem_cons_self b _ _ hb (settled_cons (by decide)), deliver,
      feed_of_lex lex_closeArray, step, List.reverse_cons]
  | cons q ps ih =>
    rw [List.forall_mem_cons] at hps
    have hready : Ready (.value (.array (p.1 :: done) :: stack)) (.array (p.1 :: done) :: stack) :=
      .value
    have hrest := ih hps.2 hready
    rw [List.reverse_cons, List.append_assoc, List.singleton_append] at hrest
    rw [List.map_cons, List.map_cons, List.intercalate_cons_cons, List.append_assoc,
      List.append_assoc, List.singleton_append, hps.1 b _ _ hb (settled_cons (by decide)), deliver,
      feed_of_lex lex_comma, step]
    exact hrest

/-- A member is built from its key on. -/
theorem feed_member {first : Bool} {done : List Member} {m : MemberText}
    (hkey : WrittenKey m.member.1 m.key) (hvalue : Builds m.value m.member.2)
    (hrest : Settled rest) : (Builder.key first done stack).feed (m.text ++ rest) =
      (memberEnd (m.member :: done) stack).feed rest := by
  obtain ⟨⟨k, t⟩, key, value⟩ := m
  change WrittenKey k key at hkey
  change (Builder.key first done stack).feed (key ++ ':' :: value ++ rest) = _
  cases hkey with
  | mk hbefore hquoted hafter =>
    rw [List.append_assoc, List.append_assoc, List.append_assoc, List.cons_append,
      feed_of_blank hbefore, feed_of_lex (hquoted.lex _), step, beginKey, feed_of_blank hafter,
      feed_of_lex lex_colon, step, hvalue _ _ _ .value hrest, deliver]

/-- An object is built from its members on. -/
theorem feed_members (first : Bool) (done : List Member) {m : MemberText} {ms : List MemberText}
    (hkeys : ∀ n ∈ m :: ms, WrittenKey n.member.1 n.key)
    (hvalues : ∀ n ∈ m :: ms, Builds n.value n.member.2) :
    (Builder.key first done stack).feed
        ([','].intercalate ((m :: ms).map MemberText.text) ++ '\x7d' :: rest) =
      (deliver (.object (done.reverse ++ (m :: ms).map (·.member)) none) stack).feed rest := by
  induction ms generalizing first done m with
  | nil =>
    rw [List.map_singleton, List.map_singleton, List.intercalate_singleton,
      feed_member (hkeys m List.mem_cons_self) (hvalues m List.mem_cons_self)
        (settled_cons (by decide)),
      feed_of_lex lex_closeObject, step, List.reverse_cons]
  | cons n ms ih =>
    rw [List.forall_mem_cons] at hkeys hvalues
    have hrest := ih false (m.member :: done) hkeys.2 hvalues.2
    rw [List.reverse_cons, List.append_assoc, List.singleton_append] at hrest
    rw [List.map_cons, List.map_cons, List.intercalate_cons_cons, List.append_assoc,
      List.append_assoc, List.singleton_append,
      feed_member hkeys.1 hvalues.1 (settled_cons (by decide)), feed_of_lex lex_comma, step]
    exact hrest

end

end Builder

/-- A document that is built into a tree is read as the tree is. -/
theorem decode_of_run {α : Type} {read : Nat → Tree → Except Failure α} {s : String} {t : Tree}
    (h : Builder.run (lex s.toList) = .complete t false) : decode read s = read 0 t := by
  rw [decode, h]
  change (read 0 t >>= fun value => .ok value) = _
  cases read 0 t <;> rfl

namespace Tree

open Builder

section
variable {t : Tree} {cs : List Char}

/-- What is written for a tree is built into it. -/
theorem Written.builds (h : t.Written cs) : Builds cs t := by
  induction h with
  | null =>
    intro b stack rest hb _
    exact hb.feed lex_null nofun
  | bool v =>
    intro b stack rest hb _
    exact hb.feed (lex_bool v) nofun
  | number hn =>
    intro b stack rest hb hrest
    exact hb.feed (hn.lex hrest) nofun
  | text hps =>
    intro b stack rest hb _
    exact hb.feed (hps.lex rest) nofun
  | emptyArray hbs =>
    intro b stack rest hb _
    rw [List.cons_append, List.append_assoc, List.singleton_append, hb.feed lex_openArray nofun,
      begin, feed_of_blank hbs, feed_of_lex lex_closeArray, step]
  | array items hne _ ih =>
    intro b stack rest hb _
    obtain ⟨p, ps, rfl⟩ := List.exists_cons_of_ne_nil hne
    rw [List.cons_append, List.append_assoc, List.singleton_append, hb.feed lex_openArray nofun,
      begin]
    exact feed_items ih .item
  | emptyObject hbs =>
    intro b stack rest hb _
    rw [List.cons_append, List.append_assoc, List.singleton_append, hb.feed lex_openObject nofun,
      begin, feed_of_blank hbs, feed_of_lex lex_closeObject, step]
    rfl
  | object members hne hkeys _ ih =>
    intro b stack rest hb _
    obtain ⟨m, ms, rfl⟩ := List.exists_cons_of_ne_nil hne
    rw [List.cons_append, List.append_assoc, List.singleton_append, hb.feed lex_openObject nofun,
      begin]
    exact feed_members true [] hkeys ih
  | blanks hbefore _ hafter ih =>
    intro b stack rest hb hrest
    rw [List.append_assoc, List.append_assoc, feed_of_blank hbefore,
      ih b stack _ hb (hafter.settled hrest), feed_of_blank hafter]

/-- A document that is written for a tree is built into it. -/
theorem Written.run (h : t.Written cs) : Builder.run (lex cs) = .complete t false := by
  have hfeed := h.builds (.value []) [] [] .value settled_nil
  rw [List.append_nil] at hfeed
  rw [Builder.run, ← feed, hfeed, feed, lex_nil, List.foldl_nil, deliver]

/-! ## Printed trees -/

/-- Printed values are divided by commas. -/
theorem printItems_eq (ts : List Tree) : printItems ts = [','].intercalate (ts.map print) := by
  induction ts with
  | nil => rfl
  | cons t ts ih =>
    cases ts with
    | nil => exact List.intercalate_singleton.symm
    | cons u ts =>
      simp [printItems, ih, List.intercalate_cons_cons]

/-- A printed member. -/
def printedMember (m : Member) : MemberText :=
  ⟨m, Piece.printAll m.1, m.2.print⟩

/-- Printed members are divided by commas. -/
theorem printMembers_eq (ms : List Member) :
    printMembers ms = [','].intercalate ((ms.map printedMember).map MemberText.text) := by
  induction ms with
  | nil => rfl
  | cons m ms ih =>
    cases ms with
    | nil => exact List.intercalate_singleton.symm
    | cons n ms =>
      simp [printMembers, ih, List.intercalate_cons_cons, printedMember, MemberText.text]

/-- What is printed for a plain tree is one of the ways to write it. -/
theorem Plain.written (h : t.Plain) : t.Written t.print := by
  induction h with
  | null => exact .null
  | bool b => cases b <;> exact .bool _
  | integer hn =>
    obtain ⟨m, hm, hvalue⟩ := exists_written_repr hn
    have hwritten := Written.number hm
    rw [hvalue] at hwritten
    exact hwritten
  | text s => exact .text (quoted_printAll s)
  | @array items _ ih =>
    cases items with
    | nil => exact .emptyArray blank_nil
    | cons t ts =>
      have hwritten := Written.array ((t :: ts).map fun u => (u, u.print)) nofun
        (List.forall_mem_map.2 ih)
      rw [List.map_map, List.map_map] at hwritten
      rw [print, printItems_eq]
      simpa [Function.comp_def] using hwritten
  | @record fields _ ih =>
    cases fields with
    | nil => exact .emptyObject blank_nil
    | cons f fs =>
      have hkeys : ∀ g ∈ f :: fs,
          WrittenKey (Piece.ofString g.1) (Piece.printAll (Piece.ofString g.1)) :=
        fun g _ => by simpa using WrittenKey.mk blank_nil (quoted_printAll g.1) blank_nil
      have hwritten := Written.object
        ((f :: fs).map fun g => printedMember (Piece.ofString g.1, g.2)) nofun
        (List.forall_mem_map.2 hkeys) (List.forall_mem_map.2 ih)
      rw [ofFields, print, printMembers_eq]
      simpa [Function.comp_def, printedMember] using hwritten

/-- A document that is printed from a plain tree is read as the tree is. -/
theorem Plain.decode_toText {α : Type} {read : Nat → Tree → Except Failure α} (h : t.Plain) :
    decode read t.toText = read 0 t := by
  refine decode_of_run ?_
  rw [toText, String.toList_ofList]
  exact h.written.run

/-- Signed integers of 32 bits are plain. -/
theorem Plain.int32 (n : Int32) : (ofInt n.toInt).Plain := by
  have hleast := n.le_toInt
  have hgreatest := n.toInt_lt
  exact .integer ⟨by omega, by omega⟩

/-- Signed integers of 64 bits are plain. -/
theorem Plain.int64 (n : Int64) : (ofInt n.toInt).Plain := by
  have hleast := n.le_toInt
  have hgreatest := n.toInt_lt
  exact .integer ⟨by omega, by omega⟩

/-- Unsigned integers of 32 bits are plain. -/
theorem Plain.uint32 (n : UInt32) : (ofInt n.toNat).Plain := by
  have hgreatest := n.toNat_lt
  exact .integer ⟨by omega, by omega⟩

/-- A value that may be absent is plain if it is plain when it is there. -/
theorem Plain.option {α : Type} {tree : α → Tree} (h : ∀ a, (tree a).Plain) (o : Option α) :
    (ofOption tree o).Plain := by
  cases o with
  | none => exact .null
  | some a => exact h a

/-- A list is plain if its values are. -/
theorem Plain.list {α : Type} {tree : α → Tree} (h : ∀ a, (tree a).Plain) (as : List α) :
    (ofList tree as).Plain := by
  refine .array fun t ht => ?_
  obtain ⟨a, -, rfl⟩ := List.mem_map.1 ht
  exact h a

end

end Tree

end CallFlow.Json
