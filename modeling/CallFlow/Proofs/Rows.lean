import CallFlow.Proofs.Coverage

/-!
# Rows of a text

A line is written as a row with a newline behind it (`Line.text_eq_row`). The row holds no newline
of its own if the texts that it is written from hold none: the label and the fields of its blocks,
and the host (`Line.noNewline_row`). A body is written from the blocks of its script and from its
entry only (`Script.noNewline_walk`), so without newlines in these it has as many newlines as lines
(`Line.count_textAll`).
-/

namespace CallFlow

/-- A text without a newline. -/
def NoNewline (s : String) : Prop :=
  '\n' ∉ s.toList

/-- The texts among the fields of a kind. -/
def Kind.texts : Kind → List String
  | .start | .answer | .wait _ | .timeSwitch | .defaultArm => []
  | .playback file | .background file => [file]
  | .setVariable name value => [name, value]
  | .dial destination _ => [destination]
  | .queue name => [name]
  | .custom application arguments => [application, arguments]
  | .switch expression => [expression]
  | .agiSwitch script => [script]
  | .caseArm value => [value]

/-- No text of the block holds a newline. -/
def Block.OneLine (b : Block) : Prop :=
  ∀ s ∈ b.label :: b.kind.texts, NoNewline s

namespace Item

/-- The blocks that an item is about. -/
def blocks : Item → List Block
  | .enter b | .plain b | .rejoin b => [b]
  | .fork b cases d => b :: d :: cases
  | .finish => []

end Item

namespace Test

/-- The texts that a test is written from. -/
def texts : Test → List String
  | .equal expression value => [expression, value]
  | .during span => [span]

end Test

namespace Line

/-- The texts that a line is written from, the host apart. -/
def texts : Line → List String
  | .header b => b.label :: b.kind.texts
  | .jumpIf t b => b.label :: t.texts
  | .jump b => [b.label]
  | .hangup => []

/-- The line without its newline. -/
def row (host : Option String) (l : Line) : String :=
  "\tsame = " ++ priority l.label ++ "," ++ (l.application host).text

end Line

section
variable {s : Script} {entry b : Block} {fresh : List LocalId} {tasks : List Task} {t : Trace}
  {items : List Item} {l : Line} {host : String}

/-! ## Texts -/

/-- A number is written without a newline. -/
theorem noNewline_repr (n : Nat) : NoNewline n.repr := by
  intro h
  rw [Nat.toList_repr] at h
  exact absurd (Nat.isDigit_of_mem_toDigits (by decide) (by decide) h) (by decide)

/-- An application is written without a newline if the fields of its kind hold none. -/
theorem Kind.noNewline_application {k : Kind} (hk : ∀ s ∈ k.texts, NoNewline s)
    (hhost : NoNewline host) : NoNewline (k.application (some host)).text := by
  unfold NoNewline at *
  cases k with
  | wait seconds =>
    have hseconds := noNewline_repr seconds.toNat
    simp_all [NoNewline, application, Application.text]
  | dial destination timeout =>
    cases timeout with
    | none => simp_all [texts, application, Application.text]
    | some n =>
      have hn := noNewline_repr n.toNat
      simp_all [NoNewline, texts, application, Application.text]
  | _ => simp_all [texts, application, agiAddress, Application.text]

/-- A test is written without a newline if its texts hold none. -/
theorem Test.noNewline_text {t : Test} (ht : ∀ s ∈ t.texts, NoNewline s) : NoNewline t.text := by
  cases t <;> simp_all [NoNewline, texts, text]

/-! ## Lines -/

/-- A line is its row with a newline behind it. -/
theorem Line.text_eq_row (host : Option String) (l : Line) : l.text host = l.row host ++ "\n" :=
  rfl

/-- A row holds no newline if the texts that it is written from hold none. -/
theorem Line.noNewline_row (hl : ∀ s ∈ l.texts, NoNewline s) (hhost : NoNewline host) :
    NoNewline (l.row (some host)) := by
  have hpriority : NoNewline (priority l.label) := by
    have hlabel : NoNewline l.label := by
      cases l with
      | header b => exact hl _ List.mem_cons_self
      | jumpIf _ _ | jump _ | hangup => simp [NoNewline, label]
    unfold priority
    split <;> simp_all [NoNewline]
  have happlication : NoNewline (l.application (some host)).text := by
    cases l with
    | header b =>
      exact Kind.noNewline_application (fun s hs => hl s (List.mem_cons_of_mem _ hs)) hhost
    | jumpIf t b =>
      have htest : NoNewline t.text :=
        Test.noNewline_text fun s hs => hl s (List.mem_cons_of_mem _ hs)
      have hlabel : NoNewline b.label := hl _ List.mem_cons_self
      cases t <;> simp_all [NoNewline, application, Application.text, Test.jumper]
    | jump b =>
      have hlabel : NoNewline b.label := hl _ List.mem_cons_self
      simp_all [NoNewline, application, Application.text]
    | hangup => simp [NoNewline, application, Application.text]
  simp_all [NoNewline, row]

/-- Lines without newlines of their own have one newline each. -/
theorem Line.count_textAll {ls : List Line} (hls : ∀ l ∈ ls, NoNewline (l.row (some host))) :
    (textAll (some host) ls).toList.count '\n' = ls.length := by
  induction ls with
  | nil => rfl
  | cons l ls ih =>
    rw [List.forall_mem_cons] at hls
    have hone : (l.text (some host)).toList.count '\n' = 1 := by
      rw [text_eq_row, String.toList_append, List.count_append, List.count_eq_zero.2 hls.1]
      rfl
    rw [textAll, List.map_cons, String.join_cons, ← textAll, String.toList_append,
      List.count_append, hone, ih hls.2, List.length_cons, Nat.add_comm]

/-! ## Bodies -/

/-- The value that a switch compares with is a text of its case, if it is there. -/
theorem Block.noNewline_caseValue (hb : b.OneLine) : NoNewline b.caseValue := by
  unfold caseValue
  cases hk : b.kind with
  | caseArm value => exact hb value (by simp [hk, Kind.texts])
  | _ => simp [NoNewline]

/-- What a switch tests for is written from its own texts and the value of the case. -/
theorem Block.noNewline_test {test : String → Test} {value : String} (hb : b.OneLine)
    (ht : b.kind.test? = some test) (hvalue : NoNewline value) :
    ∀ s ∈ (test value).texts, NoNewline s := by
  cases hk : b.kind with
  | switch expression =>
    rw [hk] at ht
    cases ht
    have hexpression := hb expression (by simp [hk, Kind.texts])
    simp [Test.texts, hexpression, hvalue]
  | timeSwitch =>
    rw [hk] at ht
    cases ht
    simp [Test.texts, hvalue]
  | agiSwitch script =>
    rw [hk] at ht
    cases ht
    have hresult : NoNewline Kind.agiResult := by simp [NoNewline, Kind.agiResult]
    simp [Test.texts, hresult, hvalue]
  | _ => simp [hk, Kind.test?] at ht

/-- The lines of a block are written from its texts and those of its cases. -/
theorem Block.noNewline_lines {cs : List Block} (hb : b.OneLine) (hcs : ∀ c ∈ cs, c.OneLine) :
    ∀ l ∈ b.lines cs, ∀ s ∈ l.texts, NoNewline s := by
  intro l hl
  unfold lines at hl
  rcases List.mem_cons.1 hl with rfl | hl
  · exact hb
  cases ht : b.kind.test? with
  | none =>
    rw [ht] at hl
    cases hl
  | some test =>
    rw [ht] at hl
    obtain ⟨c, hc, rfl⟩ := List.mem_map.1 hl
    have hc := hcs c hc
    exact List.forall_mem_cons.2
      ⟨hc _ List.mem_cons_self, noNewline_test hb ht (noNewline_caseValue hc)⟩

/-- The lines of an item are written from the texts of its blocks. -/
theorem Item.noNewline_lines {i : Item} (hi : ∀ b ∈ i.blocks, b.OneLine) :
    ∀ l ∈ i.lines, ∀ s ∈ l.texts, NoNewline s := by
  cases i with
  | enter b => exact List.forall_mem_nil _
  | plain b => exact Block.noNewline_lines (hi b List.mem_cons_self) (List.forall_mem_nil _)
  | fork b cs d =>
    exact Block.noNewline_lines (hi b List.mem_cons_self) fun c hc => hi c (by simp [blocks, hc])
  | rejoin b =>
    have hb := hi b List.mem_cons_self
    simpa [lines, Line.texts] using hb _ List.mem_cons_self
  | finish => simp [lines, Line.texts]

/-- An expansion is about its block and blocks of the script. -/
theorem Script.mem_blocks_expand (h : s.expand b = (items, .ok tasks)) :
    ∀ i ∈ items, ∀ c ∈ i.blocks, c = b ∨ c ∈ s.blocks := by
  have hmem : ∀ c ∈ tasks.map Task.block, c ∈ s.blocks := fun c hc =>
    mem_of_block? (block?_of_expand h hc)
  rcases expand_ok_cases h with ⟨cs, d, -, -, rfl, rfl⟩ | ⟨-, -, rfl, -⟩ | ⟨_, -, -, rfl, -⟩
  · simp_all [Item.blocks]
  · simp [Item.blocks]
  · simp [Item.blocks]

/-- Without a fault a walk is about the blocks at hand and blocks of the script. -/
theorem Walked.forall_blocks {P : Block → Prop} (h : Walked s fresh tasks t) (hf : t.fault = none)
    (hs : ∀ b ∈ s.blocks, P b) (ht : ∀ b ∈ tasks.map Task.block, P b) :
    ∀ i ∈ t.items, ∀ b ∈ i.blocks, P b := by
  induction h with
  | nil => exact List.forall_mem_nil _
  | @enter _ b _ _ _ ih =>
    refine List.forall_mem_cons.2 ⟨fun c hc => ht c ?_, ih hf ht⟩
    exact List.mem_singleton.1 hc ▸ List.mem_cons_self
  | rejoin _ _ ih =>
    rw [List.map_cons, List.forall_mem_cons] at ht
    refine List.forall_mem_cons.2 ⟨fun c hc => ?_, ih hf ht.2⟩
    exact List.mem_singleton.1 hc ▸ ht.1
  | stop => cases hf
  | go _ he _ ih =>
    rw [List.map_cons, List.forall_mem_cons] at ht
    rw [List.map_append] at ih
    have hnext : ∀ c ∈ _ ++ _, P c := List.forall_mem_append.2 ⟨fun c hc =>
      hs c (Script.mem_of_block? (Script.block?_of_expand he hc)), ht.2⟩
    refine List.forall_mem_append.2 ⟨fun i hi c hc => ?_, ih hf hnext⟩
    rcases Script.mem_blocks_expand he i hi c hc with rfl | hc
    · exact ht.1
    · exact hs c hc

/-- The rows of a body hold no newline, if the blocks and the host hold none. -/
theorem Script.noNewline_walk (hf : (s.walk entry).fault = none)
    (hblocks : ∀ b ∈ entry :: s.blocks, b.OneLine) (hhost : NoNewline host) :
    ∀ l ∈ (s.walk entry).items.flatMap Item.lines, NoNewline (l.row (some host)) := by
  intro l hl
  obtain ⟨i, hi, hl⟩ := List.mem_flatMap.1 hl
  rw [List.forall_mem_cons] at hblocks
  have hitem : ∀ b ∈ i.blocks, b.OneLine :=
    (s.walked_walk entry).forall_blocks hf hblocks.2 (by simpa using hblocks.1) i hi
  exact Line.noNewline_row (Item.noNewline_lines hitem l hl) hhost

end

end CallFlow
