import CallFlow.Json.Print

/-!
# Tokens as they are written

How a text and a number may be written, said without reading them. A text is a row of pieces between
quotes (`Quoted`), and a piece may stand for itself, behind a backslash, or as the digits of its
unit (`Piece.Written`). A number has digits, and maybe a fraction and an exponent
(`Numeral.Written`). What is written so is read as one token, and the text behind it is left as it
is (`Quoted.lex`, `Numeral.Written.lex`), where behind a number nothing may stand that could be part
of it (`Settled`). What is printed for a text, and for an integer that fits a word of 64 bits
(`Fits`), is written so (`quoted_printAll`, `exists_written_repr`).
-/

namespace CallFlow.Json

/-- The integer fits a word of 64 bits, signed or unsigned. -/
def Fits (n : Int) : Prop :=
  -9223372036854775808 ≤ n ∧ n < 18446744073709551616

/-- A text that does not go on as a number does: it is empty, or no digit, point or exponent stands
first in it. -/
def Settled (cs : List Char) : Prop :=
  ∀ c ∈ cs.head?, c.isDigit = false ∧ c ≠ '.' ∧ c ≠ 'e' ∧ c ≠ 'E'

/-- One digit or more. -/
def Digits (ds : List Char) : Prop :=
  ds ≠ [] ∧ ∀ c ∈ ds, c.isDigit = true

/-- The ways to write a piece of a text. -/
inductive Piece.Written : Piece → List Char → Prop
  | plain {c : Char} (hq : c ≠ '"') (hb : c ≠ '\\') (hc : 0x20 ≤ c.toNat) : Written (.char c) [c]
  | escape {e c : Char} (h : escape? e = some c) : Written (.char c) ['\\', e]
  | unit {a b c d : Char} {n : Nat} (h : hexDigits? a b c d = some n) :
    Written (.ofUnit n) ['\\', 'u', a, b, c, d]

/-- The ways to write pieces one behind the other. -/
inductive Piece.WrittenRow : List Piece → List Char → Prop
  | nil : WrittenRow [] []
  | cons {p : Piece} {ps : List Piece} {cs ds : List Char} (hp : p.Written cs)
    (hps : WrittenRow ps ds) : WrittenRow (p :: ps) (cs ++ ds)

/-- The ways to write a text between its quotes. -/
inductive Quoted : List Piece → List Char → Prop
  | mk {ps : List Piece} {cs : List Char} (h : Piece.WrittenRow ps cs) :
    Quoted ps ('"' :: (cs ++ ['"']))

namespace Numeral

/-- The ways to write a fraction, which may be absent. -/
inductive WrittenFraction : List Char → List Char → Prop
  | absent : WrittenFraction [] []
  | digits {ds : List Char} (h : Digits ds) : WrittenFraction ds ('.' :: ds)

/-- The ways to write the sign of an exponent, `true` for a minus. -/
inductive WrittenSign : Bool → List Char → Prop
  | none : WrittenSign false []
  | plus : WrittenSign false ['+']
  | minus : WrittenSign true ['-']

/-- The ways to write an exponent, which may be absent. -/
inductive WrittenExponent : Option (Bool × List Char) → List Char → Prop
  | absent : WrittenExponent none []
  | digits {e : Char} {minus : Bool} {sign ds : List Char} (he : e = 'e' ∨ e = 'E')
    (hsign : WrittenSign minus sign) (h : Digits ds) :
    WrittenExponent (some (minus, ds)) (e :: (sign ++ ds))

/-- The ways to write a number. A zero comes first only if it stands alone. -/
inductive Written : Numeral → List Char → Prop
  | mk (negative : Bool) {whole fraction fs es : List Char} {exponent : Option (Bool × List Char)}
    (hwhole : Digits whole) (hzero : whole.head? = some '0' → whole = ['0'])
    (hfraction : WrittenFraction fraction fs) (hexponent : WrittenExponent exponent es) :
    Written ⟨negative, whole, fraction, exponent⟩
      ((if negative then ['-'] else []) ++ (whole ++ (fs ++ es)))

end Numeral

section
variable {c d : Char} {cs ds rest : List Char}

/-! ## Characters -/

/-- A character that is a digit is none that is not. -/
theorem ne_of_isDigit (h : c.isDigit = true) (hd : d.isDigit = false) : c ≠ d := by
  rintro rfl
  rw [h] at hd
  cases hd

/-- A text behind a character that ends numbers is settled. -/
theorem settled_cons (h : c.isDigit = false ∧ c ≠ '.' ∧ c ≠ 'e' ∧ c ≠ 'E') : Settled (c :: cs) := by
  intro d hd
  cases hd
  exact h

/-- The empty text is settled. -/
theorem settled_nil : Settled [] :=
  nofun

/-! ## Texts -/

/-- A hexadecimal digit is read back. -/
theorem Piece.hexDigit?_digitChar : ∀ d < 16, hexDigit? (Nat.digitChar d) = some d := by
  decide

/-- Four hexadecimal digits are read back. -/
theorem Piece.hexDigits?_hexDigits {n : Nat} (h : n < 65536) :
    hexDigits? (Nat.digitChar (n / 4096 % 16)) (Nat.digitChar (n / 256 % 16))
      (Nat.digitChar (n / 16 % 16)) (Nat.digitChar (n % 16)) = some n := by
  have hdigit : ∀ m, hexDigit? (Nat.digitChar (m % 16)) = some (m % 16) := fun m =>
    hexDigit?_digitChar _ (Nat.mod_lt _ (by decide))
  simp only [hexDigits?, hdigit, Option.bind_eq_bind, Option.bind_some, Option.some.injEq]
  omega

/-- The unit of a control is the control. -/
theorem Piece.ofUnit_of_lt (h : c.toNat < 0x20) : ofUnit c.toNat = .char c := by
  rw [ofUnit, if_neg (by omega), if_neg (by omega), Char.ofNat_toNat]

/-- A piece is read from each of the ways to write it. -/
theorem Piece.Written.scan {p : Piece} (h : p.Written cs) (rest : List Char) :
    Piece.scan (cs ++ rest) = (Piece.scan rest).cons p := by
  cases h with
  | plain hq hb hc => exact scan_plain rest hq hb hc
  | @escape e c h =>
    have hu : e ≠ 'u' := by
      rintro rfl
      cases h
    exact scan_escape rest hu h
  | unit h => exact scan_unit rest h

/-- Pieces are read one by one, up to the closing quote. -/
theorem Piece.WrittenRow.scan {ps : List Piece} (h : WrittenRow ps cs) (rest : List Char) :
    Piece.scan (cs ++ '"' :: rest) = .closed ps rest := by
  induction h with
  | nil => exact scan_quote rest
  | cons hp _ ih =>
    rw [List.append_assoc, hp.scan, ih]
    rfl

/-- A text between quotes is one token. -/
theorem Quoted.lex {ps : List Piece} (h : Quoted ps cs) (rest : List Char) :
    Json.lex (cs ++ rest) = .text ps :: Json.lex rest := by
  cases h with
  | @mk cs hps =>
    have hfirst : Token.first '"' (cs ++ '"' :: rest) = (.text ps, rest) := by
      simp [Token.first, Token.punctuation?, Token.quoted, hps.scan]
    rw [List.cons_append, List.append_assoc, List.singleton_append,
      lex_cons_of_not_isBlank (by decide), hfirst]

/-- A character is printed in one of the ways to write it. -/
theorem Piece.written_printChar (c : Char) : (Piece.char c).Written (printChar c) := by
  unfold printChar
  -- First the characters with a letter of their own, then the other controls, then all the rest.
  split
  · next h => subst h; exact .escape rfl
  split
  · next h => subst h; exact .escape rfl
  split
  · next h => subst h; exact .escape rfl
  split
  · next h => subst h; exact .escape rfl
  split
  · next h => subst h; exact .escape rfl
  split
  · next h => subst h; exact .escape rfl
  split
  · next h => subst h; exact .escape rfl
  split
  · next h =>
    have hunit := hexDigits?_hexDigits (n := c.toNat) (by omega)
    rw [← ofUnit_of_lt h]
    exact .unit hunit
  · next hq hb _ _ _ _ _ h => exact .plain hq hb (Nat.not_lt.1 h)

/-- A text is printed in one of the ways to write it. -/
theorem quoted_printAll (s : String) :
    Quoted (Piece.ofString s) (Piece.printAll (Piece.ofString s)) := by
  have hrow : ∀ cs : List Char,
      Piece.WrittenRow (cs.map Piece.char) ((cs.map Piece.char).flatMap Piece.print) := by
    intro cs
    induction cs with
    | nil => exact .nil
    | cons c cs ih => exact .cons (Piece.written_printChar c) ih
  exact .mk (hrow s.toList)

/-! ## Numbers -/

/-- The digits of a positive number begin with no zero. -/
theorem head?_toDigits_ne_zero {n : Nat} (h : 0 < n) : (Nat.toDigits 10 n).head? ≠ some '0' := by
  induction n using Nat.strongRecOn with
  | ind n ih =>
    by_cases hn : n < 10
    · rw [Nat.toDigits_of_lt_base hn, List.head?_singleton, Ne, Option.some.injEq,
        Nat.digitChar_eq_zero]
      omega
    · have hfirst := ih (n / 10) (by omega) (by omega)
      obtain ⟨d, ds, hds⟩ :=
        List.exists_cons_of_ne_nil (Nat.toDigits_ne_nil (n := n / 10) (b := 10))
      rw [hds] at hfirst
      rwa [Nat.toDigits_of_base_le (by decide) (by omega), hds]

/-- Digits end where something else stands. -/
theorem Digits.scan (hds : Digits ds) (hrest : ∀ c ∈ rest.head?, c.isDigit = false) :
    Numeral.scanDigits (ds ++ rest) = .ok (ds, rest) := by
  have hnone : rest.takeWhile Char.isDigit = [] ∧ rest.dropWhile Char.isDigit = rest := by
    cases rest with
    | nil => exact ⟨rfl, rfl⟩
    | cons c cs => simp [hrest c rfl]
  have htake : (ds ++ rest).takeWhile Char.isDigit = ds := by
    rw [List.takeWhile_append_of_pos hds.2, hnone.1, List.append_nil]
  have hdrop : (ds ++ rest).dropWhile Char.isDigit = rest := by
    rw [List.dropWhile_append_of_pos hds.2, hnone.2]
  obtain ⟨d, ds, rfl⟩ := List.exists_cons_of_ne_nil hds.1
  rw [Numeral.scanDigits, htake, hdrop]

/-- The first of some digits is a digit. -/
theorem Digits.exists_cons (hds : Digits ds) :
    ∃ d ds', ds = d :: ds' ∧ d.isDigit = true := by
  obtain ⟨d, ds, rfl⟩ := List.exists_cons_of_ne_nil hds.1
  exact ⟨d, ds, rfl, hds.2 d List.mem_cons_self⟩

namespace Numeral

/-- An exponent is read, if there is one. -/
theorem WrittenExponent.scan {exponent : Option (Bool × List Char)}
    (h : WrittenExponent exponent cs) (hrest : Settled rest) :
    scanExponent (cs ++ rest) = .ok (exponent, rest) := by
  cases h with
  | absent =>
    cases rest with
    | nil => rfl
    | cons c cs =>
      obtain ⟨-, -, he, hE⟩ := hrest c rfl
      exact if_neg (not_or.2 ⟨he, hE⟩)
  | @digits e minus sign ds he hsign hds =>
    have hscan := hds.scan fun c hc => (hrest c hc).1
    have hsigned : scanSign (sign ++ ds ++ rest) = (minus, ds ++ rest) := by
      cases hsign with
      | plus | minus => rfl
      | none =>
        obtain ⟨d, ds, rfl, hd⟩ := hds.exists_cons
        rw [List.nil_append, List.cons_append, scanSign, if_neg (ne_of_isDigit hd (by decide)),
          if_neg (ne_of_isDigit hd (by decide))]
    simp only [List.cons_append, scanExponent, if_pos he, hsigned, hscan, bind, Except.bind]

/-- An exponent or a settled text begins with neither a digit nor a point. -/
theorem WrittenExponent.head {exponent : Option (Bool × List Char)}
    (h : WrittenExponent exponent cs) (hrest : Settled rest) :
    ∀ c ∈ (cs ++ rest).head?, c.isDigit = false ∧ c ≠ '.' := by
  cases h with
  | absent => exact fun c hc => ⟨(hrest c hc).1, (hrest c hc).2.1⟩
  | digits he =>
    intro c hc
    cases hc
    rcases he with rfl | rfl <;> decide

/-- A fraction is read, if there is one. -/
theorem WrittenFraction.scan {fraction : List Char} (h : WrittenFraction fraction cs)
    (hrest : ∀ c ∈ rest.head?, c.isDigit = false ∧ c ≠ '.') :
    scanFraction (cs ++ rest) = .ok (fraction, rest) := by
  cases h with
  | absent =>
    cases rest with
    | nil => rfl
    | cons c cs => exact if_neg (hrest c rfl).2
  | digits hds => exact hds.scan fun c hc => (hrest c hc).1

/-- A fraction begins with no digit, and nor does what has none and stands behind it. -/
theorem WrittenFraction.head {fraction : List Char} (h : WrittenFraction fraction cs)
    (hrest : ∀ c ∈ rest.head?, c.isDigit = false) :
    ∀ c ∈ (cs ++ rest).head?, c.isDigit = false := by
  cases h with
  | absent => exact hrest
  | digits =>
    intro c hc
    cases hc
    decide

/-- A number is read from each of the ways to write it, up to a settled text. -/
theorem Written.scan {n : Numeral} (h : n.Written cs) (hrest : Settled rest) :
    Numeral.scan (cs ++ rest) = .ok (n, rest) := by
  cases h with
  | @mk negative whole fraction fs es exponent hwhole hzero hfraction hexponent =>
    have hhead := hexponent.head hrest
    have hdigits := hwhole.scan (hfraction.head fun c hc => (hhead c hc).1)
    have hlone : ¬ (whole.head? = some '0' ∧ 1 < whole.length) := by
      rintro ⟨hfirst, hlength⟩
      rw [hzero hfirst] at hlength
      exact absurd hlength (by decide)
    have hunsigned : scanUnsigned negative (whole ++ (fs ++ (es ++ rest))) =
        .ok (⟨negative, whole, fraction, exponent⟩, rest) := by
      simp only [scanUnsigned, scanWhole, hdigits, if_neg hlone, hfraction.scan hhead,
        hexponent.scan hrest, bind, Except.bind]
    rw [List.append_assoc, List.append_assoc, List.append_assoc]
    cases negative with
    | true => exact hunsigned
    | false =>
      obtain ⟨d, ds, rfl, hd⟩ := hwhole.exists_cons
      exact (if_neg (ne_of_isDigit hd (by decide))).trans hunsigned

/-- A number begins with a minus or a digit. -/
theorem Written.exists_cons {n : Numeral} (h : n.Written cs) :
    ∃ c cs', cs = c :: cs' ∧ (c = '-' ∨ c.isDigit = true) := by
  cases h with
  | mk negative hwhole =>
    cases negative with
    | true => exact ⟨'-', _, rfl, .inl rfl⟩
    | false =>
      obtain ⟨d, ds, rfl, hd⟩ := hwhole.exists_cons
      exact ⟨d, _, rfl, .inr hd⟩

end Numeral

/-- A token that begins with a minus or a digit is a number. -/
theorem lex_of_scan {n : Numeral} (hc : c = '-' ∨ c.isDigit = true)
    (h : Numeral.scan (c :: cs) = .ok (n, rest)) : lex (c :: cs) = .number n.value :: lex rest := by
  have hblank : isBlank c = false := by
    rcases hc with rfl | hc
    · rfl
    · simp [isBlank, ne_of_isDigit hc]
  have hfirst : Token.first c cs = Token.numeral (c :: cs) := by
    have hpunctuation : Token.punctuation? c = none ∧ c ≠ '"' := by
      rcases hc with rfl | hc
      · decide
      · simp [Token.punctuation?, ne_of_isDigit hc]
    rw [Token.first, hpunctuation.1, if_neg hpunctuation.2, if_pos hc]
  rw [lex_cons_of_not_isBlank hblank, hfirst, Token.numeral, h]

/-- A number is one token. -/
theorem Numeral.Written.lex {n : Numeral} (h : n.Written cs) (hrest : Settled rest) :
    Json.lex (cs ++ rest) = .number n.value :: Json.lex rest := by
  have hscan := h.scan hrest
  obtain ⟨c, cs, rfl, hc⟩ := h.exists_cons
  exact lex_of_scan hc hscan

/-- The digits of a number are one way to write it, with a minus or without. -/
theorem Numeral.written_toDigits (negative : Bool) (n : Nat) :
    Written { negative, whole := Nat.toDigits 10 n }
      ((if negative then ['-'] else []) ++ Nat.toDigits 10 n) := by
  have hdigits : Digits (Nat.toDigits 10 n) :=
    ⟨Nat.toDigits_ne_nil, fun _ hd => Nat.isDigit_of_mem_toDigits (by decide) (by decide) hd⟩
  have hzero : (Nat.toDigits 10 n).head? = some '0' → Nat.toDigits 10 n = ['0'] := by
    intro hhead
    cases n with
    | zero => rfl
    | succ n => exact absurd hhead (head?_toDigits_ne_zero (Nat.succ_pos n))
  have hwritten := Written.mk negative hdigits hzero .absent .absent
  rwa [List.append_nil, List.append_nil] at hwritten

/-- An integer that fits is printed in one of the ways to write it. -/
theorem exists_written_repr {n : Int} (hn : Fits n) :
    ∃ m : Numeral, m.Written n.repr.toList ∧ m.value = .integer n := by
  obtain ⟨hleast, hgreatest⟩ := hn
  rw [Int.repr_eq_if]
  split
  · next hsign =>
    have hlimit : n.toNat < wordLimit := by
      rw [wordLimit]
      omega
    refine ⟨{ whole := Nat.toDigits 10 n.toNat }, ?_, ?_⟩
    · rw [Nat.toList_repr]
      exact Numeral.written_toDigits false n.toNat
    · simp only [Numeral.value, Numeral.integer?, Nat.ofDigitChars_ten_toDigits, List.isEmpty_nil,
        Option.isNone_none, Bool.and_self, if_true, Bool.false_eq_true, if_false, if_pos hlimit,
        Int.toNat_of_nonneg hsign]
  · next hsign =>
    have hlimit : 0 < (-n).toNat ∧ 2 * (-n).toNat ≤ wordLimit := by
      rw [wordLimit]
      omega
    have hmagnitude : -((-n).toNat : Int) = n := by omega
    refine ⟨{ negative := true, whole := Nat.toDigits 10 (-n).toNat }, ?_, ?_⟩
    · rw [String.toList_append, Nat.toList_repr]
      exact Numeral.written_toDigits true (-n).toNat
    · simp only [Numeral.value, Numeral.integer?, Nat.ofDigitChars_ten_toDigits, List.isEmpty_nil,
        Option.isNone_none, Bool.and_self, if_true, if_pos hlimit, hmagnitude]

/-! ## Words and brackets -/

/-- A bracket, a comma or a colon is one token. -/
theorem lex_punctuation {t : Token} (hc : isBlank c = false) (h : Token.punctuation? c = some t) :
    lex (c :: cs) = t :: lex cs := by
  have hfirst : Token.first c cs = (t, cs) := by
    rw [Token.first, h]
  rw [lex_cons_of_not_isBlank hc, hfirst]

theorem lex_openArray : lex ('[' :: cs) = .openArray :: lex cs :=
  lex_punctuation (by decide) rfl

theorem lex_closeArray : lex (']' :: cs) = .closeArray :: lex cs :=
  lex_punctuation (by decide) rfl

theorem lex_openObject : lex ('\x7b' :: cs) = .openObject :: lex cs :=
  lex_punctuation (by decide) rfl

theorem lex_closeObject : lex ('\x7d' :: cs) = .closeObject :: lex cs :=
  lex_punctuation (by decide) rfl

theorem lex_comma : lex (',' :: cs) = .comma :: lex cs :=
  lex_punctuation (by decide) rfl

theorem lex_colon : lex (':' :: cs) = .colon :: lex cs :=
  lex_punctuation (by decide) rfl

/-- The word for nothing is one token. -/
theorem lex_null : lex ('n' :: 'u' :: 'l' :: 'l' :: rest) = .null :: lex rest :=
  lex_cons_of_not_isBlank (by decide)

/-- The word for a truth value is one token. -/
theorem lex_bool (b : Bool) :
    lex ((if b then ['t', 'r', 'u', 'e'] else ['f', 'a', 'l', 's', 'e']) ++ rest) =
      .bool b :: lex rest := by
  cases b with
  | false => exact lex_cons_of_not_isBlank (by decide)
  | true => exact lex_cons_of_not_isBlank (by decide)

end

end CallFlow.Json
