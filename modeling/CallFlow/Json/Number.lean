/-!
# Numbers

A number is written as an optional minus sign, digits without a needless leading zero, an optional
fraction and an optional exponent. Only a number without fraction and exponent can be an integer,
and only if it fits a word of 64 bits; any other is a floating point number. A floating point number
whose magnitude is beyond every double is `huge`.

Whether a number is huge is decided from a significand of at most 64 bits and a power of ten, each
rounded to the 53 bits of a double before they are multiplied.
-/

namespace CallFlow.Json

/-- What a written number stands for. -/
inductive Number where
  | integer (n : Int)
  | float
  | huge
deriving DecidableEq, Repr

/-- A number as it is written. -/
structure Numeral where
  negative : Bool := false
  whole : List Char
  fraction : List Char := []
  /-- The sign of the exponent, `true` for a minus, and its digits. -/
  exponent : Option (Bool × List Char) := none
deriving DecidableEq, Repr

/-- `n` rounded to 53 significant bits, a half to the even neighbour. -/
def roundToDouble (n : Nat) : Nat :=
  if n < 9007199254740992 then n
  else
    let unit := Nat.pow 2 (n.log2 - 52)
    let q := n / unit
    let r := n % unit
    if 2 * r < unit ∨ (2 * r = unit ∧ q % 2 = 0) then q * unit else (q + 1) * unit

/-- The least magnitude that rounds to no double: half a step beyond the largest one. -/
def beyondDouble : Nat := Nat.pow 2 1024 - Nat.pow 2 970

/-- `significand * 10 ^ exponent` is beyond every double. -/
def isHuge (significand : Nat) (exponent : Int) : Bool :=
  significand ≠ 0 &&
    match exponent with
    | .ofNat e => e > 308 || roundToDouble significand * roundToDouble (Nat.pow 10 e) ≥ beyondDouble
    | .negSucc _ => false

/-- The least number that does not fit a word of 64 bits. -/
def wordLimit : Nat := 18446744073709551616

/-- Appends digits to a significand as long as it fits 64 bits, and gives the digits that are left
over. -/
def absorb (significand : Nat) : List Char → Nat × List Char
  | [] => (significand, [])
  | d :: ds =>
    let longer := significand * 10 + (d.toNat - '0'.toNat)
    if longer < wordLimit then absorb longer ds else (significand, d :: ds)

namespace Numeral

/-- The significand of 64 bits and the power of ten that approximate the numeral. Digits of the
whole part that do not fit raise the power, digits of the fraction that do not fit are dropped. -/
def scaled (n : Numeral) : Nat × Int :=
  let (m, excess) := absorb 0 n.whole
  let (m', lost) := absorb m n.fraction
  let power : Int := match n.exponent with
    | some (true, ds) => -(Nat.ofDigitChars 10 ds 0)
    | some (false, ds) => Nat.ofDigitChars 10 ds 0
    | none => 0
  (m', (excess.length : Int) - ((n.fraction.length : Int) - lost.length) + power)

/-- The integer that the numeral stands for, if it is written as one and fits. A negative zero is
no integer, and the most negative one is half the range of a word away. -/
def integer? (n : Numeral) : Option Int :=
  if n.fraction.isEmpty && n.exponent.isNone then
    let m := Nat.ofDigitChars 10 n.whole 0
    if n.negative then
      if 0 < m ∧ 2 * m ≤ wordLimit then some (-m) else none
    else
      if m < wordLimit then some m else none
  else none

/-- What the numeral stands for. -/
def value (n : Numeral) : Number :=
  match n.integer? with
  | some i => .integer i
  | none =>
    let (m, e) := n.scaled
    if isHuge m e then .huge else .float

/-- Why a text does not go on as a numeral does: it has ended, or another character stands there. -/
inductive Stop where
  | ended
  | bad
deriving DecidableEq, Repr

/-- One digit or more, and the text behind them. -/
def scanDigits (cs : List Char) : Except Stop (List Char × List Char) :=
  match cs.takeWhile Char.isDigit with
  | [] => .error (if cs.isEmpty then .ended else .bad)
  | d :: ds => .ok (d :: ds, cs.dropWhile Char.isDigit)

/-- The whole part, where a zero comes first only if it stands alone. -/
def scanWhole (cs : List Char) : Except Stop (List Char × List Char) := do
  let (ds, rest) ← scanDigits cs
  if ds.head? = some '0' ∧ 1 < ds.length then .error .bad else .ok (ds, rest)

/-- The digits of the fraction, if a point says that there is one. -/
def scanFraction (cs : List Char) : Except Stop (List Char × List Char) :=
  match cs with
  | [] => .ok ([], cs)
  | c :: rest => if c = '.' then scanDigits rest else .ok ([], cs)

/-- The sign of an exponent, `true` for a minus. A plus may be left out. -/
def scanSign (cs : List Char) : Bool × List Char :=
  match cs with
  | [] => (false, cs)
  | c :: rest => if c = '-' then (true, rest) else if c = '+' then (false, rest) else (false, cs)

/-- The exponent, if a letter says that there is one. -/
def scanExponent (cs : List Char) : Except Stop (Option (Bool × List Char) × List Char) :=
  match cs with
  | [] => .ok (none, cs)
  | c :: rest =>
    if c = 'e' ∨ c = 'E' then do
      let (minus, rest) := scanSign rest
      let (ds, rest) ← scanDigits rest
      .ok (some (minus, ds), rest)
    else .ok (none, cs)

/-- The numeral at the front of a text, behind its sign. -/
def scanUnsigned (negative : Bool) (cs : List Char) : Except Stop (Numeral × List Char) := do
  let (whole, cs) ← scanWhole cs
  let (fraction, cs) ← scanFraction cs
  let (exponent, cs) ← scanExponent cs
  .ok ({ negative, whole, fraction, exponent }, cs)

/-- The numeral at the front of a text, and the text behind it. -/
def scan (cs : List Char) : Except Stop (Numeral × List Char) :=
  match cs with
  | [] => .error .ended
  | c :: rest => if c = '-' then scanUnsigned true rest else scanUnsigned false cs

/-! ## What is left is shorter -/

section
variable {cs rest : List Char}

/-- Digits take at least one character. -/
theorem scanDigits_length {ds : List Char} (h : scanDigits cs = .ok (ds, rest)) :
    rest.length < cs.length := by
  unfold scanDigits at h
  split at h
  · cases h
  · rename_i d ds' hd
    cases h
    have hlen := congrArg List.length
      (List.takeWhile_append_dropWhile (p := Char.isDigit) (l := cs))
    rw [hd] at hlen
    simp only [List.length_append, List.length_cons] at hlen
    omega

/-- A whole part takes at least one character. -/
theorem scanWhole_length {ds : List Char} (h : scanWhole cs = .ok (ds, rest)) :
    rest.length < cs.length := by
  unfold scanWhole at h
  cases hd : scanDigits cs with
  | error e => simp [hd, bind, Except.bind] at h
  | ok p =>
    simp only [hd, bind, Except.bind] at h
    split at h
    · cases h
    · cases h
      exact scanDigits_length hd

/-- A fraction takes no character or more. -/
theorem scanFraction_length {ds : List Char} (h : scanFraction cs = .ok (ds, rest)) :
    rest.length ≤ cs.length := by
  unfold scanFraction at h
  split at h
  · cases h
    exact Nat.le_refl _
  · split at h
    · have := scanDigits_length h
      simp only [List.length_cons]
      omega
    · cases h
      exact Nat.le_refl _

/-- A sign takes no character or more. -/
theorem scanSign_length (cs : List Char) : (scanSign cs).2.length ≤ cs.length := by
  unfold scanSign
  split
  · exact Nat.le_refl _
  · split
    · simp
    · split <;> simp

/-- An exponent takes no character or more. -/
theorem scanExponent_length {e : Option (Bool × List Char)} (h : scanExponent cs = .ok (e, rest)) :
    rest.length ≤ cs.length := by
  unfold scanExponent at h
  split at h
  · cases h
    exact Nat.le_refl _
  · rename_i c more
    split at h
    · cases hd : scanDigits (scanSign more).2 with
      | error e => simp [hd, bind, Except.bind] at h
      | ok p =>
        simp only [hd, bind, Except.bind] at h
        cases h
        have h₁ := scanDigits_length hd
        have h₂ := scanSign_length more
        simp only [List.length_cons]
        omega
    · cases h
      exact Nat.le_refl _

/-- A numeral takes at least one character behind its sign. -/
theorem scanUnsigned_length {negative : Bool} {n : Numeral}
    (h : scanUnsigned negative cs = .ok (n, rest)) : rest.length < cs.length := by
  unfold scanUnsigned at h
  cases h₁ : scanWhole cs with
  | error e => simp [h₁, bind, Except.bind] at h
  | ok p =>
    cases h₂ : scanFraction p.2 with
    | error e => simp [h₁, h₂, bind, Except.bind] at h
    | ok q =>
      cases h₃ : scanExponent q.2 with
      | error e => simp [h₁, h₂, h₃, bind, Except.bind] at h
      | ok r =>
        simp only [h₁, h₂, h₃, bind, Except.bind] at h
        cases h
        have := scanWhole_length h₁
        have := scanFraction_length h₂
        have := scanExponent_length h₃
        omega

/-- A numeral takes at least one character. -/
theorem scan_length {n : Numeral} (h : scan cs = .ok (n, rest)) : rest.length < cs.length := by
  unfold scan at h
  split at h
  · cases h
  · split at h
    · have := scanUnsigned_length h
      simp only [List.length_cons]
      omega
    · exact scanUnsigned_length h

end

end Numeral

end CallFlow.Json
