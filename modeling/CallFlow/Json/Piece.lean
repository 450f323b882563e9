/-!
# Pieces of a text

Between its quotes a text is a row of pieces: characters that stand for themselves, escapes, and
escapes of halves of surrogate pairs. A text means something only if every half has its partner next
to it, which `join` decides; a text that nobody reads may hold lone halves.
-/

namespace CallFlow.Json

/-- One piece of a text. The halves of a surrogate pair hold their ten bits. -/
inductive Piece where
  | char (c : Char)
  | lead (bits : Nat)
  | trail (bits : Nat)
deriving DecidableEq, Repr

/-- A text up to its closing quote, or what there is of it. -/
inductive TextScan where
  /-- The text is closed and other text follows. -/
  | closed (pieces : List Piece) (rest : List Char)
  /-- Everything ends inside the text. -/
  | cut (pieces : List Piece)
  /-- Something stands in the text that may not stand there. -/
  | bad
deriving DecidableEq, Repr

namespace TextScan

/-- The scan with one more piece in front. -/
def cons (p : Piece) : TextScan → TextScan
  | .closed ps rest => .closed (p :: ps) rest
  | .cut ps => .cut (p :: ps)
  | .bad => .bad

/-- A piece in front does not close a text. -/
theorem closed_of_cons {p : Piece} {t : TextScan} {ps : List Piece} {rest : List Char}
    (h : t.cons p = .closed ps rest) : ∃ qs, t = .closed qs rest := by
  cases t <;> cases h
  exact ⟨_, rfl⟩

end TextScan

namespace Piece

/-- The value of a hexadecimal digit. -/
def hexDigit? (c : Char) : Option Nat :=
  if '0' ≤ c ∧ c ≤ '9' then some (c.toNat - '0'.toNat)
  else if 'a' ≤ c ∧ c ≤ 'f' then some (c.toNat - 'a'.toNat + 10)
  else if 'A' ≤ c ∧ c ≤ 'F' then some (c.toNat - 'A'.toNat + 10)
  else none

/-- The value of four hexadecimal digits. -/
def hexDigits? (a b c d : Char) : Option Nat := do
  let a ← hexDigit? a
  let b ← hexDigit? b
  let c ← hexDigit? c
  let d ← hexDigit? d
  some (((a * 16 + b) * 16 + c) * 16 + d)

/-- The piece of a unit of sixteen bits. -/
def ofUnit (n : Nat) : Piece :=
  if 0xd800 ≤ n ∧ n < 0xdc00 then .lead (n - 0xd800)
  else if 0xdc00 ≤ n ∧ n < 0xe000 then .trail (n - 0xdc00)
  else .char (Char.ofNat n)

/-- The character that a letter stands for behind a backslash. -/
def escape? (c : Char) : Option Char :=
  if c = '"' then some '"'
  else if c = '\\' then some '\\'
  else if c = '/' then some '/'
  else if c = 'b' then some '\x08'
  else if c = 'f' then some '\x0c'
  else if c = 'n' then some '\n'
  else if c = 'r' then some '\r'
  else if c = 't' then some '\t'
  else none

/-- The number of bytes of a list of characters. -/
def byteLength : List Char → Nat
  | [] => 0
  | c :: cs => c.utf8Size + byteLength cs

/-- The pieces up to the closing quote. The digits of an escaped unit are four bytes, so fewer bytes
than that mean that everything ends there. -/
def scan : List Char → TextScan
  | [] => .cut []
  | c :: rest =>
    if c = '"' then .closed [] rest
    else if c = '\\' then
      match rest with
      | [] => .cut []
      | e :: more =>
        if e = 'u' then
          match more with
          | a :: b :: c :: d :: tail =>
            match hexDigits? a b c d with
            | some n => (scan tail).cons (.ofUnit n)
            | none => .bad
          | short => if byteLength short < 4 then .cut [] else .bad
        else
          match escape? e with
          | some c => (scan more).cons (.char c)
          | none => .bad
    else if c.toNat < 0x20 then .bad
    else (scan rest).cons (.char c)

/-- The character of a surrogate pair. -/
def pair (lead trail : Nat) : Char :=
  Char.ofNat (0x10000 + lead * 0x400 + trail)

/-- The characters that the pieces stand for, unless a half of a surrogate pair is alone. -/
def join : List Piece → Option (List Char)
  | [] => some []
  | .char c :: ps => (join ps).map (c :: ·)
  | .lead h :: .trail l :: ps => (join ps).map (pair h l :: ·)
  | _ => none

/-- The pieces stand for characters as far as they go: only a partner for the last one may still be
missing. -/
def joinable (ps : List Piece) : Bool :=
  match ps.getLast? with
  | some (.lead _) => (join ps.dropLast).isSome
  | _ => (join ps).isSome

/-- The pieces of a text without escapes. -/
def ofString (s : String) : List Piece :=
  s.toList.map .char

/-- A text without escapes stands for its own characters. -/
@[simp] theorem join_map_char (cs : List Char) : join (cs.map .char) = some cs := by
  induction cs with
  | nil => rfl
  | cons c cs ih => simp [join, ih]

/-! ## How a text goes on -/

/-- A quote closes the text. -/
theorem scan_quote (rest : List Char) : scan ('"' :: rest) = .closed [] rest := by
  rw [scan.eq_def]
  simp

/-- A letter behind a backslash stands for its character. -/
theorem scan_escape {e c : Char} (rest : List Char) (hu : e ≠ 'u') (h : escape? e = some c) :
    scan ('\\' :: e :: rest) = (scan rest).cons (.char c) := by
  rw [scan.eq_def]
  simp [hu, h]

/-- Four digits behind a backslash and a `u` stand for their unit. -/
theorem scan_unit {a b c d : Char} {n : Nat} (rest : List Char) (h : hexDigits? a b c d = some n) :
    scan ('\\' :: 'u' :: a :: b :: c :: d :: rest) = (scan rest).cons (.ofUnit n) := by
  rw [scan.eq_def]
  simp [h]

/-- Any other character but a control stands for itself. -/
theorem scan_plain {c : Char} (rest : List Char) (hq : c ≠ '"') (hb : c ≠ '\\')
    (hc : 0x20 ≤ c.toNat) : scan (c :: rest) = (scan rest).cons (.char c) := by
  rw [scan.eq_def]
  simp only [hq, hb, if_false]
  exact if_neg (Nat.not_lt.2 hc)

/-- What is behind a text is shorter than what is behind its opening quote. -/
theorem scan_length {cs rest : List Char} {ps : List Piece} (h : scan cs = .closed ps rest) :
    rest.length < cs.length := by
  fun_induction scan cs generalizing ps with
  | case2 => cases h; simp
  | case4 _ _ _ _ _ _ _ _ ih | case8 _ _ _ _ _ _ ih | case11 _ _ _ _ _ ih =>
    obtain ⟨qs, hs⟩ := TextScan.closed_of_cons h
    have := ih hs
    simp only [List.length_cons]
    omega
  | _ => cases h

end Piece

end CallFlow.Json
