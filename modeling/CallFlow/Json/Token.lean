import CallFlow.Json.Number
import CallFlow.Json.Piece

/-!
# Tokens

`lex` cuts a text into tokens. Where the text stops making sense, a last token `broken` says how,
and nothing follows it. Whether a broken token counts as a malformed text or as one that ends too
early can depend on whether its value is wanted, so a `Break` keeps what is needed to decide that.
-/

namespace CallFlow.Json

/-- How a text stops making sense. -/
inductive Break where
  /-- Something stands where it may not stand. -/
  | bad
  /-- The text ends. -/
  | ended
  /-- The text ends inside a number. -/
  | cutNumber
  /-- The text ends inside a quoted text, of which these pieces are there. -/
  | cutText (pieces : List Piece)
deriving DecidableEq, Repr

/-- The smallest parts of a document. -/
inductive Token where
  | openArray
  | closeArray
  | openObject
  | closeObject
  | comma
  | colon
  | null
  | bool (b : Bool)
  | number (n : Number)
  | text (pieces : List Piece)
  | broken (b : Break)
deriving DecidableEq, Repr

/-- The characters that may stand between tokens. -/
def isBlank (c : Char) : Bool :=
  c = ' ' || c = '\t' || c = '\n' || c = '\r'

namespace Token

/-- A token written as a word, of which `letters` have to follow. -/
def word (letters : List Char) (t : Token) (rest : List Char) : Token × List Char :=
  if letters.isPrefixOf rest then (t, rest.drop letters.length)
  else if rest.isPrefixOf letters then (.broken .ended, [])
  else (.broken .bad, [])

/-- A quoted text, whose opening quote is read. -/
def quoted (rest : List Char) : Token × List Char :=
  match Piece.scan rest with
  | .closed ps more => (.text ps, more)
  | .cut ps => (.broken (.cutText ps), [])
  | .bad => (.broken .bad, [])

/-- A number. -/
def numeral (cs : List Char) : Token × List Char :=
  match Numeral.scan cs with
  | .ok (n, rest) => (.number n.value, rest)
  | .error .ended => (.broken .cutNumber, [])
  | .error .bad => (.broken .bad, [])

/-- The tokens that are one character. -/
def punctuation? (c : Char) : Option Token :=
  if c = '[' then some .openArray
  else if c = ']' then some .closeArray
  else if c = '\x7b' then some .openObject
  else if c = '\x7d' then some .closeObject
  else if c = ',' then some .comma
  else if c = ':' then some .colon
  else none

/-- The token that begins with `c`, and the text behind it. -/
def first (c : Char) (rest : List Char) : Token × List Char :=
  match punctuation? c with
  | some t => (t, rest)
  | none =>
    if c = '"' then quoted rest
    else if c = '-' ∨ c.isDigit then numeral (c :: rest)
    else if c = 'n' then word ['u', 'l', 'l'] .null rest
    else if c = 't' then word ['r', 'u', 'e'] (.bool true) rest
    else if c = 'f' then word ['a', 'l', 's', 'e'] (.bool false) rest
    else (.broken .bad, [])

section
variable (c : Char) (rest : List Char)

/-- A word takes no character or more behind its first. -/
theorem word_length (letters : List Char) (t : Token) :
    (word letters t rest).2.length ≤ rest.length := by
  unfold word
  split
  · simp
  · split <;> simp

/-- A quoted text takes no character or more behind its opening quote. -/
theorem quoted_length : (quoted rest).2.length ≤ rest.length := by
  unfold quoted
  split
  · exact Nat.le_of_lt (Piece.scan_length ‹_›)
  · simp
  · simp

/-- A number takes at least one character. -/
theorem numeral_length : (numeral (c :: rest)).2.length ≤ rest.length := by
  unfold numeral
  split
  · have := Numeral.scan_length ‹_›
    simpa using Nat.le_of_lt_succ this
  · simp
  · simp

/-- A token takes no character or more behind its first. -/
theorem first_length : (first c rest).2.length ≤ rest.length := by
  unfold first
  split
  · exact Nat.le_refl _
  · split
    · exact quoted_length rest
    · split
      · exact numeral_length c rest
      · split
        · exact word_length rest _ _
        · split
          · exact word_length rest _ _
          · split
            · exact word_length rest _ _
            · exact Nat.zero_le _

end

end Token

/-- The tokens of a text. -/
def lex (cs : List Char) : List Token :=
  match _h : cs.dropWhile isBlank with
  | [] => []
  | c :: rest => (Token.first c rest).1 :: lex (Token.first c rest).2
termination_by cs.length
decreasing_by
  have h₁ := Token.first_length c rest
  have h₂ := (List.dropWhile_suffix isBlank (l := cs)).length_le
  rw [_h, List.length_cons] at h₂
  omega

section
variable {c : Char} {cs : List Char}

/-- Nothing has no tokens. -/
theorem lex_nil : lex [] = [] := by
  rw [lex]
  rfl

/-- A blank between tokens says nothing. -/
theorem lex_cons_of_isBlank (h : isBlank c = true) : lex (c :: cs) = lex cs := by
  rw [lex, lex, List.dropWhile_cons_of_pos h]

/-- Anything else begins a token. -/
theorem lex_cons_of_not_isBlank (h : isBlank c = false) :
    lex (c :: cs) = (Token.first c cs).1 :: lex (Token.first c cs).2 := by
  rw [lex, List.dropWhile_cons_of_neg (by simp [h])]

end

end CallFlow.Json
