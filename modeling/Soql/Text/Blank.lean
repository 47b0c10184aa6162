import Soql.Text.Basic

/-!
# Blank characters

`Text.isBlank` is the Unicode property `White_Space`. Texts that a user may have padded (items of
a list, bodies of clauses, names) are compared and stored without the blanks at their ends:
`Text.trim` takes those off, and `Text.words` cuts a text into its runs of other characters.
The tokens of a query are separated by a smaller set, `Text.isGap`.
-/

namespace Soql.Text

/-- The characters with the Unicode property `White_Space`. -/
def isBlank (c : Char) : Bool :=
  let n := c.toNat
  (0x09 ≤ n && n ≤ 0x0D) || n == 0x20 || n == 0x85 || n == 0xA0 || n == 0x1680 ||
    (0x2000 ≤ n && n ≤ 0x200A) || n == 0x2028 || n == 0x2029 || n == 0x202F || n == 0x205F ||
    n == 0x3000

/-- The blanks that separate tokens: space, tab, carriage return, line feed, form feed. -/
def isGap (c : Char) : Bool :=
  c == ' ' || c == '\t' || c == '\r' || c == '\n' || c == '\x0c'

theorem isBlank_of_isGap {c : Char} (h : isGap c = true) : isBlank c = true := by
  simp only [isGap, Bool.or_eq_true, beq_iff_eq] at h
  rcases h with (((rfl | rfl) | rfl) | rfl) | rfl <;> rfl

/-- A text without the blanks at its start. -/
def trimStart (s : Text) : Text :=
  s.dropWhile isBlank

/-- A text without the blanks at its end. -/
def trimEnd (s : Text) : Text :=
  (s.reverse.dropWhile isBlank).reverse

/-- A text without the blanks at both ends. -/
def trim (s : Text) : Text :=
  trimEnd (trimStart s)

/-- A text holds no character other than blanks. -/
def isBlankText (s : Text) : Bool :=
  s.all isBlank

/-- The run of other characters that a text starts with (empty before a blank), and the maximal
runs after it. -/
def leadingWord : Text → Text × List Text
  | [] => ([], [])
  | c :: s =>
    let (word, rest) := leadingWord s
    if isBlank c then ([], if word.isEmpty then rest else word :: rest) else (c :: word, rest)

/-- The maximal runs of characters that are not blank, in order. -/
def words (s : Text) : List Text :=
  let (word, rest) := leadingWord s
  if word.isEmpty then rest else word :: rest

end Soql.Text
