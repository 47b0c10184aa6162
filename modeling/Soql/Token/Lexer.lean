import Soql.Text.Blank
import Soql.Token.Basic

/-!
# Reading tokens

`tokenize` cuts a query into tokens from left to right, at each place taking the longest text that
a token can have there. No text is refused: what starts no token becomes an unknown one, a single
ASCII character or a whole run of characters beyond ASCII. `lexeme` decides a token from the text
that starts with it, as its kind and the number of characters it has after the first; so each
token has at least one character and the text that is left grows shorter.
-/

namespace Soql

namespace Token

/-- The characters that a word may start with. -/
def isWordStart (c : Char) : Bool :=
  c.isAlpha || c == '_'

/-- The characters that a word may go on with. -/
def isWordPart (c : Char) : Bool :=
  c.isAlphanum || c == '_'

/-- The characters beyond ASCII. -/
def isWide (c : Char) : Bool :=
  128 ≤ c.toNat

/-- How many characters at the front of `s` satisfy `p`. -/
def runLength (p : Char → Bool) (s : Text) : Nat :=
  (s.takeWhile p).length

/-- How many characters of `s` go on with a number: digits, then a point if a digit follows it,
and the digits behind. -/
def numberLength (s : Text) : Nat :=
  let whole := runLength Char.isDigit s
  match s.drop whole with
  | '.' :: fraction =>
    match runLength Char.isDigit fraction with
    | 0 => whole
    | n => whole + 1 + n
  | _ => whole

/-- How many characters of `s` belong to a text whose opening quote stands before `s`, and whether
it is closed. A backslash takes the next character with it, which may not be a line feed. -/
def quotedLength (quote : Char) : Text → Nat × Bool
  | [] => (0, false)
  | '\\' :: e :: s =>
    if e == '\n' then (0, false)
    else
      let (n, closed) := quotedLength quote s
      (n + 2, closed)
  | c :: s =>
    if c == quote then (1, true)
    else if c == '\\' then (0, false)
    else
      let (n, closed) := quotedLength quote s
      (n + 1, closed)

/-- The symbols of one character. -/
def symbolKind : Char → Kind
  | '=' => .equal
  | '<' => .less
  | '>' => .greater
  | '+' => .plus
  | '-' => .minus
  | '*' => .star
  | '(' => .openParen
  | ')' => .closeParen
  | ',' => .comma
  | '.' => .dot
  | ':' => .colon
  | _ => .unknown

/-- The symbols of two characters. -/
def pairKind? : Char → Char → Option Kind
  | '!', '=' => some .bangEqual
  | '<', '>' => some .lessGreater
  | '<', '=' => some .lessEqual
  | '>', '=' => some .greaterEqual
  | _, _ => none

/-- The token that the text `c :: s` starts with: its kind, and how many characters of `s` it has. -/
def lexeme (c : Char) (s : Text) : Kind × Nat :=
  if isWordStart c then
    let n := runLength isWordPart s
    (Kind.ofWord (c :: s.take n), n)
  else if c.isDigit then (.number, numberLength s)
  else if c == '\'' || c == '"' then
    let (n, closed) := quotedLength c s
    (if closed then .quoted else .unclosed, n)
  else if isWide c then (.unknown, runLength isWide s)
  else
    match s.head?.bind (pairKind? c) with
    | some kind => (kind, 1)
    | none => (symbolKind c, 0)

end Token

/-- The tokens of a text, each with the blanks before it; blanks at the end belong to none. -/
def tokenize (s : Text) : List Token :=
  match _h : s.dropWhile Text.isGap with
  | [] => []
  | c :: rest =>
    let (kind, n) := Token.lexeme c rest
    { gap := s.takeWhile Text.isGap, kind, text := c :: rest.take n } :: tokenize (rest.drop n)
termination_by s.length
decreasing_by
  have := (List.dropWhile_suffix Text.isGap (l := s)).length_le
  simp only [_h, List.length_cons] at this
  simp only [List.length_drop]
  omega

namespace Token

/-- The tokens of a text with their spans. -/
def located (s : Text) : List (Token × Span) :=
  let ts := tokenize s
  ts.zip (spans 0 ts)

end Token

end Soql
