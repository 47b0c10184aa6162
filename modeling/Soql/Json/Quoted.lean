import Soql.Text.Basic

/-!
# Quoted text of JSON

`Quoted.encode` writes a text as a JSON string and `Quoted.decode?` reads one. Between the quotes
a text is a sequence of pieces: a character that stands for itself or behind a backslash, or the
code of a `\u` escape. Codes above the basic plane come as two surrogates; a surrogate without its
partner is well-formed JSON that no text corresponds to, so reading goes through the pieces.
-/

namespace Soql.Json.Quoted

/-- One element between the quotes of a JSON string. -/
inductive Piece
  | char (c : Char)
  | code (n : Nat)

/-- The characters with an escape of one letter, and that letter. -/
def letterEscapes : List (Char × Char) :=
  [('"', '"'), ('\\', '\\'), ('\x08', 'b'), ('\x0c', 'f'), ('\n', 'n'), ('\r', 'r'), ('\t', 't')]

/-- How a character is written between quotes: quote, backslash and control characters are
escaped, everything else stands for itself. -/
def escape (c : Char) : Text :=
  match letterEscapes.lookup c with
  | some e => ['\\', e]
  | none =>
    if c.toNat < 0x20 then
      ['\\', 'u', '0', '0', Nat.digitChar (c.toNat / 16), Nat.digitChar (c.toNat % 16)]
    else [c]

/-- A text as a JSON string, quotes included. -/
def encode (s : Text) : Text :=
  '"' :: s.flatMap escape ++ ['"']

/-- The value of a hexadecimal digit. -/
def hexDigit? (c : Char) : Option Nat :=
  if c.isDigit then some (c.toNat - '0'.toNat)
  else if 'a' ≤ c ∧ c ≤ 'f' then some (c.toNat - 'a'.toNat + 10)
  else if 'A' ≤ c ∧ c ≤ 'F' then some (c.toNat - 'A'.toNat + 10)
  else none

/-- The code that four hexadecimal digits denote. -/
def hexCode? (a b c d : Char) : Option Nat := do
  let a ← hexDigit? a
  let b ← hexDigit? b
  let c ← hexDigit? c
  let d ← hexDigit? d
  return ((a * 16 + b) * 16 + c) * 16 + d

/-- The character that a letter behind a backslash stands for. -/
def ofLetter? : Char → Option Char
  | '"' => some '"'
  | '\\' => some '\\'
  | '/' => some '/'
  | 'b' => some '\x08'
  | 'f' => some '\x0c'
  | 'n' => some '\n'
  | 'r' => some '\r'
  | 't' => some '\t'
  | _ => none

/-- Reads after an opening quote: the pieces up to the closing quote, and the text behind it. -/
def pieces? : Text → Option (List Piece × Text)
  | [] => none
  | '"' :: s => some ([], s)
  | '\\' :: 'u' :: a :: b :: c :: d :: s => do
    let n ← hexCode? a b c d
    let (ps, rest) ← pieces? s
    return (.code n :: ps, rest)
  | '\\' :: e :: s => do
    let c ← ofLetter? e
    let (ps, rest) ← pieces? s
    return (.char c :: ps, rest)
  | c :: s =>
    if c.toNat < 0x20 || c == '\\' then none
    else do
      let (ps, rest) ← pieces? s
      return (.char c :: ps, rest)

/-- Reading pieces consumes at least the closing quote. -/
theorem length_lt_of_pieces? {s rest : Text} {ps : List Piece} (h : pieces? s = some (ps, rest)) :
    rest.length < s.length := by
  fun_induction pieces? s generalizing ps rest with
  | case1 => simp at h
  | case2 s => simp only [Option.some.injEq, Prod.mk.injEq] at h; simp [← h.2]
  | case3 a b c d s ih | case4 a s _ ih =>
    simp only [Option.bind_eq_bind, Option.bind_eq_some_iff, Prod.exists] at h
    obtain ⟨_, _, ps', r, hr, h⟩ := h
    simp only [Option.pure_def, Option.some.injEq, Prod.mk.injEq] at h
    have := ih hr
    simp only [← h.2, List.length_cons]
    omega
  | case5 => simp at h
  | case6 c s _ _ _ _ ih =>
    simp only [Option.bind_eq_bind, Option.bind_eq_some_iff, Prod.exists] at h
    obtain ⟨ps', r, hr, h⟩ := h
    simp only [Option.pure_def, Option.some.injEq, Prod.mk.injEq] at h
    have := ih hr
    simp only [← h.2, List.length_cons]
    omega

/-- The first of the two surrogates that make up one character. -/
def isHighSurrogate (n : Nat) : Bool :=
  0xD800 ≤ n && n < 0xDC00

/-- The second of the two surrogates that make up one character. -/
def isLowSurrogate (n : Nat) : Bool :=
  0xDC00 ≤ n && n < 0xE000

/-- The text that pieces stand for; none when a surrogate lacks its partner. -/
def text? : List Piece → Option Text
  | [] => some []
  | .char c :: ps => (text? ps).map (c :: ·)
  | .code n :: ps =>
    if isHighSurrogate n then
      match ps with
      | .code m :: ps =>
        if isLowSurrogate m then
          (text? ps).map (Char.ofNat (0x10000 + (n - 0xD800) * 0x400 + (m - 0xDC00)) :: ·)
        else none
      | _ => none
    else if isLowSurrogate n then none
    else (text? ps).map (Char.ofNat n :: ·)

/-- The text that a JSON string denotes, when the whole input is one. -/
def decode? : Text → Option Text
  | '"' :: s =>
    match pieces? s with
    | some (ps, []) => text? ps
    | _ => none
  | _ => none

end Soql.Json.Quoted
