import Soql.Token.Kind

/-!
# Tokens

A token carries its text and the blanks in front of it. A stretch of tokens therefore renders back
to the text it was read from, and cutting a query apart is cutting a list of tokens: no offset can
fall inside a character. Offsets are derived from the rendered text where they are wanted.
-/

namespace Soql

/-- A token, with the blanks that separate it from what stands before it. -/
structure Token where
  gap : Text
  kind : Kind
  text : Text
  deriving DecidableEq

/-- Byte offsets of the first character of a stretch of text and of the first one behind it. -/
structure Span where
  start : Nat
  stop : Nat
  deriving DecidableEq

namespace Token

/-- The text of a token and of the blanks in front of it. -/
def written (t : Token) : Text :=
  t.gap ++ t.text

/-- The text of a stretch of tokens, blanks included. -/
def render (ts : List Token) : Text :=
  ts.flatMap written

@[simp] theorem render_nil : render [] = [] := rfl

@[simp] theorem render_cons (t : Token) (ts : List Token) :
    render (t :: ts) = t.written ++ render ts := rfl

@[simp] theorem render_append (ts us : List Token) : render (ts ++ us) = render ts ++ render us := by
  simp [render]

/-- Where each token's own text lies, when the first token's blanks start at `offset`. -/
def spans (offset : Nat) : List Token → List Span
  | [] => []
  | t :: ts =>
    let start := offset + t.gap.byteSize
    let stop := start + t.text.byteSize
    ⟨start, stop⟩ :: spans stop ts

end Token

end Soql
