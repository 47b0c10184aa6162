import Soql.Token.Phrase

/-!
# Comparison operators

The operators of a condition, with their spellings in the order in which they are tried: a longer
spelling comes before the ones it contains, so that `NOT IN` is not read as `NOT`. An operator is
compared with the texts of tokens, in any case; `Operator.spelling` is the form it is written in.
-/

namespace Soql

/-- A comparison operator. -/
inductive Operator
  | equal | notEqual | less | lessEqual | greater | greaterEqual
  | like | notLike
  | isIn | notIn
  | includes | excludes
  deriving DecidableEq

namespace Operator

/-- The words and symbols that spell an operator, in the order of their trial. -/
def spellings : List (Phrase × Operator) :=
  [ (["NOT".toList, "IN".toList], .notIn),
    (["INCLUDES".toList], .includes),
    (["EXCLUDES".toList], .excludes),
    (["IN".toList], .isIn),
    (["NOT".toList, "LIKE".toList], .notLike),
    (["LIKE".toList], .like),
    (["!=".toList], .notEqual),
    (["<>".toList], .notEqual),
    (["<=".toList], .lessEqual),
    ([">=".toList], .greaterEqual),
    (["=".toList], .equal),
    (["<".toList], .less),
    ([">".toList], .greater) ]

/-- The form in which an operator is written. -/
def spelling : Operator → Text
  | .equal => "=".toList
  | .notEqual => "!=".toList
  | .less => "<".toList
  | .lessEqual => "<=".toList
  | .greater => ">".toList
  | .greaterEqual => ">=".toList
  | .like => "LIKE".toList
  | .notLike => "NOT LIKE".toList
  | .isIn => "IN".toList
  | .notIn => "NOT IN".toList
  | .includes => "INCLUDES".toList
  | .excludes => "EXCLUDES".toList

/-- The right-hand side is a list or a subquery in parentheses. -/
def takesList : Operator → Bool
  | .isIn | .notIn | .includes | .excludes => true
  | _ => false

/-- `IN` and `NOT IN`, which a subquery may follow. -/
def isMembership : Operator → Bool
  | .isIn | .notIn => true
  | _ => false

/-- `LIKE` and `NOT LIKE`. -/
def isLike : Operator → Bool
  | .like | .notLike => true
  | _ => false

/-- The texts of the first tokens are `parts`, in any case. -/
def spelledBy : Phrase → List Token → Bool
  | [], _ => true
  | _ :: _, [] => false
  | part :: parts, t :: ts => Text.eqIgnoreCase t.text part && spelledBy parts ts

/-- The operator that the tokens start with, and how many tokens it has. -/
def matchAt? (ts : List Token) : Option (Operator × Nat) :=
  spellings.findSome? fun (parts, op) =>
    if spelledBy parts ts then some (op, parts.length) else none

/-- The operator that a text spells, with any blanks between its words. -/
def ofText? (s : Text) : Option Operator :=
  let ts := tokenize (Text.join [' '] (Text.words s))
  match matchAt? ts with
  | some (op, n) => if ts.length == n then some op else none
  | none => none

/-- What is said of a text that spells no operator. -/
def unknownMessage (s : Text) : Text :=
  "Unknown operator: ".toList ++ s

/-- A text that was to be an operator and spells none. -/
structure ParseError where
  text : Text
  deriving DecidableEq

/-- How the error is told. -/
def ParseError.message (e : ParseError) : Text :=
  unknownMessage e.text

/-- Reads an operator; the error keeps the text as it was given. -/
def parse (s : Text) : Except ParseError Operator :=
  match ofText? s with
  | some op => .ok op
  | none => .error ⟨s⟩

end Operator

end Soql
