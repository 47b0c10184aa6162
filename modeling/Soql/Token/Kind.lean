import Soql.Text.Basic

/-!
# Kinds of token

The vocabulary of a query. A word that spells a keyword, in any case, is that keyword; every other
word is an identifier. Where only the wording counts, as for the names of clauses, functions and
objects, keywords and identifiers are words alike.
-/

namespace Soql

/-- The words with a meaning of their own. -/
inductive Keyword
  | SELECT | FROM | WHERE | GROUP | BY | HAVING | ORDER | LIMIT | OFFSET | WITH | FOR
  | ASC | DESC | NULLS
  | AND | OR | NOT | IN | LIKE | INCLUDES | EXCLUDES
  | NULL | TRUE | FALSE
  deriving DecidableEq

namespace Keyword

/-- Every keyword. -/
def all : List Keyword :=
  [.SELECT, .FROM, .WHERE, .GROUP, .BY, .HAVING, .ORDER, .LIMIT, .OFFSET, .WITH, .FOR,
    .ASC, .DESC, .NULLS,
    .AND, .OR, .NOT, .IN, .LIKE, .INCLUDES, .EXCLUDES,
    .NULL, .TRUE, .FALSE]

theorem mem_all (k : Keyword) : k ∈ all := by
  cases k <;> simp [all]

/-- A keyword in capitals. -/
def spelling : Keyword → Text
  | .SELECT => "SELECT".toList
  | .FROM => "FROM".toList
  | .WHERE => "WHERE".toList
  | .GROUP => "GROUP".toList
  | .BY => "BY".toList
  | .HAVING => "HAVING".toList
  | .ORDER => "ORDER".toList
  | .LIMIT => "LIMIT".toList
  | .OFFSET => "OFFSET".toList
  | .WITH => "WITH".toList
  | .FOR => "FOR".toList
  | .ASC => "ASC".toList
  | .DESC => "DESC".toList
  | .NULLS => "NULLS".toList
  | .AND => "AND".toList
  | .OR => "OR".toList
  | .NOT => "NOT".toList
  | .IN => "IN".toList
  | .LIKE => "LIKE".toList
  | .INCLUDES => "INCLUDES".toList
  | .EXCLUDES => "EXCLUDES".toList
  | .NULL => "NULL".toList
  | .TRUE => "TRUE".toList
  | .FALSE => "FALSE".toList

/-- The keyword that a word spells in some case. -/
def ofWord? (word : Text) : Option Keyword :=
  all.find? fun k => Text.eqIgnoreCase k.spelling word

end Keyword

/-- What a token is. -/
inductive Kind
  | keyword (k : Keyword)
  | identifier
  | equal | bangEqual | lessGreater | less | lessEqual | greater | greaterEqual
  | plus | minus | star
  | openParen | closeParen | comma | dot | colon
  | number
  | quoted
  /-- A quoted text whose closing quote is missing. -/
  | unclosed
  /-- Characters that no token starts with. -/
  | unknown
  deriving DecidableEq

namespace Kind

/-- The kind of a word. -/
def ofWord (word : Text) : Kind :=
  match Keyword.ofWord? word with
  | some k => .keyword k
  | none => .identifier

/-- Identifiers and all keywords. -/
def isWord : Kind → Bool
  | .keyword _ | .identifier => true
  | _ => false

/-- The comparisons written as symbols. -/
def isComparison : Kind → Bool
  | .equal | .bangEqual | .lessGreater | .less | .lessEqual | .greater | .greaterEqual => true
  | _ => false

end Kind

end Soql
