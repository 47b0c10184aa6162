import Soql.Json.Quoted
import Soql.Text.Blank

/-!
# Quoted literals

A literal in double quotes is a JSON string; one in single quotes has backslash escapes, of which
`\%` and `\_` keep their backslash because they belong to patterns. What looks double-quoted and
is no JSON string is read like the other kind. Text without quotes stands for itself.
-/

namespace Soql.Literal

/-- The text between two equal quotes at the ends of `s`. -/
def inside? : Text → Option Text
  | quote :: rest =>
    if (quote == '\'' || quote == '"') && rest.getLast? == some quote then some rest.dropLast
    else none
  | [] => none

/-- A text without the quotes at its ends, if it has them. -/
def trimQuotes (s : Text) : Text :=
  (inside? s).getD s

/-- A text has equal quotes at its ends. -/
def isQuoted (s : Text) : Bool :=
  (inside? s).isSome

/-- What a character behind a backslash stands for. -/
def ofEscape : Char → Text
  | 'n' => ['\n']
  | 'r' => ['\r']
  | 't' => ['\t']
  | 'b' => ['\x08']
  | 'f' => ['\x0c']
  | '%' => ['\\', '%']
  | '_' => ['\\', '_']
  | c => [c]

/-- A text with its backslash escapes resolved; a backslash at the end stays. -/
def unescape : Text → Text
  | '\\' :: c :: s => ofEscape c ++ unescape s
  | c :: s => c :: unescape s
  | [] => []

/-- The text that a literal denotes. -/
def unquote (s : Text) : Text :=
  let s := s.trim
  match inside? s with
  | none => s
  | some body => (Json.Quoted.decode? s).getD (unescape body)

end Soql.Literal
