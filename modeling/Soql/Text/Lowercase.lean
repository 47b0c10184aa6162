import Soql.Text.CaseTable

/-!
# Lower case

`Text.lowercase` is the full lower-casing of Unicode, without a language's own rules. Names of
objects and fields are looked up by it. Two characters do not go letter by letter: a capital I
with a dot becomes an i and a combining dot, and a capital sigma that ends a word becomes a final
sigma.
-/

namespace Soql.Text

/-- The lower case of one character, wherever it stands. -/
def lowercaseChar (c : Char) : Text :=
  if c.toNat < 128 then [c.toLower]
  else if c == 'İ' then ['i', '\u0307']
  else
    match caseRuns.find? fun run => run.first ≤ c.toNat && c.toNat ≤ run.last &&
        (c.toNat - run.first) % run.step == 0 with
    | some run => [Char.ofNat (c.toNat + run.distance).toNat]
    | none => [c]

/-- The first character that is not passed over is a letter with case. -/
def startsCased (s : Text) : Bool :=
  ((s.dropWhile isCaseIgnorable).head?).any isCased

/-- The lower case of `s` after the characters `before`, which stand in reverse. -/
def lowercaseAfter (before : Text) : Text → Text
  | [] => []
  | c :: s =>
    let here := if c == 'Σ' then
        if startsCased before && !startsCased s then ['ς'] else ['σ']
      else lowercaseChar c
    here ++ lowercaseAfter (c :: before) s

/-- The full lower case of a text. -/
def lowercase (s : Text) : Text :=
  lowercaseAfter [] s

example : lowercase "ÉCOLE K".toList = "école k".toList := by decide +kernel
example : lowercase "ΟΔΟΣ ΑΣ".toList = "οδος ας".toList := by decide +kernel

end Soql.Text
