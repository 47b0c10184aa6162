import Soql.Proofs.Query.Clause
import Soql.Token.Parts

/-!
# Parts of a text, read and written

`splitParts` trims the stretches between separators and drops the empty ones. Parts that are
written with separators between them are read back one by one (`splitParts_join`), provided that
each of them keeps the separator inside parentheses and closes what it opens. A group in
parentheses is opened exactly when its first parenthesis closes at its end.
-/

namespace Soql

/-- Separates the items of a list. -/
def Kind.isComma (k : Kind) : Bool :=
  k == .comma

/-- Separates conditions. -/
def Kind.isConnective (k : Kind) : Bool :=
  k == .keyword .AND || k == .keyword .OR

open Kind Token

theorem splitItems_eq (s : Text) : splitItems s = splitParts (fun t => Kind.isComma t.kind) s := rfl

theorem splitConditions_eq (s : Text) :
    splitConditions s = splitParts (fun t => Kind.isConnective t.kind) s := rfl

/-- Any tokens fall into parts at top level. -/
theorem exists_splits (sep : Kind → Bool) (hsep : sep .openParen = false) (ts : List Token) :
    ∃ part parts, Splits sep 0 ts part parts :=
  ⟨_, _, (splitTop_eq_iff hsep).1 rfl⟩

/-- The parts of a text, read off the parts of its tokens. -/
theorem splitParts_of_splits {sep : Kind → Bool} (hsep : sep .openParen = false) {s : Text}
    {part : List Token} {parts : List (List Token)} (h : Splits sep 0 (tokenize s) part parts) :
    splitParts (fun t => sep t.kind) s =
      ((part :: parts).map fun ts => (render ts).trim).filter (!·.isEmpty) := by
  rw [splitParts, (splitTop_eq_iff hsep).2 h]

/-- A text without a separator at top level is its only part. -/
theorem splitParts_of_clear {sep : Kind → Bool} (hsep : sep .openParen = false) {s : Text}
    (h : s.Tight) (hne : s ≠ []) (hclear : Clear (headIs sep) 0 (kinds (tokenize s)) []) :
    splitParts (fun t => sep t.kind) s = [s] := by
  rw [splitParts_of_splits hsep (.last hclear), List.map_singleton, render_tokenize h, h.trim_eq]
  simp [hne]

/-- Blanks around the parentheses do not matter. -/
theorem stripOuterParens?_of_trim {s t : Text} (h : s.trim = t.trim) :
    stripOuterParens? s = stripOuterParens? t := by
  rw [stripOuterParens?, h, stripOuterParens?]

theorem stripOuterParens?_trim (s : Text) : stripOuterParens? s.trim = stripOuterParens? s :=
  stripOuterParens?_of_trim (Text.trim_trim s)

/-- Neither do blanks around a subquery. -/
theorem subqueryBody?_trim (s : Text) : subqueryBody? s.trim = subqueryBody? s := by
  rw [subqueryBody?, stripOuterParens?_trim, subqueryBody?]

/-- A text is taken out of parentheses exactly if its first and last tokens are partners. -/
theorem stripOuterParens?_eq_some_iff {s b : Text} : stripOuterParens? s = some b ↔
    ∃ (o : Token) (inside : List Token) (c : Token), tokenize s.trim = o :: (inside ++ [c]) ∧
      o.kind = .openParen ∧ c.kind = .closeParen ∧ level? 0 (kinds inside) = some 0 ∧
      b = (render inside).trim := by
  rw [stripOuterParens?]
  constructor
  · intro h
    split at h
    · next t ts htok =>
      split at h
      · next hopen =>
        split at h
        · next inside hclose =>
          obtain ⟨c, rfl, hc, hlevel⟩ := closeGroup?_eq_some_iff.1 hclose
          exact ⟨t, inside, c, htok, by simpa using hopen, hc, hlevel, (Option.some.inj h).symm⟩
        · cases h
      · cases h
    · cases h
  · rintro ⟨o, inside, c, htok, ho, hc, hlevel, rfl⟩
    have hclose : closeGroup? 0 (inside ++ [c]) = some (inside, []) :=
      closeGroup?_eq_some_iff.2 ⟨c, rfl, hc, hlevel⟩
    rw [htok]
    simp [ho, hclose]

end Soql
