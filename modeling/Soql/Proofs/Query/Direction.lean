import Soql.Proofs.Token.Join
import Soql.Query.SelectItem

/-!
# Directions of sorting

An item to sort by ends where its direction starts: at the first of `ASC`, `DESC` and `NULLS`
outside parentheses.
-/

namespace Soql

open Kind Token

/-- A word that starts the direction of an item to sort by. -/
def Kind.isDirection (k : Kind) : Bool :=
  k == .keyword .ASC || k == .keyword .DESC || k == .keyword .NULLS

/-- The direction is what stands behind the field at top level. -/
theorem stripOrderDirection_eq (item : Text) : stripOrderDirection item =
    (render (cutTop (fun ts => headIs Kind.isDirection (kinds ts)) 0 (tokenize item)).1).trim := by
  have hfound : (fun ts : List Token => ts.head?.any Token.isDirection) =
      fun ts => headIs Kind.isDirection (kinds ts) := by
    funext ts
    cases ts <;> rfl
  rw [stripOrderDirection, hfound]

/-- A field is what is left of it with a direction behind it. -/
theorem stripOrderDirection_append {field item : Text} {ts : List Token} (hfield : Piece field)
    (htok : tokenize item = tokenize field ++ ts) (hbal : Balanced (kindsOf field))
    (hclear : Clear (headIs Kind.isDirection) 0 (kindsOf field) [])
    (hdirection : headIs Kind.isDirection (kinds ts) = true) : stripOrderDirection item = field := by
  have hcut : cutTop (fun ts => headIs Kind.isDirection (kinds ts)) 0 (tokenize item) =
      (tokenize field, ts) :=
    cutTop_eq_iff.2 ⟨htok, hclear.head _, .inr ⟨depth_of_level? hbal, hdirection⟩⟩
  rw [stripOrderDirection_eq, hcut, hfield.render, hfield.tight.trim_eq]

/-- What is left of an item has no direction outside parentheses. -/
theorem exists_stripOrderDirection (item : Text) : ∃ as bs, tokenize item = as ++ bs ∧
    Clear (headIs Kind.isDirection) 0 (kinds as) (kinds bs) ∧
      (bs = [] ∨ depth 0 (kinds as) = 0 ∧ headIs Kind.isDirection (kinds bs) = true) ∧
        stripOrderDirection item = (render as).trim := by
  obtain ⟨as, bs, hcut⟩ : ∃ as bs, cutTop (fun ts => headIs Kind.isDirection (kinds ts)) 0
      (tokenize item) = (as, bs) := ⟨_, _, rfl⟩
  obtain ⟨htok, hclear, hstop⟩ := cutTop_eq_iff.1 hcut
  exact ⟨as, bs, htok, hclear, hstop, by rw [stripOrderDirection_eq, hcut]⟩

end Soql
