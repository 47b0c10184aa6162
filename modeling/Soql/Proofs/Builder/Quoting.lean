import Soql.Proofs.Builder.Stability
import Soql.Proofs.Text.FoldCase

/-!
# Quotes around imported values

The state holds the text that a literal denotes, and whether the literal was quoted is guessed from
that text when it is written again. A text that spells a value of another kind is written without
quotes; `Literal.isBare` lists these, and the quotes of all other texts come back.
-/

namespace Soql

open Kind Token

namespace Literal

/-- A quoted text and nothing else. -/
def IsQuotedText (w : Text) : Prop :=
  tokenize w = [⟨[], .quoted, w⟩]

instance (w : Text) : Decidable (IsQuotedText w) :=
  inferInstanceAs (Decidable (_ = _))

/-- A text that spells a value that is written without quotes. -/
def isBare (s : Text) : Bool :=
  Text.eqIgnoreCase s "null".toList || Text.eqIgnoreCase s "true".toList ||
    Text.eqIgnoreCase s "false".toList || Date.isLiteral s || isBindVariable s || isCanonicalNumber s

theorem writeText_of_not_bare {s : Text} (h : isBare s = false) :
    writeText s = Json.Quoted.encode s := by
  simp only [isBare, Bool.or_eq_false_iff] at h
  obtain ⟨⟨⟨⟨⟨hnull, htrue⟩, hfalse⟩, hdate⟩, hbind⟩, hnumber⟩ := h
  rw [writeText, quoteText, hnull, hdate, hbind, htrue, hfalse, hnumber]
  rfl

/-- What is written bare has no quotes, and neither parentheses nor commas. -/
theorem flat_of_bare {s : Text} (h : isBare s = true) : ∀ c ∈ writeText s, c ∉ flatExceptions := by
  rw [writeText, quoteText]
  split
  · decide
  · next hnull =>
    split
    · next hbare =>
      rw [Bool.or_eq_true] at hbare
      exact hbare.elim Date.not_mem_of_isLiteral not_mem_of_isBindVariable
    · next hplain =>
      split
      · next hbool =>
        rw [Bool.or_eq_true, Text.eqIgnoreCase_iff, Text.eqIgnoreCase_iff] at hbool
        rcases hbool with hbool | hbool <;> (rw [hbool]; decide)
      · next hbool =>
        split
        · next hnumber => exact not_mem_of_number hnumber
        · next hnumber =>
          simp only [isBare, Bool.or_eq_true] at h hplain hbool
          tauto

/-- Without its blanks, what is written is a quoted text exactly when the text is not bare. -/
theorem isQuotedText_writeText_iff {s : Text} :
    IsQuotedText (writeText s).trim ↔ isBare s = false := by
  cases hbare : isBare s with
  | true =>
    refine iff_of_false (fun hquoted => ?_) (by simp)
    obtain ⟨g, b, hs, -, -⟩ := Text.exists_eq_append_trim (writeText s)
    have hchars : ∀ c ∈ (writeText s).trim, c ∉ flatExceptions := fun c hc =>
      flat_of_bare hbare c (by rw [hs]; simp [hc])
    have := isFlat_of_chars hchars .quoted (by rw [hquoted]; simp)
    cases this
  | false =>
    refine iff_of_true ?_ rfl
    rw [writeText_of_not_bare hbare, (piece_encode s).tight.trim_eq]
    exact tokenize_encode s

/-- A text that is written and read again keeps its characters, up to the case of null and booleans
and to blanks around relative dates. -/
theorem eqIgnoreCase_unquote_writeText (s : Text) :
    Text.eqIgnoreCase (unquote (writeText s)).trim s.trim = true := by
  have hform := form s
  generalize writeText s = w at hform
  rw [Text.eqIgnoreCase_iff]
  cases hform with
  | word k value spells =>
    rw [unquote_of_chars (by rcases value with rfl | rfl | rfl <;> decide), Text.trim_trim,
      Text.trim_foldCase, ← Text.trim_foldCase s, Text.eqIgnoreCase_iff.1 spells, Text.trim_foldCase,
      Text.foldCase_foldCase]
  | date h => rw [unquote_of_chars (Date.not_mem_of_isLiteral h), Text.trim_trim]
  | bind h => rw [unquote_of_chars (not_mem_of_isBindVariable h), Text.trim_trim]
  | number h => rw [unquote_of_chars (not_mem_of_number h), Text.trim_trim]
  | text => rw [unquote_encode]

end Literal

namespace Builder

open Literal

/-- What is written of the filter that a condition with one value becomes. -/
theorem Filter.right_ofCondition {c : Condition} (hop : c.operator.takesList = false) (n : Nat) :
    (Filter.ofCondition n c).right = writeText (unquote c.rawValue) := by
  have hvalue : (Filter.ofCondition n c).value = literalValue false c.rawValue := by
    rw [Filter.ofCondition, filterValue, hop]
    rfl
  rw [Filter.right_single hop, hvalue, unquote_literalValue]

namespace State

/-- Conditions become filters one by one. -/
theorem getElem?_filters_import? {text : Text} {previous s : State} {r : Report}
    (h : import? text previous = .ok (s, r)) (k : Nat) : s.filters[k]? =
      (Query.ofText text).conditions[k]?.map (Filter.ofCondition (k + 1)) := by
  obtain ⟨object, -, -, -, rfl, -⟩ := exists_of_import? h
  change ((((fragments (tokenize text)).filterMap Condition.ofText?).zipIdx.map fun p =>
    Filter.ofCondition (p.2 + 1) p.1)[k]?) = _
  rw [List.getElem?_map, List.getElem?_zipIdx, Option.map_map, Query.ofText, conditions_ofTokens,
    Nat.zero_add]
  rfl

/-- The filter of a condition with one value is written as a condition with the same field and
operator. Its value has the characters of the value that was imported, up to the case of null and
booleans and to blanks around relative dates; it is one quoted text, with the same text inside,
exactly when that text is not bare. -/
theorem isQuotedText_import?_iff {text : Text} {previous s : State} {r : Report}
    (h : import? text previous = .ok (s, r)) {k : Nat} {c : Condition}
    (hc : (Query.ofText text).conditions[k]? = some c) (hop : c.operator.takesList = false) :
    ∃ f w, s.filters[k]? = some f ∧ Condition.ofText? f.write = some { c with rawValue := w } ∧
      Text.eqIgnoreCase (unquote w).trim (unquote c.rawValue).trim = true ∧
        (IsQuotedText w ∧ unquote w = unquote c.rawValue ↔ isBare (unquote c.rawValue) = false) := by
  obtain ⟨object, hstretch, -, -, -, -⟩ := exists_of_import? h
  have hread : c.Read := Condition.read_of_mem hstretch (List.mem_of_getElem? hc)
  have hcondition : (Filter.ofCondition (k + 1) c).condition =
      { c with rawValue := writeText (unquote c.rawValue) } := by
    rw [Filter.condition, Filter.right_ofCondition hop]
    exact congrArg (Condition.mk · _ _) hread.field.tight.trim_eq
  have hwrite : Condition.ofText? (Filter.ofCondition (k + 1) c).write =
      some { c with rawValue := (writeText (unquote c.rawValue)).trim } := by
    rw [Filter.write_eq, hcondition]
    exact Condition.ofText?_write (c := { c with rawValue := writeText (unquote c.rawValue) })
      hread.field hread.isField
  refine ⟨Filter.ofCondition (k + 1) c, (writeText (unquote c.rawValue)).trim, ?_, hwrite, ?_, ?_⟩
  · rw [getElem?_filters_import? h, hc]
    rfl
  · rw [unquote_trim]
    exact eqIgnoreCase_unquote_writeText _
  · rw [isQuotedText_writeText_iff, unquote_trim, and_iff_left_iff_imp]
    intro hnot
    rw [writeText_of_not_bare hnot, unquote_encode]

/-- A name that needs its quotes keeps them. -/
theorem isQuotedText_import?_iff_apostrophe :
    (import? "SELECT Id FROM Account WHERE Name = 'O\\'Brien'".toList initial =
      .ok (accountNamed "O'Brien".toList, ⟨[], [], [], [], false⟩)) ∧
    (Query.ofText "SELECT Id FROM Account WHERE Name = 'O\\'Brien'".toList).conditions[0]? =
      some ⟨"Name".toList, .equal, "'O\\'Brien'".toList⟩ ∧
    Operator.equal.takesList = false ∧
    ∃ f w, (accountNamed "O'Brien".toList).filters[0]? = some f ∧
      Condition.ofText? f.write = some ⟨"Name".toList, .equal, w⟩ ∧
      Text.eqIgnoreCase (unquote w).trim (unquote "'O\\'Brien'".toList).trim = true ∧
        (IsQuotedText w ∧ unquote w = unquote "'O\\'Brien'".toList ↔
          isBare (unquote "'O\\'Brien'".toList) = false) := by
  have himport : import? "SELECT Id FROM Account WHERE Name = 'O\\'Brien'".toList initial =
      .ok (accountNamed "O'Brien".toList, ⟨[], [], [], [], false⟩) := by decide +kernel
  have hcondition : (Query.ofText
      "SELECT Id FROM Account WHERE Name = 'O\\'Brien'".toList).conditions[0]? =
        some ⟨"Name".toList, .equal, "'O\\'Brien'".toList⟩ := by decide +kernel
  exact ⟨himport, hcondition, rfl, isQuotedText_import?_iff himport hcondition rfl⟩

/-- A quoted number is written without its quotes, and no loss is reported. -/
theorem not_isQuotedText_import? :
    ¬ ∀ (text : Text) (previous s : State) (r : Report), import? text previous = .ok (s, r) →
      ∀ (k : Nat) (c : Condition), (Query.ofText text).conditions[k]? = some c →
        c.operator.takesList = false → IsQuotedText c.rawValue →
          ∃ f w, s.filters[k]? = some f ∧
            Condition.ofText? f.write = some { c with rawValue := w } ∧
              IsQuotedText w ∧ unquote w = unquote c.rawValue := by
  intro h
  have himport : import? "SELECT Id FROM Account WHERE Name = '5'".toList initial =
      .ok (accountNamed "5".toList, ⟨[], [], [], [], false⟩) := by decide +kernel
  obtain ⟨f, w, hf, hw, hquoted, -⟩ := h _ _ _ _ himport 0 ⟨"Name".toList, .equal, "'5'".toList⟩
    (by decide +kernel) rfl (by decide +kernel)
  obtain rfl : ⟨"f1".toList, "Name".toList, .equal, "5".toList⟩ = f := Option.some.inj hf
  obtain rfl : "5".toList = w := by
    have hread : Condition.ofText? (Filter.write ⟨"f1".toList, "Name".toList, .equal, "5".toList⟩) =
        some ⟨"Name".toList, .equal, "5".toList⟩ := by decide +kernel
    rw [hread] at hw
    exact congrArg Condition.rawValue (Option.some.inj hw)
  revert hquoted
  decide +kernel

end State

end Builder

end Soql
