import Soql.Proofs.Scanner.Literal
import Soql.Proofs.Scanner.Query
import Soql.Scanner.Builder

/-!
# Composing and importing never slice out of range

Every state is composed, and every text imported into every state, with slices that are in range;
the query, and the state and report, are those that the tokens alone give.
-/

namespace Soql.Scanner

open Builder Literal Token

section Compose

/-- A value is written without reading outside it. -/
theorem writeValue?_eq (value : Text) : writeValue? value = some (writeValue value) := by
  rw [writeValue?, writeValue, unquote?_eq]
  simp only [Option.bind_eq_bind, Option.bind_some]
  split
  · rfl
  · split <;> rfl

/-- So is each item of a list. -/
theorem writeList?_eq (value : Text) : writeList? value = some (writeList value) := by
  rw [writeList?, writeList, splitItems?_eq]
  split
  · rfl
  · simp only [Option.bind_eq_bind, Option.bind_some, mapM_eq writeValue?_eq]

theorem writeFilter?_eq (f : Filter) : writeFilter? f = some f.write := by
  rw [writeFilter?, Filter.write, writeList?_eq, writeValue?_eq]
  split <;> rfl

/-- So are the filters of a state, each by its operator. -/
theorem writeFilters?_eq (filters : List Filter) :
    writeFilters? filters = some (writeFilters filters) := by
  rw [writeFilters?, mapM_eq writeFilter?_eq]
  rfl

/-- Every state is composed within its texts, to its query. -/
theorem compose?_eq (s : State) : compose? s = some s.query := by
  rw [compose?, State.query, State.arguments, State.conditionClause, writeFilters?_eq]
  split <;> rfl

end Compose

section Import

/-- Quotes were taken off exactly when the text got shorter. -/
theorem byteSize_trimQuotes_beq (s : Text) :
    ((trimQuotes s).byteSize == s.byteSize) = !isQuoted s := by
  rw [trimQuotes, isQuoted]
  cases hinside : inside? s with
  | none => simp
  | some body =>
    have := byteSize_of_inside? hinside
    simp only [Option.getD_some, Option.isSome_some, Bool.not_true, beq_eq_false_iff_ne]
    omega

/-- A literal is imported without reading outside it. -/
theorem literalValue?_eq (inList : Bool) (raw : Text) :
    literalValue? inList raw = some (literalValue inList raw) := by
  rw [literalValue?, literalValue, unquote?_eq]
  simp only [Option.bind_eq_bind, Option.bind_some, trimQuotes?_eq, byteSize_trimQuotes_beq]

/-- So is the right-hand side of a condition, be it a list, a subquery or one value. -/
theorem filterValue?_eq (operator : Operator) (raw : Text) :
    filterValue? operator raw = some (filterValue operator raw) := by
  rw [filterValue?, filterValue, subqueryBody?_eq, stripOuterParens?_eq, literalValue?_eq]
  split
  · simp only [Option.bind_eq_bind, Option.bind_some]
    split
    · rfl
    · cases Soql.stripOuterParens? raw with
      | none => rfl
      | some list =>
        simp only [splitItems?_eq, Option.bind_some, mapM_eq (literalValue?_eq true)]
  · rfl

/-- The clauses of a subquery are a slice behind its object. -/
theorem clausesAfterFrom?_eq (body : Text) :
    clausesAfterFrom? body = some (clausesAfterFrom body) := by
  have hlies := lies_tokenize body
  have hfind := find?_place [Keyword.FROM.spelling] hlies
  rw [Text.byteSize_nil] at hfind
  rw [clausesAfterFrom?, located_eq, hfind, clausesAfterFrom, Phrase.find?]
  have hfound := hlies.cutTop (Phrase.isAt [Keyword.FROM.spelling]) 0
  generalize Token.cutTop (Phrase.isAt [Keyword.FROM.spelling]) 0 (tokenize body) = cut at hfound
  obtain ⟨skipped, found⟩ := cut
  rcases found with _ | ⟨t, _ | ⟨object, rest⟩⟩
  · rfl
  · rfl
  · obtain ⟨behind, hbody, hbehind⟩ := (hfound.drop 2).text
    simp only [List.take_succ_cons, List.take_zero, List.drop_succ_cons, List.drop_zero,
      List.nil_append] at hbody
    have hslice : body.slice? ((render skipped).byteSize + t.written.byteSize +
        object.gap.byteSize + object.text.byteSize) body.byteSize =
        some (render rest ++ behind) := by
      rw [Text.slice?_eq_some_iff]
      refine ⟨render skipped ++ render [t, object], [], ?_, ?_, ?_⟩
      · rw [hbody, List.append_nil, List.append_assoc _ (render rest)]
      · simp [written, Nat.add_assoc]
      · rw [← List.append_assoc, ← hbody]
    simp only [place_cons, List.nil_append, Option.bind_eq_bind, Option.bind_some, hslice]
    rw [Text.trim_append_of_blank _ fun c hc => Text.isBlank_of_isGap (hbehind c hc)]

/-- A subquery is read of its parentheses within the item. -/
theorem subqueryOf?_eq (item : Text) : subqueryOf? item = some (Subquery.ofItem? item) := by
  rw [subqueryOf?, Subquery.ofItem?, subqueryBody?_eq]
  simp only [Option.bind_eq_bind, Option.bind_some]
  cases Soql.subqueryBody? item with
  | none => rfl
  | some body =>
    simp only [query?_eq, Option.bind_some, clausesAfterFrom?_eq]
    cases (Query.ofText body).objectName <;> rfl

/-- What an item of the select list is imported as. -/
def itemOf (text : Text) : Item where
  text
  shape := SelectItem.ofText text
  subquery := Subquery.ofItem? text

/-- Only a `(SELECT ...)` becomes a subquery. -/
theorem ofItem?_eq_none {item : Text} (h : SelectItem.ofText item ≠ .subquery) :
    Subquery.ofItem? item = none := by
  cases hbody : Soql.subqueryBody? item with
  | none => rw [Subquery.ofItem?, hbody]; rfl
  | some body => exact absurd (by rw [SelectItem.ofText, hbody]; rfl) h

theorem item?_eq (text : Text) : item? text = some (itemOf text) := by
  rw [item?, selectItem?_eq]
  simp only [Option.bind_eq_bind, Option.bind_some, beq_iff_eq]
  split
  · rw [subqueryOf?_eq]
    rfl
  · next h =>
    rw [itemOf, ofItem?_eq_none h]

@[simp] theorem text_itemOf (text : Text) : (itemOf text).text = text := rfl

@[simp] theorem shape_itemOf (text : Text) : (itemOf text).shape = SelectItem.ofText text := rfl

@[simp] theorem subquery_itemOf (text : Text) :
    (itemOf text).subquery = Subquery.ofItem? text := rfl

@[simp] theorem isSupported_itemOf (text : Text) :
    (itemOf text).isSupported = isSupported text := rfl

theorem filter?_eq (c : Condition × Nat) :
    filter? c = some (Filter.ofCondition (c.2 + 1) c.1) := by
  rw [filter?, filterValue?_eq]
  rfl

theorem orderBy?_eq (item : Text) : orderBy? item = some (OrderBy.ofItem item) := by
  rw [orderBy?, stripOrderDirection?_eq, located_eq, tokens_place]
  rfl

/-- Whether a text can be imported is found out within it. -/
theorem importable?_eq (text : Text) : importable? text = some (importable (tokenize text)) := by
  have hobject := objectName?_place (lies_tokenize text)
  rw [Text.byteSize_nil] at hobject
  rw [importable?, importable, located_eq, tokens_place, clauseOf?_eq, hobject]
  split
  · rfl
  · split
    · rfl
    · simp only [Option.bind_eq_bind, Option.bind_some]
      split
      · rfl
      · cases Token.objectName? (tokenize text) <;> rfl

/-- State and report are read within the text. -/
theorem readState?_eq (previous : State) (object text : Text) :
    readState? previous object text =
      some (stateOf previous object (tokenize text), reportOf (tokenize text)) := by
  have hfragments := ofClause?_eq splitConditions?_eq (Clause.condition.body? (tokenize text))
  have hordering := ofClause?_eq splitItems?_eq (Clause.ordering.body? (tokenize text))
  rw [readState?]
  simp only [query?_eq, mapM_eq item?_eq, clauseOf?_eq, hfragments, hordering,
    mapM_eq condition?_eq, mapM_eq filter?_eq, mapM_eq orderBy?_eq, Option.bind_eq_bind,
    Option.bind_some]
  have horder (items : List Text) :
      ((items.take 1).map OrderBy.ofItem).head? = items.head?.map OrderBy.ofItem := by
    cases items <;> rfl
  simp only [map_fst_filter_zip Option.isNone, horder, List.filter_map, List.filterMap_map, List.map_map]
  rw [stateOf, reportOf]
  simp [Query.ofText, Function.comp_def, located_eq, fragments, orderItems, usesOr]

/-- Every text is imported within its bounds, to the same state and report or the same error. -/
theorem import?_eq (text : Text) (previous : State) : import? text previous =
    some (State.import? text previous) := by
  rw [Scanner.import?, State.import?, importable?_eq]
  simp only [Option.bind_eq_bind, Option.bind_some]
  cases importable (tokenize text) with
  | error e => rfl
  | ok object =>
    simp only [readState?_eq]
    rfl

end Import

end Soql.Scanner
