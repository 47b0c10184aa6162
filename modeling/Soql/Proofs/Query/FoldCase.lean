import Soql.Proofs.Query.Similar
import Soql.Proofs.Token.FoldCase

/-!
# Taking a query apart in any case

A query in lower case is taken apart into the same clauses, with each text in lower case:
`Query.ofText_foldCase`. Two queries that differ in ASCII case only have one lower case between
them, so they are taken apart alike (`Query.similar_of_eqIgnoreCase`).
-/

namespace Soql

open Token List

/-- A condition with its texts replaced. -/
def Condition.map (f : Text → Text) (c : Condition) : Condition :=
  { c with field := f c.field, rawValue := f c.rawValue }

/-- A query with its texts replaced. -/
def Query.map (f : Text → Text) (q : Query) : Query :=
  { q with
    objectName := q.objectName.map f
    selectItems := q.selectItems.map f
    groupItems := q.groupItems.map f
    orderItems := q.orderItems.map f
    conditions := q.conditions.map (Condition.map f)
    rawLimit := q.rawLimit.map f
    rawOffset := q.rawOffset.map f }

/-- Queries with the same image are similar. -/
theorem Query.similar_of_map_eq {f : Text → Text} {p q : Query} (h : p.map f = q.map f) :
    Query.Similar (fun s t => f s = f t) p q := by
  have hlist {α β : Type} {g : α → β} {xs ys : List α} (h : xs.map g = ys.map g) :
      Forall₂ (fun x y => g x = g y) xs ys := by
    rw [← forall₂_eq_eq_eq, forall₂_map_left_iff, forall₂_map_right_iff] at h
    exact h
  have hoption {x y : Option Text} (h : x.map f = y.map f) :
      Option.Rel (fun s t => f s = f t) x y := by
    cases x <;> cases y <;> simp_all
  injection h with h₁ h₂ h₃ h₄ h₅ h₆ h₇ h₈ h₉ h₁₀ h₁₁ h₁₂
  exact
    { objectName := hoption h₁
      selectItems := hlist h₂
      groupItems := hlist h₃
      hasGroupBy := h₄
      hasHaving := h₅
      hasOrderBy := h₆
      orderItems := hlist h₇
      conditions := (hlist h₈).imp fun c d hcd => by
        injection hcd with hfield hoperator hvalue
        exact ⟨hfield, hoperator, hvalue⟩
      limit := h₉
      offset := h₁₀
      rawLimit := hoption h₁₁
      rawOffset := hoption h₁₂ }

namespace Token

/-- Folded tokens are alike the tokens. -/
theorem alike_foldCase (ts : List Token) : Forall₂ Alike (ts.map foldCase) ts := by
  rw [forall₂_map_left_iff]
  exact forall₂_same.2 fun t _ => ⟨rfl, fun _ => by
    rw [foldCase_text, Text.eqIgnoreCase_foldCase_left, Text.eqIgnoreCase_iff]⟩

theorem kinds_foldCase (ts : List Token) : kinds (ts.map foldCase) = kinds ts :=
  kinds_eq_of_alike (alike_foldCase ts)

end Token

/-- Texts that differ in case have tokens of the same kinds. -/
theorem kindsOf_of_eqIgnoreCase {s t : Text} (h : Text.eqIgnoreCase s t = true) :
    kindsOf s = kindsOf t := by
  rw [kindsOf, ← kinds_foldCase, ← tokenize_foldCase, Text.eqIgnoreCase_iff.1 h, tokenize_foldCase,
    kinds_foldCase, kindsOf]

@[simp] theorem Path.length?_foldCase (ts : List Token) :
    Path.length? (ts.map Token.foldCase) = Path.length? ts :=
  Path.length?_congr (kinds_foldCase ts)

namespace SelectItem

/-- A path is one in any case. -/
theorem ofPath_foldCase (ts : List Token) : ofPath (ts.map Token.foldCase) = ofPath ts := by
  rw [ofPath, Path.length?_foldCase, length_map, ofPath]

theorem ofCall_foldCase (function : Text) : ofCall (Text.foldCase function) = ofCall function := by
  have heq : Text.eqIgnoreCase (Text.foldCase function) = Text.eqIgnoreCase function :=
    funext (Text.eqIgnoreCase_foldCase_left function)
  rw [ofCall, heq, ofCall]

/-- An item of a selection is of the same sort in any case. -/
@[simp] theorem ofText_foldCase (item : Text) : ofText (Text.foldCase item) = ofText item := by
  rw [ofText, subqueryBody?_foldCase, tokenize_foldCase, Option.isSome_map, ofText]
  congr 1
  rcases tokenize item with _ | ⟨t, _ | ⟨paren, ts⟩⟩
  · rfl
  · exact ofPath_foldCase [t]
  · exact if_congr Iff.rfl (ofCall_foldCase t.text) (ofPath_foldCase (t :: paren :: ts))

end SelectItem

theorem trim_render_foldCase (ts : List Token) :
    (render (ts.map Token.foldCase)).trim = Text.foldCase (render ts).trim := by
  rw [render_foldCase, Text.trim_foldCase]

/-- An alias is taken off in any case. -/
@[simp] theorem stripAlias_foldCase (item : Text) :
    stripAlias (Text.foldCase item) = Text.foldCase (stripAlias item) := by
  simp only [stripAlias, tokenize_foldCase, Path.length?_foldCase, Text.trim_foldCase]
  cases Path.length? (tokenize item) with
  | none => rfl
  | some n =>
    simp only [← map_drop, ← map_take, trim_render_foldCase]
    rcases (tokenize item).drop n with _ | ⟨t, _ | ⟨u, ts⟩⟩
    · rfl
    · exact (apply_ite Text.foldCase _ _ _).symm
    · rfl

@[simp] theorem stripOrderDirection_foldCase (item : Text) :
    stripOrderDirection (Text.foldCase item) = Text.foldCase (stripOrderDirection item) := by
  have hfound (ts : List Token) : (ts.map Token.foldCase).head?.any Token.isDirection =
      ts.head?.any Token.isDirection := by
    cases ts <;> rfl
  rw [stripOrderDirection, tokenize_foldCase, cutTop_foldCase hfound, stripOrderDirection]
  exact trim_render_foldCase _

/-- A grouping is expanded to the folded columns. -/
@[simp] theorem expandGrouping_foldCase (item : Text) :
    expandGrouping (Text.foldCase item) = (expandGrouping item).map Text.foldCase := by
  simp only [expandGrouping, tokenize_foldCase, ← map_drop, render_foldCase,
    startsGroupingCall_congr (alike_foldCase (tokenize item)), stripOuterParens?_foldCase]
  split
  · cases stripOuterParens? (render ((tokenize item).drop 1)) with
    | none => rfl
    | some arguments => exact splitItems_foldCase arguments
  · rfl

theorem Operator.spelledBy_foldCase (parts : Phrase) (ts : List Token) :
    Operator.spelledBy parts (ts.map Token.foldCase) = Operator.spelledBy parts ts := by
  induction parts generalizing ts with
  | nil => rfl
  | cons part parts ih =>
    cases ts with
    | nil => rfl
    | cons t ts => simp [Operator.spelledBy, ih]

/-- Operators are recognised in any case. -/
@[simp] theorem Operator.matchAt?_foldCase (ts : List Token) :
    Operator.matchAt? (ts.map Token.foldCase) = Operator.matchAt? ts := by
  simp only [Operator.matchAt?, Operator.spelledBy_foldCase]

/-- A condition is read in any case. -/
@[simp] theorem Condition.ofText?_foldCase (s : Text) :
    Condition.ofText? (Text.foldCase s) =
      (Condition.ofText? s).map (Condition.map Text.foldCase) := by
  have hkinds := kinds_foldCase
  simp only [Condition.ofText?, tokenize_foldCase, Path.length?_foldCase,
    Condition.startsField_congr (hkinds (tokenize s))]
  split
  · cases Path.length? (tokenize s) with
    | none => rfl
    | some n =>
      simp only [Option.bind_eq_bind, Option.bind_some, ← map_drop, ← map_take,
        groupLength_congr (hkinds ((tokenize s).drop n)), Operator.matchAt?_foldCase,
        trim_render_foldCase]
      cases Operator.matchAt? ((tokenize s).drop (n + groupLength ((tokenize s).drop n))) <;> rfl
  · rfl

namespace Query

/-- A count has no letters. -/
theorem count?_foldCase (s : Text) : count? (Text.foldCase s) = count? s := by
  by_cases hs : Text.isDigits s = true
  · rw [Text.foldCase_of_isDigits hs]
  · have hlower : ¬Text.isDigits (Text.foldCase s) = true := by rwa [Text.isDigits_foldCase]
    simp [count?, hs, hlower]

theorem bind_count?_foldCase (raw : Option Text) :
    (raw.map Text.foldCase).bind count? = raw.bind count? := by
  cases raw with
  | none => rfl
  | some s => exact count?_foldCase s

/-- A query of folded tokens is the folded query. -/
theorem ofTokens_foldCase (ts : List Token) :
    ofTokens (ts.map Token.foldCase) = (ofTokens ts).map Text.foldCase := by
  have hbody (c : Clause) :
      c.body? (ts.map Token.foldCase) = (c.body? ts).map Text.foldCase :=
    Phrase.body?_foldCase _ _ ts
  have hlist {α : Type} {f : Text → List α} {g : α → α}
      (hf : ∀ s, f (Text.foldCase s) = (f s).map g) (body : Option Text) :
      ((body.map Text.foldCase).map f).getD [] = ((body.map f).getD []).map g := by
    cases body with
    | none => rfl
    | some s => exact hf s
  simp only [ofTokens, Query.map, hbody, Option.isSome_map, Phrase.find?_foldCase,
    objectName?_foldCase, bind_count?_foldCase]
  congr 1
  · exact hlist splitItems_foldCase _
  · refine hlist (fun s => ?_) _
    simp [flatMap_map, map_flatMap]
  · refine hlist (fun s => ?_) _
    simp [filter_map, Function.comp_def]
  · refine hlist (fun s => ?_) _
    rw [splitConditions_foldCase, filterMap_map, map_filterMap]
    exact congrArg (filterMap · _) (funext Condition.ofText?_foldCase)

/-- The lower case of a query has the same clauses in lower case. -/
@[simp] theorem ofText_foldCase (s : Text) :
    ofText (Text.foldCase s) = (ofText s).map Text.foldCase := by
  rw [ofText, tokenize_foldCase, ofTokens_foldCase, ofText]

/-- Texts that differ in case have queries that differ in case. -/
theorem map_ofText_of_eqIgnoreCase {s t : Text} (h : Text.eqIgnoreCase s t = true) :
    (ofText s).map Text.foldCase = (ofText t).map Text.foldCase := by
  rw [← ofText_foldCase, Text.eqIgnoreCase_iff.1 h, ofText_foldCase]

/-- Queries that differ in case only are taken apart alike. -/
theorem similar_of_eqIgnoreCase {s t : Text} (h : Text.eqIgnoreCase s t = true) :
    Query.Similar (fun a b => Text.eqIgnoreCase a b = true) (ofText s) (ofText t) :=
  (similar_of_map_eq (map_ofText_of_eqIgnoreCase h)).imp fun _ _ => Text.eqIgnoreCase_iff.2

end Query

end Soql
