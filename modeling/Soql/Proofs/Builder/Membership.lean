import Soql.Proofs.Builder.ListGroup
import Soql.Proofs.Builder.Quoting
import Soql.Proofs.Token.Separators

/-!
# Lists of quoted items

A list of quoted items is imported as one text with the items between commas, each without its
quotes if it stands for itself, and is taken apart again when the filter is written. The items come
back unless one before the last leaves a parenthesis open, which hides the commas behind it from
the splitting, or one is a relative date with blanks at its ends, which are lost. For the same
reasons a group that is imported is written again as it was only if its items are separable, and a
filter with a group is steady in no other case.
-/

namespace Soql

open Kind Token

namespace Literal

/-- The same text, up to the case of null and booleans. -/
def SameValue (v u : Text) : Prop :=
  u = v ∨ ∃ k : Keyword, (k = .NULL ∨ k = .TRUE ∨ k = .FALSE) ∧
    Text.eqIgnoreCase v k.spelling = true ∧ Text.eqIgnoreCase u k.spelling = true

end Literal

namespace Builder

open Literal

/-- A text that spells null or a boolean has no blanks. -/
theorem tight_of_spells {s : Text} {k : Keyword} (hk : k = .NULL ∨ k = .TRUE ∨ k = .FALSE)
    (h : Text.eqIgnoreCase s k.spelling = true) : s.Tight := by
  have hplain : isPlainValue false s = true := by
    refine isPlainValue_of_foldCase (Text.eqIgnoreCase_iff.1 h) ?_ ?_
    · rcases hk with rfl | rfl | rfl <;> decide
    · rcases hk with rfl | rfl | rfl <;> decide
  exact (isPlainValue_iff_tight.1 hplain).2

/-- A text is read from what it is written as, unless it is a relative date with blanks at its
ends. -/
theorem sameValue_writeText_iff {v : Text} : SameValue v (unquote (writeText v)) ↔
    (Date.isLiteral v = true → v.Tight) := by
  constructor
  · intro h hdate
    by_cases hnull : Text.eqIgnoreCase v "null".toList = true
    · refine tight_of_spells (k := .NULL) (by simp) (Text.eqIgnoreCase_iff.2 ?_)
      exact (Text.eqIgnoreCase_iff.1 hnull).trans (by decide)
    · have hwrite : writeText v = v := by
        rw [writeText, if_neg hnull, hdate, Bool.true_or, if_pos rfl]
      rw [hwrite, unquote_of_chars (Date.not_mem_of_isLiteral hdate)] at h
      rcases h with heq | ⟨k, hk, hspells, -⟩
      · exact Text.trim_eq_self_iff.1 heq
      · exact tight_of_spells hk hspells
  · intro hdate
    have hform := form v
    have htight := hform.tight hdate
    generalize writeText v = w at hform htight
    cases hform with
    | word k value spells =>
      refine .inr ⟨k, value, spells, ?_⟩
      rw [unquote_of_chars (by rcases value with rfl | rfl | rfl <;> decide), htight.trim_eq,
        Text.eqIgnoreCase_foldCase_left]
      exact Text.eqIgnoreCase_iff.2 rfl
    | date h => exact .inl (by rw [unquote_of_chars (Date.not_mem_of_isLiteral h), htight.trim_eq])
    | bind h => exact .inl (by rw [unquote_of_chars (not_mem_of_isBindVariable h), htight.trim_eq])
    | number h => exact .inl (by rw [unquote_of_chars (not_mem_of_number h), htight.trim_eq])
    | text => exact .inl (unquote_encode v)

/-- A written list is taken apart into the items that were written, without the blanks at the ends
of a date. -/
theorem splitItems_writeText (us : List Text) :
    splitItems (Text.join ", ".toList (us.map writeText)).trim = (us.map writeText).map Text.trim := by
  have hwritten := areWritten_writeText us
  have hsep : Kind.isComma .unknown = false := rfl
  have hkeep : ((us.map writeText).map Text.trim).filter (!·.isEmpty) =
      (us.map writeText).map Text.trim := by
    rw [List.filter_eq_self]
    intro w hw
    obtain ⟨x, hx, rfl⟩ := List.mem_map.1 hw
    simpa using hwritten.ne_nil hx
  rw [splitItems_eq, splitParts_trim hsep hwritten.closed_join,
    separator_comma.splitParts_join (fun _ hw => hwritten.closed hw)
      (fun _ hw => hwritten.no_comma hw)
      fun _ hw => depth_of_level? (hwritten.level (List.dropLast_subset _ hw)),
    hkeep]

/-- The items of a written list, read again. -/
theorem unquote_splitItems_writeText (us : List Text) :
    (splitItems (Text.join ", ".toList (us.map writeText)).trim).map unquote =
      us.map fun u => unquote (writeText u) := by
  rw [splitItems_writeText, List.map_map, List.map_map]
  exact List.map_congr_left fun u _ => unquote_trim (writeText u)

/-- The list that a filter is written with: each item as it is written, and read again. -/
theorem Filter.items_right {f : Filter} (h : f.operator.takesList = true)
    (hhead : f.value.trim.head? ≠ some '(') : ∃ inside, stripOuterParens? f.right = some inside ∧
      (splitItems inside).map unquote = f.items.map fun u => unquote (writeText u) := by
  have hwritten := areWritten_writeText f.items
  exact ⟨_, by rw [Filter.right_list h hhead, stripOuterParens?_group hwritten.closed_join
    hwritten.balanced_join], unquote_splitItems_writeText f.items⟩

/-- An imported item leaves a parenthesis open if the text that it denotes does so and stands for
itself in a list. -/
theorem depth_literalValue_iff (raw : Text) : depth 0 (kindsOf (literalValue true raw)) = 0 ↔
    (isPlainValue true (unquote raw) = true → depth 0 (kindsOf (unquote raw)) = 0) := by
  rw [literalValue_eq]
  split
  · next hplain => simp [hplain]
  · next hplain =>
    refine iff_of_true ?_ fun h => absurd h hplain
    rw [quoteText_of_not_plain (by simpa using hplain), kindsOf, tokenize_encode]
    rfl

section Imported

variable (raws : List Text)

/-- Imported items can stand in a list. -/
theorem listItem_map_literalValue : ∀ x ∈ raws.map (literalValue true), ListItem x := by
  intro x hx
  obtain ⟨w, -, rfl⟩ := List.mem_map.1 hx
  exact listItem_literalValue w

/-- They denote what the literals denote. -/
theorem map_unquote_literalValue :
    (raws.map (literalValue true)).map unquote = raws.map unquote := by
  rw [List.map_map]
  exact List.map_congr_left fun w _ => unquote_literalValue true w

/-- Imported items close what they open exactly when the texts that they denote do, as far as these
stand for themselves. -/
theorem levels_map_literalValue :
    (∀ x ∈ (raws.map (literalValue true)).dropLast, depth 0 (kindsOf x) = 0) ↔
      ∀ v ∈ (raws.map unquote).dropLast, isPlainValue true v = true → depth 0 (kindsOf v) = 0 := by
  rw [← List.map_dropLast, ← List.map_dropLast]
  simp only [List.mem_map, forall_exists_index, and_imp, forall_apply_eq_imp_iff₂]
  exact forall₂_congr fun w _ => depth_literalValue_iff w

/-- Imported items are told apart, or there are fewer of them when they are taken apart again. -/
theorem splitItems_map_literalValue :
    ((∀ x ∈ (raws.map (literalValue true)).dropLast, depth 0 (kindsOf x) = 0) ∧
      splitItems (Text.join ", ".toList (raws.map (literalValue true))) =
        raws.map (literalValue true)) ∨
    (¬ (∀ x ∈ (raws.map (literalValue true)).dropLast, depth 0 (kindsOf x) = 0) ∧
      (splitItems (Text.join ", ".toList (raws.map (literalValue true)))).length < raws.length) := by
  have hitem := listItem_map_literalValue raws
  by_cases htop : ∀ x ∈ (raws.map (literalValue true)).dropLast, depth 0 (kindsOf x) = 0
  · exact .inl ⟨htop, splitItems_listItems hitem htop⟩
  · refine .inr ⟨htop, ?_⟩
    have hlt := separator_comma.length_splitParts_join_lt (fun _ => no_group_of_isComma)
      (fun x hx => (hitem x hx).piece.closed)
      (fun x hx => (hitem x hx).commas) (by push Not at htop; exact htop)
    rwa [List.length_map] at hlt

/-- The blanks around imported items are none of the list. -/
theorem trim_join_map_literalValue : (Text.join ", ".toList (raws.map (literalValue true))).trim =
    Text.join ", ".toList (raws.map (literalValue true)) :=
  (Text.tight_join fun x hx =>
    ⟨(listItem_map_literalValue raws x hx).piece.tight,
      (listItem_map_literalValue raws x hx).ne_nil⟩).trim_eq

end Imported

/-- What the items of a group are imported as is written as the group again only if the items are
separable, and stand in the group in the spelling in which they are written. -/
theorem separable_of_writeList {v b : Text} (hb : stripOuterParens? v = some b)
    (h : writeList (Text.join ", ".toList ((splitItems b).map (literalValue true))) = v.trim) :
    ∃ us : List Text,
      v.trim = group (Text.join ", ".toList (us.map writeText)) ∧ Separable us := by
  obtain ⟨raws, hraws⟩ : ∃ raws, splitItems b = raws := ⟨_, rfl⟩
  obtain ⟨again, hagain⟩ :
      ∃ xs, splitItems (Text.join ", ".toList (raws.map (literalValue true))) = xs := ⟨_, rfl⟩
  have hvalue : v.trim = group (Text.join ", ".toList ((again.map unquote).map writeText)) := by
    rw [hraws, writeList_of_items, trim_join_map_literalValue, hagain] at h
    · rw [← h, List.map_map]
      rfl
    · rw [trim_join_map_literalValue]
      exact head?_join_listItems (listItem_map_literalValue raws)
  -- the group has as many items as it is written with, so none of them hides a comma
  have hitems : raws = ((again.map unquote).map writeText).map Text.trim := by
    rw [← stripOuterParens?_trim, hvalue,
      stripOuterParens?_group closed_join_writeText balanced_join_writeText] at hb
    rw [← hraws, ← Option.some.inj hb, splitItems_writeText]
  have hlength : raws.length = again.length := by simp [hitems]
  rcases splitItems_map_literalValue raws with ⟨hlevels, hsplit⟩ | ⟨-, hlt⟩
  swap
  · rw [hagain, hlength] at hlt
    exact absurd hlt (lt_irrefl _)
  have hdenote : again.map unquote = raws.map unquote := by
    rw [← hagain, hsplit, map_unquote_literalValue]
  refine ⟨again.map unquote, hvalue, ?_, fun u hu => ?_⟩
  · rw [hdenote]
    exact (levels_map_literalValue raws).1 hlevels
  · have hsame : (again.map unquote).map (fun u => unquote (writeText u)) =
        (again.map unquote).map id := by
      rw [← unquote_splitItems_writeText, splitItems_writeText, ← hitems, List.map_id, hdenote]
    exact sameValue_writeText_iff.1 (.inl (List.map_inj_left.1 hsame u hu))

/-- A group in the place of a list is steady exactly when it is written again as it was. -/
theorem Filter.steady_iff_right_reread {f : Filter} (hop : f.operator.takesList = true)
    (hclosed : Closed f.value) {b : Text} (hb : stripOuterParens? f.value = some b) (n : Nat) :
    f.Steady ↔ (f.reread n).right = f.right := by
  refine ⟨fun h => h.right_reread n, fun h => ?_⟩
  by_cases hquery : (subqueryBody? f.value).isSome = true
  · exact .subquery hop hclosed hquery
  have hvalue : filterValue f.operator f.value.trim.trim =
      Text.join ", ".toList ((splitItems b).map (literalValue true)) := by
    rw [← subqueryBody?_trim] at hquery
    rw [Text.trim_trim, filterValue, if_pos hop, if_neg hquery, stripOuterParens?_trim, hb]
  have hhead := head?_of_isGroup (Option.isSome_of_eq_some hb)
  rw [right_reread_eq, if_pos hop, right_group hop hhead, hvalue] at h
  obtain ⟨us, hwritten, hsep⟩ := separable_of_writeList hb h
  exact .group hop us hwritten hsep

/-- A comparison with a list of quoted items. -/
def membership (field : Text) (operator : Operator) (vs : List Text) : Condition :=
  ⟨field, operator, group (Text.join ", ".toList (vs.map Json.Quoted.encode))⟩

/-- The items of a list of quoted texts as they are imported. -/
def importedItems (vs : List Text) : List Text :=
  (vs.map Json.Quoted.encode).map (literalValue true)

/-- Quoted items denote the texts that were quoted. -/
theorem map_unquote_encode (vs : List Text) : (vs.map Json.Quoted.encode).map unquote = vs := by
  rw [List.map_map]
  exact (List.map_congr_left fun v _ => unquote_encode v).trans (List.map_id' vs)

section Filter

variable (field : Text) {operator : Operator} (hop : operator.takesList = true) (vs : List Text)
  (n : Nat)

include hop

theorem value_ofCondition_membership : (Filter.ofCondition n (membership field operator vs)).value =
    Text.join ", ".toList (importedItems vs) := by
  refine (areWritten_encode vs).filterValue_group ?_ hop
  simp only [List.mem_map, forall_exists_index, and_imp, forall_apply_eq_imp_iff₂]
  exact fun v _ => (piece_encode v).tight

/-- The list of the filter has the items that were imported exactly when they are separable. -/
theorem exists_items_membership : ∃ inside,
    stripOuterParens? (Filter.ofCondition n (membership field operator vs)).right = some inside ∧
      (List.Forall₂ SameValue vs ((splitItems inside).map unquote) ↔ Separable vs) := by
  have hvalue := value_ofCondition_membership field hop vs n
  have htight := trim_join_map_literalValue (vs.map Json.Quoted.encode)
  have hlevels := levels_map_literalValue (vs.map Json.Quoted.encode)
  rw [map_unquote_encode] at hlevels
  rw [importedItems] at hvalue
  obtain ⟨inside, hstrip, hitems⟩ :=
    Filter.items_right (f := Filter.ofCondition n (membership field operator vs)) hop
      (by rw [hvalue, htight]; exact head?_join_listItems (listItem_map_literalValue _))
  refine ⟨inside, hstrip, ?_⟩
  rw [hitems, Filter.items, hvalue, htight]
  rcases splitItems_map_literalValue (vs.map Json.Quoted.encode) with ⟨htop, hsplit⟩ | ⟨htop, hlt⟩
  · rw [hsplit, map_unquote_literalValue, map_unquote_encode, List.forall₂_map_right_iff,
      List.forall₂_same]
    refine ⟨fun h => ⟨hlevels.1 htop, fun v hv => sameValue_writeText_iff.1 (h v hv)⟩,
      fun h v hv => ?_⟩
    exact sameValue_writeText_iff.2 (h.dates v hv)
  · refine iff_of_false (fun h => ?_) fun h => htop (hlevels.2 h.levels)
    have := h.length_eq
    rw [List.length_map, List.length_map] at this
    rw [List.length_map] at hlt
    omega

end Filter

namespace State

/-- A query with a comparison with a list of quoted items can be imported. -/
theorem exists_import?_membership {object field : Text} (hobject : PlainName object)
    (hfield : PlainPath field) {operator : Operator} (hop : operator.takesList = true)
    (vs : List Text) (previous : State) {text : Text}
    (htext : text = "SELECT Id FROM ".toList ++ object ++ " WHERE ".toList ++
      (membership field operator vs).write) : (∃ s r, import? text previous = .ok (s, r)) ∧
        (Query.ofText text).conditions = [membership field operator vs] := by
  have hwritten := areWritten_encode vs
  have halone := ReadsAlone.group hwritten.closed_join hwritten.balanced_join
  have htight := tight_group (Text.join ", ".toList (vs.map Json.Quoted.encode))
  -- a filter whose value has its parentheses is written with the list as it is
  obtain ⟨f, hf⟩ : ∃ f : Filter, f = ⟨[], field, operator, (membership field operator vs).rawValue⟩ :=
    ⟨_, rfl⟩
  have hright : f.right = group (Text.join ", ".toList (vs.map Json.Quoted.encode)) :=
    Filter.right_of_group (by rw [hf]; exact hop) (by rw [hf]; rfl)
  have hlist : (ofFilter object f).ComparesList f :=
    comparesList_ofFilter hobject (by rw [hf]; exact hfield) (by rw [hf]; exact hop)
  have hcondition : (⟨f.field, f.operator, f.right⟩ : Condition) = membership field operator vs := by
    rw [hright, hf]
    rfl
  have hquery : (ofFilter object f).query = text := by
    rw [query_ofFilter hobject (by rw [hf]; exact hfield), Filter.write_eq, hlist.condition_eq,
      hcondition, htext]
  have hne : f.right.trim ≠ [] := by
    rw [hright, htight.trim_eq]
    simp [group]
  rw [← hright] at halone
  rw [← hquery]
  refine ⟨⟨_, _, (hlist.legible halone hne).import?_query previous⟩, ?_⟩
  rw [hlist.conditions_query halone hne, ← hcondition, hright, htight.trim_eq]

/-- A comparison with a list of quoted items is imported wherever it stands in a query, and a query
with it can be imported. The filter that it becomes is written as a comparison of the same field
with a list in parentheses, by the same operator; the items of that list are the items that were
imported, up to the case of null and booleans, exactly when these are separable. -/
theorem import?_membership {field : Text} (hfield : PlainPath field) {operator : Operator}
    (hop : operator.takesList = true) (vs : List Text) :
    (∀ (object text : Text) (previous : State), PlainName object →
      text = "SELECT Id FROM ".toList ++ object ++ " WHERE ".toList ++
        (membership field operator vs).write →
      (∃ s r, import? text previous = .ok (s, r)) ∧
        (Query.ofText text).conditions = [membership field operator vs]) ∧
    ∀ (text : Text) (previous s : State) (r : Report), import? text previous = .ok (s, r) →
      ∀ k : Nat, (Query.ofText text).conditions[k]? = some (membership field operator vs) →
        ∃ f w inside, s.filters[k]? = some f ∧ f.write = Condition.write ⟨field, operator, w⟩ ∧
          stripOuterParens? w = some inside ∧
            (List.Forall₂ SameValue vs ((splitItems inside).map unquote) ↔ Separable vs) := by
  constructor
  · exact fun object text previous hobject htext =>
      exists_import?_membership hobject hfield hop vs previous htext
  · intro text previous s r himport k hk
    obtain ⟨inside, hstrip, hitems⟩ := exists_items_membership field hop vs (k + 1)
    refine ⟨_, _, inside, by rw [getElem?_filters_import? himport, hk]; rfl, ?_, hstrip, hitems⟩
    rw [Filter.write_eq, Filter.condition]
    exact congrArg (fun x => Condition.write ⟨x, operator, _⟩) hfield.piece.tight.trim_eq

/-- A type with a comma, one with an open parenthesis at the end of the list, and a null. -/
def someTypes : List Text :=
  ["a, b".toList, "NULL".toList, "x (y".toList]

theorem separable_someTypes : Separable someTypes :=
  .of_no_dates (by decide +kernel) (by decide +kernel)

/-- The parenthesis that stays open does no harm in the last item. -/
theorem import?_membership_someTypes :
    PlainPath "Type".toList ∧ Operator.isIn.takesList = true ∧ PlainName "Account".toList ∧
    Separable someTypes ∧ ∃ s r f w inside,
      (import? ("SELECT Id FROM ".toList ++ "Account".toList ++ " WHERE ".toList ++
        (membership "Type".toList .isIn someTypes).write) initial = .ok (s, r)) ∧
      s.filters[0]? = some f ∧ f.write = Condition.write ⟨"Type".toList, .isIn, w⟩ ∧
      stripOuterParens? w = some inside ∧
      List.Forall₂ SameValue someTypes ((splitItems inside).map unquote) := by
  have hobject : PlainName "Account".toList := by decide +kernel
  have htakes : Operator.isIn.takesList = true := rfl
  obtain ⟨himports, hitems⟩ := import?_membership plainPath_type htakes someTypes
  obtain ⟨⟨s, r, himport⟩, hconditions⟩ := himports _ _ initial hobject rfl
  obtain ⟨f, w, inside, hf, hwrite, hstrip, hiff⟩ :=
    hitems _ _ s r himport 0 (by rw [hconditions]; rfl)
  exact ⟨plainPath_type, rfl, hobject, separable_someTypes, s, r, f, w, inside, himport, hf, hwrite,
    hstrip, hiff.2 separable_someTypes⟩

/-- An item that leaves a parenthesis open takes the items behind it with it. -/
theorem not_import?_membership :
    ¬ ∀ (field : Text) (operator : Operator) (vs : List Text), PlainPath field →
      operator.takesList = true → ∀ (text : Text) (previous s : State) (r : Report),
        State.import? text previous = .ok (s, r) →
          ∀ k : Nat, (Query.ofText text).conditions[k]? = some (membership field operator vs) →
            ∃ f w inside, s.filters[k]? = some f ∧ f.write = Condition.write ⟨field, operator, w⟩ ∧
              stripOuterParens? w = some inside ∧
                List.Forall₂ SameValue vs ((splitItems inside).map unquote) := by
  intro h
  have himport : import? "SELECT Id FROM Account WHERE Type IN (\"a(\", \"b\")".toList initial =
      .ok (ofFilter "Account".toList ⟨"f1".toList, "Type".toList, .isIn, "a(, b".toList⟩,
        ⟨[], [], [], [], false⟩) := by decide +kernel
  obtain ⟨f, w, inside, hf, hwrite, hstrip, hitems⟩ :=
    h _ .isIn ["a(".toList, "b".toList] plainPath_type rfl _ _ _ _ himport 0 (by decide +kernel)
  obtain rfl : ⟨"f1".toList, "Type".toList, .isIn, "a(, b".toList⟩ = f := Option.some.inj hf
  obtain rfl : "(\"a(, b\")".toList = w := by
    have hright : Filter.write ⟨"f1".toList, "Type".toList, .isIn, "a(, b".toList⟩ =
        Condition.write ⟨"Type".toList, .isIn, "(\"a(, b\")".toList⟩ := by decide +kernel
    rw [hright] at hwrite
    exact (List.cons.inj (List.append_cancel_left hwrite)).2
  obtain rfl : "\"a(, b\"".toList = inside := by
    have hread : stripOuterParens? "(\"a(, b\")".toList = some "\"a(, b\"".toList := by decide +kernel
    exact Option.some.inj (hread.symm.trans hstrip)
  have hlength := hitems.length_eq
  revert hlength
  decide +kernel

end State

end Builder

end Soql
