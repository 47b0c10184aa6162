import Soql.Proofs.Builder.Steady

/-!
# Filters that are read back as they are

A value is read back from what it is written as when nothing in it is lost on the way: it has no
blanks or quotes at its ends, it spells null and booleans as they are written, and as a bind
variable it has no keyword in its name. A list is read back item by item, an item that does not
stand for itself in a list being kept in quotes; a subquery in the place of a list is kept whole.
-/

namespace Soql.Builder

open Kind Token Literal

/-- A text that is read back where a field is compared with one value. -/
structure PlainValue (v : Text) : Prop where
  trim : v.trim = v
  trimQuotes : trimQuotes v = v
  lower : IsLower v
  names : isBindVariable v = true → ∀ k ∈ kindsOf v, k.isWord = true → k = .identifier

/-- An item that is read back from a list: a text that stands for itself in the list, or in quotes
a text that does not. -/
inductive PlainItem (v : Text) : Prop
  | bare (plain : isPlainValue true v = true) (lower : IsLower v)
  | quoted (s : Text) (text : v = Json.Quoted.encode s) (kept : isPlainValue true s = false)
      (date : Date.isLiteral s = false)

/-- A value that is read back where a field is compared with a list. -/
inductive PlainList (v : Text) : Prop
  | items (xs : List Text) (text : v = Text.join ", ".toList xs) (plain : ∀ x ∈ xs, PlainItem x)
      (levels : ∀ x ∈ xs.dropLast, depth 0 (kindsOf x) = 0)
  | subquery (trim : v.trim = v) (closed : Closed v) (query : (subqueryBody? v).isSome = true)

/-- A filter that is read back. -/
structure Filter.Plain (f : Filter) : Prop where
  field : PlainPath f.field
  value : if f.operator.takesList then PlainList f.value else PlainValue f.value

/-- A text that loses no quotes has none around it. -/
theorem inside?_eq_none_of_trimQuotes {v : Text} (h : trimQuotes v = v) : inside? v = none := by
  cases hinside : inside? v with
  | none => rfl
  | some body =>
    obtain ⟨q, -, hv⟩ := exists_of_inside? hinside
    rw [Literal.trimQuotes, hinside, Option.getD_some] at h
    have hlength := congrArg List.length hv
    rw [h, List.length_cons, List.length_append] at hlength
    omega

namespace PlainValue

variable {v : Text} (h : PlainValue v)

include h

/-- A plain value denotes itself. -/
theorem unquote_eq : unquote v = v := by
  rw [unquote_of_not_quoted (by rw [h.trim]; exact inside?_eq_none_of_trimQuotes h.trimQuotes), h.trim]

theorem tight : v.Tight :=
  Text.trim_eq_self_iff.1 h.trim

/-- A plain value does not end the condition that it stands in. -/
theorem alone : ¬ EndsCondition v := by
  rintro ⟨hbind, k, hk, hends⟩
  have hword : k.isWord = true := by
    cases k <;> first | rfl | cases hends
  rw [h.names hbind k hk hword] at hends
  cases hends

/-- A plain value is imported from what it is written as. -/
theorem literalValue_writeValue : literalValue false (writeValue v) = v := by
  have hplain : isPlainValue false v = true := by
    rw [isPlainValue_iff_tight, isQuoted, inside?_eq_none_of_trimQuotes h.trimQuotes]
    exact ⟨rfl, h.tight⟩
  rw [literalValue_eq, writeValue_eq, h.unquote_eq,
    (form v).unquote_eq h.lower fun _ => h.tight, if_pos hplain]

end PlainValue

/-- A bind variable stands for itself. -/
theorem isPlainValue_of_bind {inList : Bool} {s : Text} (h : isBindVariable s = true) :
    isPlainValue inList s = true := by
  refine isPlainValue_of_chars ?_ (not_isBlank_of_isBindVariable h) (not_mem_of_isBindVariable h)
  rintro rfl
  cases h

/-- A number stands for itself. -/
theorem isPlainValue_of_number {inList : Bool} {s : Text} (h : isCanonicalNumber s = true) :
    isPlainValue inList s = true :=
  isPlainValue_of_chars (chars_of_isCanonicalNumber h).1 (not_isBlank_of_number h)
    (not_mem_of_number h)

/-- A text that does not stand for itself is written in quotes, unless it is a date. -/
theorem writeText_of_not_plain {inList : Bool} {s : Text} (h : isPlainValue inList s = false)
    (hdate : Date.isLiteral s = false) : writeText s = Json.Quoted.encode s := by
  have hform := form s
  generalize writeText s = w at hform
  have hplain : isPlainValue inList s ≠ true := by simp [h]
  cases hform with
  | word k value spells =>
    refine absurd (isPlainValue_of_foldCase (Text.eqIgnoreCase_iff.1 spells) ?_ ?_) hplain
    · rcases value with rfl | rfl | rfl <;> decide
    · rcases value with rfl | rfl | rfl <;> decide
  | date h' => rw [hdate] at h'; cases h'
  | bind h' => exact absurd (isPlainValue_of_bind h') hplain
  | number h' => exact absurd (isPlainValue_of_number h') hplain
  | text => rfl

/-- What stands for itself in a list is tight and not quoted. -/
theorem tight_of_plain {s : Text} (h : isPlainValue true s = true) : unquote s = s ∧ s.Tight := by
  simp only [isPlainValue, Bool.and_eq_true, Bool.not_eq_true', isQuoted, Option.isSome_eq_false_iff,
    Option.isNone_iff_eq_none, beq_iff_eq] at h
  obtain ⟨⟨hquoted, htrim⟩, -⟩ := h
  refine ⟨?_, Text.trim_eq_self_iff.1 htrim⟩
  rw [unquote_of_not_quoted (by rwa [htrim]), htrim]

namespace PlainItem

variable {x : Text} (h : PlainItem x)

include h

/-- A plain item can stand in a list. -/
theorem listItem : ListItem x := by
  cases h with
  | bare plain lower => exact listItem_of_plain plain
  | quoted s text kept date => exact text ▸ listItem_encode s

/-- The dates among plain items have no blanks at their ends. -/
theorem tight_of_date (hdate : Date.isLiteral (unquote x) = true) : (unquote x).Tight := by
  cases h with
  | bare plain lower =>
    obtain ⟨hunquote, htight⟩ := tight_of_plain plain
    rwa [hunquote]
  | quoted s text kept date =>
    rw [text, unquote_encode, date] at hdate
    cases hdate

/-- A plain item is imported from what it is written as. -/
theorem literalValue_writeText : literalValue true (writeText (unquote x)) = x := by
  cases h with
  | bare plain lower =>
    obtain ⟨hunquote, htight⟩ := tight_of_plain plain
    rw [literalValue_eq, hunquote, (form x).unquote_eq lower fun _ => htight, if_pos plain]
  | quoted s text kept date =>
    rw [text, unquote_encode, writeText_of_not_plain kept date, literalValue_eq, unquote_encode, kept,
      quoteText_of_not_plain kept]
    rfl

/-- The level of an item matters where it stands for itself. -/
theorem depth_unquote (hlevel : depth 0 (kindsOf x) = 0)
    (hplain : isPlainValue true (unquote x) = true) : depth 0 (kindsOf (unquote x)) = 0 := by
  cases h with
  | bare plain lower => rwa [(tight_of_plain plain).1]
  | quoted s text kept date =>
    rw [text, unquote_encode, kept] at hplain
    cases hplain

end PlainItem

/-- A subquery in the place of a list is written as it is. -/
theorem writeList_subquery {v : Text} (htrim : v.trim = v)
    (hquery : (subqueryBody? v).isSome = true) : writeList v = v :=
  (writeList_of_group (head?_of_subqueryBody? hquery)).trans htrim

section Items

variable {xs : List Text} (h : ∀ x ∈ xs, PlainItem x)
  (hlevels : ∀ x ∈ xs.dropLast, depth 0 (kindsOf x) = 0)

include h

theorem trim_join_items : (Text.join ", ".toList xs).trim = Text.join ", ".toList xs :=
  (Text.tight_join fun x hx =>
    ⟨(h x hx).listItem.piece.tight, (h x hx).listItem.ne_nil⟩).trim_eq

include hlevels

/-- Plain items are told apart again. -/
theorem splitItems_items : splitItems (Text.join ", ".toList xs) = xs :=
  splitItems_listItems (fun x hx => (h x hx).listItem) hlevels

/-- Plain items are written one by one. -/
theorem writeList_items : writeList (Text.join ", ".toList xs) =
    group (Text.join ", ".toList ((xs.map unquote).map writeText)) := by
  rw [writeList_join (fun x hx => (h x hx).listItem) hlevels, List.map_map]
  rfl

end Items

namespace PlainList

variable {v : Text} (h : PlainList v)

include h

/-- What is written of a list is read as the list again. -/
theorem filterValue_writeList {operator : Operator} (hop : operator.takesList = true) :
    filterValue operator (writeList v) = v := by
  cases h with
  | items xs text plain levels =>
    have hdate : ∀ u ∈ xs.map unquote, Date.isLiteral u = true → u.Tight := by
      simp only [List.mem_map, forall_exists_index, and_imp, forall_apply_eq_imp_iff₂]
      exact fun x hx => (plain x hx).tight_of_date
    have hitems : (xs.map unquote).map (fun u => literalValue true (writeText u)) = xs := by
      rw [List.map_map]
      exact (List.map_congr_left fun x hx => (plain x hx).literalValue_writeText).trans
        (List.map_id' xs)
    rw [text, writeList_items plain levels, filterValue_group hop hdate, hitems]
  | subquery trim closed query =>
    rw [writeList_subquery trim query, filterValue, if_pos hop, if_pos query, trim]

end PlainList

namespace Filter.Plain

variable {f : Filter} (h : f.Plain)

include h

theorem plainValue (hop : f.operator.takesList = false) : PlainValue f.value := by
  have := h.value
  rwa [hop] at this

theorem plainList (hop : f.operator.takesList = true) : PlainList f.value := by
  have := h.value
  rwa [hop, if_pos rfl] at this

/-- What is read back as it is, is written again as it was. -/
theorem steady : f.Steady := by
  cases hop : f.operator.takesList with
  | false =>
    have hvalue := h.plainValue hop
    refine .single hop (fun _ => ?_) ?_
    · rw [hvalue.unquote_eq]
      exact hvalue.tight
    · rw [hvalue.unquote_eq]
      exact hvalue.alone
  | true =>
    cases h.plainList hop with
    | items xs text plain levels =>
      have htrim : f.value.trim = f.value := text ▸ trim_join_items plain
      have hitems : f.items = xs.map unquote := by
        rw [Filter.items, htrim, text, splitItems_items plain levels]
      refine .list hop ?_ ⟨?_, ?_⟩
      · rw [htrim, text]
        exact head?_join_listItems fun x hx => (plain x hx).listItem
      · rw [hitems, ← List.map_dropLast]
        simp only [List.mem_map, forall_exists_index, and_imp, forall_apply_eq_imp_iff₂]
        exact fun x hx => (plain x (List.dropLast_subset _ hx)).depth_unquote (levels x hx)
      · rw [hitems]
        simp only [List.mem_map, forall_exists_index, and_imp, forall_apply_eq_imp_iff₂]
        exact fun x hx => (plain x hx).tight_of_date
    | subquery trim closed query => exact .subquery hop closed query

/-- The condition of a plain filter is read back. -/
theorem readsBack : f.condition.ReadsBack := by
  have hfield : f.field.trim = f.field := h.field.piece.tight.trim_eq
  rw [Filter.condition, hfield]
  exact ⟨h.field.piece, h.field.isField, h.field.readsAlone, h.steady.readsAlone,
    h.steady.right_ne_nil⟩

/-- The condition can be a piece of a query. -/
theorem piece_write : Piece f.condition.write ∧ f.condition.write ≠ [] := by
  have hread := h.readsBack
  have htight := h.steady.tight_right
  have hright : f.right ≠ [] := by
    rw [← htight.trim_eq]
    exact h.steady.right_ne_nil
  have hwrite : f.condition.write =
      f.condition.field ++ (' ' :: f.operator.spelling ++ [' '] ++ f.right) := by
    simp [Condition.write, Filter.condition]
  refine ⟨⟨?_, hread.alone.closed⟩, ?_⟩
  · rw [hwrite]
    exact hread.field.tight.between htight hread.field_ne_nil hright _
  · rw [hwrite]
    exact List.append_ne_nil_of_left_ne_nil hread.field_ne_nil _

/-- A filter with its number is read back from what it is written as. -/
theorem reread_eq {n : Nat} (hid : f.id = 'f' :: Text.ofNat n) : f.reread n = f := by
  have hfield : f.field.trim = f.field := h.field.piece.tight.trim_eq
  have hvalue : filterValue f.operator f.right.trim = f.value := by
    rw [h.steady.tight_right.trim_eq, Filter.right]
    cases hop : f.operator.takesList with
    | false =>
      rw [if_neg (by simp), filterValue, if_neg (by simp [hop])]
      exact (h.plainValue hop).literalValue_writeValue
    | true => exact (h.plainList hop).filterValue_writeList hop
  obtain ⟨id, field, operator, value⟩ := f
  simp only at hid hfield hvalue
  simp only [Filter.reread, Filter.ofCondition, Filter.condition, hvalue, hfield, ← hid]

end Filter.Plain

end Soql.Builder
