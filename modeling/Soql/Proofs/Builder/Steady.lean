import Soql.Proofs.Builder.ReadBack
import Soql.Proofs.Builder.Value

/-!
# Filters that are written again as they were

A filter is written, its right-hand side is imported, and the imported value is written again. The
text is the same unless it is a relative date with blanks at its ends, or a list in which an item
leaves a parenthesis open. `Filter.Steady` leaves these out, and also the values that are not read
alone: bind variables with a word that ends conditions, and texts other than groups that start with
a parenthesis in the place of a list. A group is steady if it is a subquery, or holds its items in
the spelling in which they are written.
-/

namespace Soql.Builder

open Kind Token Literal

/-- The texts that the items of a list denote. -/
def Filter.items (f : Filter) : List Text :=
  (splitItems f.value.trim).map unquote

/-- A list of texts whose items are told apart when they stand in a list without their quotes, and
whose dates have no blanks to lose. -/
structure Separable (vs : List Text) : Prop where
  levels : ∀ v ∈ vs.dropLast, isPlainValue true v = true → depth 0 (kindsOf v) = 0
  dates : ∀ v ∈ vs, Date.isLiteral v = true → v.Tight

/-- Where no text is a date, only open parentheses stand between a list and its separation. -/
theorem Separable.of_no_dates {vs : List Text} (hdates : ∀ v ∈ vs, Date.isLiteral v = false)
    (levels : ∀ v ∈ vs.dropLast, isPlainValue true v = true → depth 0 (kindsOf v) = 0) :
    Separable vs where
  levels := levels
  dates v hv hdate := by
    rw [hdates v hv] at hdate
    cases hdate

/-- A filter whose right-hand side is read alone and written again as it was: by the kind of its
value a literal, a subquery, a group of items as they are written, or a list without parentheses. -/
inductive Filter.Steady (f : Filter) : Prop
  | single (operator : f.operator.takesList = false)
      (dates : Date.isLiteral (unquote f.value) = true → (unquote f.value).Tight)
      (alone : ¬ EndsCondition (unquote f.value))
  | subquery (operator : f.operator.takesList = true) (closed : Closed f.value)
      (query : (subqueryBody? f.value).isSome = true)
  | group (operator : f.operator.takesList = true) (us : List Text)
      (value : f.value.trim = Soql.group (Text.join ", ".toList (us.map writeText)))
      (separable : Separable us)
  | list (operator : f.operator.takesList = true) (head : f.value.trim.head? ≠ some '(')
      (separable : Separable f.items)

/-- One value is written as the text that it denotes. -/
theorem Filter.right_single {f : Filter} (h : f.operator.takesList = false) :
    f.right = writeText (unquote f.value) := by
  rw [Filter.right, h]
  rfl

/-- A value that starts with a parenthesis is written as it is. -/
theorem Filter.right_group {f : Filter} (h : f.operator.takesList = true)
    (hhead : f.value.trim.head? = some '(') : f.right = f.value.trim := by
  rw [Filter.right, h, if_pos rfl, writeList_of_group hhead]

theorem Filter.right_of_group {f : Filter} {s : Text} (h : f.operator.takesList = true)
    (hvalue : f.value = Soql.group s) : f.right = Soql.group s := by
  have htrim : f.value.trim = Soql.group s := by rw [hvalue, (tight_group s).trim_eq]
  rw [right_group h (by rw [htrim]; rfl), htrim]

/-- Any other list is written item by item, in parentheses. -/
theorem Filter.right_list {f : Filter} (h : f.operator.takesList = true)
    (hhead : f.value.trim.head? ≠ some '(') :
    f.right = Soql.group (Text.join ", ".toList (f.items.map writeText)) := by
  rw [Filter.right, h, if_pos rfl, writeList_of_items hhead, Filter.items, List.map_map]
  rfl

/-- A text that can be taken out of parentheses starts with one. -/
theorem head?_of_isGroup {s : Text} (h : (stripOuterParens? s).isSome = true) :
    s.trim.head? = some '(' := by
  obtain ⟨b, h⟩ := Option.isSome_iff_exists.1 h
  obtain ⟨o, inside, c, htok, ho, hc, -⟩ := stripOuterParens?_eq_some_iff.1 h
  rw [eq_group_of_tokenize (Text.tight_trim s) htok ho hc]
  rfl

/-- A subquery stands in parentheses. -/
theorem isGroup_of_subqueryBody? {v : Text} (h : (subqueryBody? v).isSome = true) :
    (stripOuterParens? v).isSome = true := by
  obtain ⟨body, hbody⟩ := Option.isSome_iff_exists.1 h
  exact Option.isSome_of_eq_some (Option.filter_eq_some_iff.1 hbody).1

theorem head?_of_subqueryBody? {v : Text} (h : (subqueryBody? v).isSome = true) :
    v.trim.head? = some '(' :=
  head?_of_isGroup (isGroup_of_subqueryBody? h)

/-- What a filter is read as again is written by its operator. -/
theorem Filter.right_reread_eq (f : Filter) (n : Nat) : (f.reread n).right =
    if f.operator.takesList then writeList (filterValue f.operator f.right.trim)
    else writeValue (filterValue f.operator f.right.trim) := rfl

/-- A list that is written with separable items is written again as it was. -/
theorem Filter.right_reread_of_separable {f : Filter} (hop : f.operator.takesList = true)
    {us : List Text} (hright : f.right = Soql.group (Text.join ", ".toList (us.map writeText)))
    (h : Separable us) (n : Nat) : (f.reread n).right = f.right := by
  rw [right_reread_eq, if_pos hop, hright, (tight_group _).trim_eq, filterValue_group hop h.dates,
    writeList_join, List.map_map]
  · congr 2
    refine List.map_congr_left fun u hu => ?_
    rw [Function.comp_apply, writeValue_literalValue, writeText_unquote_writeText,
      ((form u).tight (h.dates u hu)).trim_eq]
  · simp only [List.mem_map, forall_exists_index, and_imp, forall_apply_eq_imp_iff₂]
    exact fun u _ => listItem_literalValue _
  · rw [← List.map_dropLast]
    simp only [List.mem_map, forall_exists_index, and_imp, forall_apply_eq_imp_iff₂]
    exact fun u hu => depth_literalValue (form u) (h.levels u hu)

namespace Filter.Steady

variable {f : Filter} (h : f.Steady)

include h

/-- A steady filter is a literal, a subquery, or a list whose items are separable. -/
theorem right_cases :
    (f.operator.takesList = false ∧ f.right = writeText (unquote f.value) ∧
      (Date.isLiteral (unquote f.value) = true → (unquote f.value).Tight) ∧
      ¬ EndsCondition (unquote f.value)) ∨
    (f.operator.takesList = true ∧ f.right = f.value.trim ∧ Closed f.value ∧
      (subqueryBody? f.value).isSome = true) ∨
    f.operator.takesList = true ∧ ∃ us : List Text,
      f.right = Soql.group (Text.join ", ".toList (us.map writeText)) ∧ Separable us := by
  cases h with
  | single operator dates alone => exact .inl ⟨operator, right_single operator, dates, alone⟩
  | subquery operator closed query =>
    have hhead := head?_of_subqueryBody? query
    exact .inr (.inl ⟨operator, right_group operator hhead, closed, query⟩)
  | group operator us value separable =>
    have hhead : f.value.trim.head? = some '(' := by
      rw [value]
      rfl
    exact .inr (.inr ⟨operator, us, (right_group operator hhead).trans value, separable⟩)
  | list operator head separable =>
    exact .inr (.inr ⟨operator, _, right_list operator head, separable⟩)

/-- The right-hand side can be read without what stands around it. -/
theorem readsAlone : ReadsAlone f.right := by
  obtain ⟨-, hright, -, halone⟩ | ⟨-, hright, hclosed, hquery⟩ | ⟨-, us, hright, -⟩ :=
    h.right_cases <;> rw [hright]
  · exact (form _).readsAlone halone
  · obtain ⟨b, hb⟩ := Option.isSome_iff_exists.1 (isGroup_of_subqueryBody? hquery)
    exact .of_stripOuterParens? hclosed hb
  · exact .group closed_join_writeText balanced_join_writeText

theorem right_ne_nil : f.right.trim ≠ [] := by
  obtain ⟨-, hright, -⟩ | ⟨-, hright, -, hquery⟩ | ⟨-, us, hright, -⟩ := h.right_cases <;>
    rw [hright]
  · exact (form _).trim_ne_nil
  · have hhead := head?_of_subqueryBody? hquery
    rw [Text.trim_trim]
    intro hnil
    rw [hnil] at hhead
    cases hhead
  · rw [(tight_group _).trim_eq]
    simp [Soql.group]

/-- No blanks stand at the ends of the right-hand side. -/
theorem tight_right : f.right.Tight := by
  obtain ⟨-, hright, hdates, -⟩ | ⟨-, hright, -⟩ | ⟨-, us, hright, -⟩ := h.right_cases <;>
    rw [hright]
  · exact (form _).tight hdates
  · exact Text.tight_trim _
  · exact tight_group _

/-- The right-hand side is written again as it was. -/
theorem right_reread (n : Nat) : (f.reread n).right = f.right := by
  obtain ⟨hop, hright, hdates, -⟩ | ⟨hop, hright, -, hquery⟩ | ⟨hop, us, hright, hsep⟩ :=
    h.right_cases
  · rw [right_reread_eq, hop, hright, filterValue, hop]
    simp only [Bool.false_eq_true, if_false]
    rw [writeValue_literalValue, unquote_trim, writeText_unquote_writeText,
      ((form _).tight hdates).trim_eq]
  · -- a subquery is imported as it is, and starts with its parenthesis
    have hhead := head?_of_subqueryBody? hquery
    rw [← subqueryBody?_trim] at hquery
    rw [right_reread_eq, if_pos hop, hright, Text.trim_trim, filterValue, if_pos hop,
      if_pos hquery, Text.trim_trim, writeList_of_group (by rwa [Text.trim_trim]), Text.trim_trim]
  · exact right_reread_of_separable hop hright hsep n

end Filter.Steady

end Soql.Builder
