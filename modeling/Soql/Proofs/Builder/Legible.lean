import Soql.Proofs.Builder.OrderBy
import Soql.Proofs.Query.Comparison
import Soql.Proofs.Query.Count
import Soql.Proofs.Query.Layout
import Soql.Proofs.Query.Selection

/-!
# Legible states

A state is legible when every part of it is read back from the query that it writes: the names
hold no word that opens a clause, the conditions read alone, and so does the order. The clauses
that are read from the query of such a state are the ones that were written.
-/

namespace Soql

open Kind Token

theorem Clause.eq_or_condition_before {c : Clause} (h : c.isArgument = true) :
    c = .condition ∨ Clause.condition.Before c := by
  unfold Clause.Before
  revert h
  cases c <;> decide

theorem Clause.eq_or_ordering_before {c : Clause} (h : c.isArgument = true) :
    c = .ordering ∨ c = .condition ∨ Clause.ordering.Before c := by
  unfold Clause.Before
  revert h
  cases c <;> decide

/-- The phrases by which a query groups and restricts its groups. A state has no place for them. -/
def groupingPhrases : List (List Keyword) :=
  [[.GROUP, .BY], [.HAVING]]

/-- A query does not group if the keywords stand nowhere at top level. -/
theorem Query.hasGroupBy_eq_false_iff {ts : List Token} (h : Stretch ts) :
    (ofTokens ts).hasGroupBy = false ↔ Clear (Phrase.leadsKinds [.GROUP, .BY]) 0 (kinds ts) [] := by
  change (Clause.grouping.body? ts).isSome = false ↔ _
  rw [Option.isSome_eq_false_iff, Option.isNone_iff_eq_none]
  exact Clause.body?_eq_none_iff h

/-- A query does not restrict groups if the keyword stands nowhere at top level. -/
theorem Query.hasHaving_eq_false_iff {ts : List Token} (h : Stretch ts) :
    (ofTokens ts).hasHaving = false ↔ Clear (Phrase.leadsKinds [.HAVING]) 0 (kinds ts) [] := by
  change (Phrase.find? ([Keyword.HAVING].map Keyword.spelling) ts).isSome = false ↔ _
  rw [Option.isSome_eq_false_iff, Option.isNone_iff_eq_none]
  exact Phrase.find?_eq_none_iff h (List.cons_ne_nil _ _)

section Grouping

variable {words : List Keyword} (hw : words ∈ groupingPhrases)

include hw

theorem search_grouping : Search (Phrase.leadsKinds words) := by
  have hall : ∀ words ∈ groupingPhrases, words.head?.any Keyword.startsPhrase = true := by decide
  exact search_leadsKinds (hall words hw)

theorem near_grouping : Near (Phrase.leadsKinds words) := by
  have hall : ∀ words ∈ groupingPhrases, ∃ w, words = [w] ∨ words = [w, .BY] := by
    simp [groupingPhrases]
  exact near_leadsKinds (hall words hw)

/-- A grouping ends conditions. -/
theorem closes_grouping : words ∈ Clause.condition.endingWords := by
  have hall : ∀ words ∈ groupingPhrases, words ∈ Clause.condition.endingWords := by decide
  exact hall words hw

/-- No word that is written between the parts of a state starts one of the phrases. -/
theorem leadsKinds_grouping : ∀ w ∈ [Keyword.SELECT, .FROM, .WHERE, .ORDER, .BY, .LIMIT, .OFFSET],
    ∀ ls, Phrase.leadsKinds words (.keyword w :: ls) = false := by
  have hall : ∀ words ∈ groupingPhrases,
      ∀ w ∈ [Keyword.SELECT, .FROM, .WHERE, .ORDER, .BY, .LIMIT, .OFFSET], words.head? ≠ some w := by
    decide
  intro w hmem ls
  by_contra hlead
  cases words with
  | nil => simp [groupingPhrases] at hw
  | cons v words =>
    have hv := Phrase.eq_of_leadsKinds (by simpa using hlead)
    simp only [Kind.keyword.injEq] at hv
    exact hall _ hw w hmem (by rw [hv]; rfl)

end Grouping

/-- No search stops at a number. -/
theorem Search.passes_ofNat {f : List Kind → Bool} (hf : Search f) (n : Nat) :
    Passes f (kindsOf (Text.ofNat n)) := by
  rw [kindsOf_ofNat]
  exact hf.passes (by simp [Kind.startsPhrase])

namespace Builder

/-- The right-hand side of a condition as it is written. -/
def Filter.right (f : Filter) : Text :=
  if f.operator.takesList then Literal.writeList f.value else Literal.writeValue f.value

/-- A filter as a condition of the query. -/
def Filter.condition (f : Filter) : Condition :=
  { field := f.field.trim, operator := f.operator, rawValue := f.right }

theorem Filter.write_eq (f : Filter) : f.write = f.condition.write := rfl

/-- The conditions of a query are those among the fragments of its `WHERE` clause. -/
theorem conditions_ofTokens (ts : List Token) :
    (Query.ofTokens ts).conditions = (fragments ts).filterMap Condition.ofText? := by
  unfold Query.ofTokens fragments
  cases Clause.condition.body? ts <;> rfl

/-- The fields to sort by are what is left of the items of the `ORDER BY` clause. -/
theorem orderItems_ofTokens (ts : List Token) : (Query.ofTokens ts).orderItems =
    ((orderItems ts).map stripOrderDirection).filter (!·.isEmpty) := by
  unfold Query.ofTokens orderItems
  cases Clause.ordering.body? ts <;> rfl

namespace State

/-- The `WHERE` clause of filters. -/
def conditionPart (filters : List Filter) : List (Clause × Text) :=
  if (writeFilters filters).isEmpty then [] else [(.condition, writeFilters filters)]

/-- The clause that sorts. -/
def orderPart : Option OrderBy → List (Clause × Text)
  | some o => if o.field.trim.isEmpty then [] else [(.ordering, o.write)]
  | none => []

/-- A clause with a count. -/
def countPart (c : Clause) (n : UInt32) : List (Clause × Text) :=
  if n = 0 then [] else [(c, Text.ofNat n.toNat)]

/-- The clauses of a state, with their bodies. -/
def clauses (s : State) : List (Clause × Text) :=
  conditionPart s.filters ++ (orderPart s.orderBy ++
    (countPart .limit s.limit ++ countPart .offset s.offset))

/-- The selection is a list of items, or of an id alone. -/
theorem selection_eq (s : State) :
    s.selection = Text.join ", ".toList (orId s.selectionItems) := by
  unfold selection orId
  split <;> rfl

/-- The conditions are written as a clause, if there are any. -/
theorem conditionClause_eq (filters : List Filter) :
    conditionClause filters = (conditionPart filters).map fun p => p.1.write p.2 := by
  have hwhere : "WHERE ".toList = Clause.condition.opening ++ [' '] := by decide
  unfold conditionClause conditionPart
  rw [hwhere]
  split
  · rfl
  · rw [List.map_singleton, Clause.write, List.append_assoc, List.singleton_append]

/-- So is the order, if it has a field. -/
theorem orderClause_eq (order : Option OrderBy) :
    orderClause order = (orderPart order).map fun p => p.1.write p.2 := by
  have horder : "ORDER BY ".toList = Clause.ordering.opening ++ [' '] := by decide
  cases order with
  | none => rfl
  | some o =>
    unfold orderClause orderPart
    rw [horder]
    dsimp only
    split
    · rfl
    · rw [List.map_singleton, Clause.write, OrderBy.write, List.append_assoc, List.append_assoc,
        List.singleton_append]

/-- So is a count, if it is not zero. -/
theorem countClause_eq (c : Clause) (n : UInt32) :
    countClause c.opening n = (countPart c n).map fun p => p.1.write p.2 := by
  unfold countClause countPart
  split <;> rfl

/-- What follows the object is its clauses in order. -/
theorem arguments_eq (s : State) :
    s.arguments = Text.join [' '] (s.clauses.map fun p => p.1.write p.2) := by
  rw [clauses, List.map_append, List.map_append, List.map_append, ← conditionClause_eq,
    ← orderClause_eq, ← countClause_eq, ← countClause_eq, ← List.append_assoc, ← List.append_assoc]
  rfl

/-- The query of a state with an object. -/
theorem query_eq {s : State} (h : s.object.trim ≠ []) :
    s.query = writeSelect s.selection s.object.trim s.arguments := by
  unfold query writeSelect
  rw [if_neg (by simpa using h)]

/-- The parts of a state are read back from its query. -/
structure Legible (s : State) : Prop where
  object : ∃ k, tokenize s.object = [⟨[], k, s.object⟩] ∧ k.isWord = true
  object_unread : Unread (kindsOf s.object)
  selection : ∀ x ∈ s.selectionItems, ItemReadsBack x
  selection_unread : ∀ x ∈ s.selectionItems, Unread (kindsOf x)
  conditions : ∀ f ∈ s.filters, f.condition.ReadsBack
  order : ∀ o ∈ s.orderBy, o.field = [] ∨ o.Legible
  order_unread : s.filters = [] → ∀ o ∈ s.orderBy, Passes Clause.condition.opens (kindsOf o.field)

/-- With plain names for the object and for the field of the order, it is for the items and for the
conditions to be read back. -/
theorem Legible.of_plainNames {s : State} (hobject : PlainName s.object)
    (hselection : ∀ x ∈ s.selectionItems, ItemReadsBack x ∧ Unread (kindsOf x))
    (hconditions : ∀ f ∈ s.filters, f.condition.ReadsBack)
    (horder : ∀ o ∈ s.orderBy, PlainPath o.field) : s.Legible where
  object := ⟨_, hobject, rfl⟩
  object_unread := hobject.plainPath.unread
  selection x hx := (hselection x hx).1
  selection_unread x hx := (hselection x hx).2
  conditions := hconditions
  order o ho := .inr (OrderBy.legible_of_plainPath (horder o ho))
  order_unread _ o ho := (horder o ho).unread .condition rfl

section Parts

variable {filters : List Filter} (hfilters : ∀ f ∈ filters, f.condition.ReadsBack)
  {order : Option OrderBy} (horder : ∀ o ∈ order, o.field = [] ∨ o.Legible) {p : Clause × Text}

include hfilters in
/-- The filters are written as conditions between connectives. -/
theorem writeFilters_eq : writeFilters filters =
    Text.join " AND ".toList ((filters.map Filter.condition).map Condition.write) := by
  have hkeep : filters.filter (!·.field.trim.isEmpty) = filters := by
    rw [List.filter_eq_self]
    intro f hf
    have : f.field.trim ≠ [] := (hfilters f hf).field_ne_nil
    simpa using this
  rw [writeFilters, hkeep, List.map_map]
  rfl

include hfilters in
/-- Filters that are read back are written, if there are any. -/
theorem writeFilters_eq_nil_iff : writeFilters filters = [] ↔ filters = [] := by
  rw [writeFilters_eq hfilters]
  cases filters with
  | nil => simp [Text.join]
  | cons f filters =>
    have hne : f.condition.write ≠ [] := by
      intro hnil
      rw [Condition.write] at hnil
      simp at hnil
    simp only [List.map_cons, reduceCtorEq, iff_false]
    exact Text.join_ne_nil _ hne _

theorem eq_of_mem_conditionPart (hp : p ∈ conditionPart filters) :
    writeFilters filters ≠ [] ∧ p = (.condition, writeFilters filters) := by
  rw [conditionPart] at hp
  split at hp
  · cases hp
  · next hne => exact ⟨by simpa using hne, List.mem_singleton.1 hp⟩

include hfilters in
/-- What is known of the conditions as a clause. -/
theorem of_mem_conditionPart (hp : p ∈ conditionPart filters) : p.1 = .condition ∧ filters ≠ [] ∧
    Closed p.2 ∧ Balanced (kindsOf p.2) ∧ Passes Clause.condition.closes (kindsOf p.2) := by
  have halone : ∀ x ∈ (filters.map Filter.condition).map Condition.write, ReadsAlone x := by
    simp only [List.map_map, List.mem_map]
    rintro x ⟨f, hf, rfl⟩
    exact (hfilters f hf).alone
  obtain ⟨hne, rfl⟩ := eq_of_mem_conditionPart hp
  rw [ne_eq, writeFilters_eq_nil_iff hfilters] at hne
  refine ⟨rfl, hne, ?_⟩
  rw [writeFilters_eq hfilters]
  exact ReadsAlone.join halone

include horder in
/-- What is known of the order as a clause. -/
theorem of_mem_orderPart (hp : p ∈ orderPart order) : p.1 = .ordering ∧
    ∃ o ∈ order, o.Legible ∧ p.2 = o.write := by
  cases order with
  | none => cases hp
  | some o =>
    rw [orderPart] at hp
    split at hp
    · cases hp
    · next hne =>
      obtain rfl := List.mem_singleton.1 hp
      refine ⟨rfl, o, rfl, ?_, rfl⟩
      rcases horder o rfl with hnil | hlegible
      · rw [hnil] at hne
        exact absurd rfl hne
      · exact hlegible

/-- What is known of a count as a clause. -/
theorem of_mem_countPart {c : Clause} {n : UInt32} (hp : p ∈ countPart c n) :
    p.1 = c ∧ p.2 = Text.ofNat n.toNat := by
  rw [countPart] at hp
  split at hp
  · cases hp
  · obtain rfl := List.mem_singleton.1 hp
    exact ⟨rfl, rfl⟩

end Parts

/-- What holds of the conditions, of a legible order and of counts holds of every clause. -/
theorem forall_clauses {s : State} (horder : ∀ o ∈ s.orderBy, o.field = [] ∨ o.Legible)
    {P : Clause → Text → Prop} (hcondition : P .condition (writeFilters s.filters))
    (hordering : ∀ o ∈ s.orderBy, o.Legible → P .ordering o.write)
    (hlimit : ∀ n, P .limit (Text.ofNat n)) (hoffset : ∀ n, P .offset (Text.ofNat n)) :
    ∀ p ∈ s.clauses, P p.1 p.2 := by
  rintro ⟨c, body⟩ hp
  rw [clauses, List.mem_append, List.mem_append, List.mem_append] at hp
  rcases hp with hp | hp | hp | hp
  · cases (eq_of_mem_conditionPart hp).2
    exact hcondition
  · obtain ⟨rfl, o, ho, hlegible, rfl⟩ := of_mem_orderPart horder hp
    exact hordering o ho hlegible
  · obtain ⟨rfl, rfl⟩ := of_mem_countPart hp
    exact hlimit _
  · obtain ⟨rfl, rfl⟩ := of_mem_countPart hp
    exact hoffset _

/-- No clause opens a quote if the filters do not. -/
theorem closed_clauses {s : State} (horder : ∀ o ∈ s.orderBy, o.field = [] ∨ o.Legible)
    (hfilters : Closed (writeFilters s.filters)) : ∀ p ∈ s.clauses, Closed p.2 :=
  forall_clauses (P := fun _ => Closed) horder hfilters (fun _ _ ho => ho.piece_write.closed)
    (fun _ => (piece_ofNat _).closed) fun _ => (piece_ofNat _).closed

/-- The clauses of a state are written in order. -/
theorem sorted_clauses (s : State) : s.clauses.Pairwise fun p q => p.1.Before q.1 := by
  have hpart : ∀ (c : Clause) (b : Prop) [Decidable b] (t : Text),
      ((if b then [] else [(c, t)]).map Prod.fst).Sublist [c] := by
    intro c b _ t
    split <;> simp
  have horder : ((orderPart s.orderBy).map Prod.fst).Sublist [.ordering] := by
    cases s.orderBy with
    | none => simp [orderPart]
    | some o => exact hpart _ _ _
  have hsub : (s.clauses.map Prod.fst).Sublist [.condition, .ordering, .limit, .offset] := by
    rw [clauses, List.map_append, List.map_append, List.map_append]
    exact (hpart _ _ _).append (horder.append ((hpart _ _ _).append (hpart _ _ _)))
  have hsorted : [Clause.condition, .ordering, .limit, .offset].Pairwise Clause.Before := by
    unfold Clause.Before
    decide
  exact List.pairwise_map.1 (hsorted.sublist hsub)

theorem lookup_part (c c' : Clause) (b : Prop) [Decidable b] (t : Text) :
    (if b then [] else [(c, t)]).lookup c' = if c' = c ∧ ¬b then some t else none := by
  by_cases hb : b
  · simp [hb]
  · by_cases hc : c' = c
    · simp [hc, hb]
    · have hne : (c' == c) = false := by simpa using hc
      simp [hc, hb, List.lookup_cons, hne]

theorem lookup_orderPart (order : Option OrderBy) (c : Clause) : (orderPart order).lookup c =
    if c = .ordering then (order.filter (!·.field.trim.isEmpty)).map OrderBy.write else none := by
  cases order with
  | none => simp [orderPart]
  | some o =>
    rw [orderPart, lookup_part]
    by_cases hc : c = .ordering <;> by_cases hnil : o.field.trim.isEmpty = true <;>
      simp [hc, hnil, Option.filter]

/-- The clause of conditions, if there is one. -/
theorem lookup_condition (s : State) : s.clauses.lookup .condition =
    if (writeFilters s.filters).isEmpty then none else some (writeFilters s.filters) := by
  simp only [clauses, List.lookup_append, conditionPart, countPart, lookup_part, lookup_orderPart]
  split <;> simp_all

/-- The clause with the order, if there is one. -/
theorem lookup_ordering (s : State) : s.clauses.lookup .ordering =
    (s.orderBy.filter (!·.field.trim.isEmpty)).map OrderBy.write := by
  simp only [clauses, List.lookup_append, conditionPart, countPart, lookup_part, lookup_orderPart]
  simp

/-- The clauses with the counts, if there are any. -/
theorem lookup_count (s : State) :
    s.clauses.lookup .limit = (if s.limit = 0 then none else some (Text.ofNat s.limit.toNat)) ∧
    s.clauses.lookup .offset = if s.offset = 0 then none else some (Text.ofNat s.offset.toNat) := by
  simp only [clauses, List.lookup_append, conditionPart, countPart, lookup_part, lookup_orderPart]
  constructor <;> split <;> simp_all

theorem map_trim_count (n : UInt32) :
    (if n = 0 then none else some (Text.ofNat n.toNat)).map Text.trim =
      if n = 0 then none else some (Text.ofNat n.toNat) := by
  split
  · rfl
  · rw [Option.map_some, (piece_ofNat _).tight.trim_eq]

/-- A count that is written is read back, and zero is not written. -/
theorem bind_count? (n : UInt32) :
    (if n = 0 then none else some (Text.ofNat n.toNat)).bind Query.count? =
      if n = 0 then none else some n.toNat := by
  split
  · rfl
  · rw [Option.bind_some, Query.count?_ofNat]
    exact Nat.lt_trans n.toNat_lt (by decide)

/-- The tokens of a query are those of its parts when every part is closed. -/
theorem exists_layout {s : State}
    (hobject : ∃ k, tokenize s.object = [⟨[], k, s.object⟩] ∧ k.isWord = true)
    (hselection : Closed s.selection) (hclosed : ∀ p ∈ s.clauses, Closed p.2) : ∃ its ts,
    Heading s.selection s.object s.arguments (tokenize s.query) its ts ∧ Layout s.clauses ts := by
  obtain ⟨k, hobject, hk⟩ := hobject
  have hpiece : Piece s.object := .of_tokenize hobject (by rintro rfl; cases hk) (by rintro rfl; cases hk)
  have hne : s.object ≠ [] := by
    intro hnil
    rw [hnil, tokenize_nil] at hobject
    cases hobject
  have harguments : Closed s.arguments := by
    rw [arguments_eq]
    refine closed_join_space ?_
    simp only [List.mem_map, forall_exists_index, and_imp, Prod.forall]
    rintro y c body hp rfl
    exact (closed_opening c).space _ (hclosed _ hp)
  obtain ⟨its, ts, hheading⟩ := exists_heading hselection hobject hk harguments
  rw [query_eq (by rwa [hpiece.tight.trim_eq]), hpiece.tight.trim_eq]
  refine ⟨its, ts, hheading, Soql.exists_layout hclosed ?_⟩
  rw [← arguments_eq]
  exact hheading.rest

/-- A clause behind the object is read as it is written when no search for it stops before. -/
theorem body?_query {s : State} {c : Clause} (hc : c.isArgument = true)
    (hobject : ∃ k, tokenize s.object = [⟨[], k, s.object⟩] ∧ k.isWord = true)
    (hselection : Closed s.selection) (hclosed : ∀ p ∈ s.clauses, Closed p.2)
    (hitems : Passes c.opens (kindsOf s.selection)) (hname : Passes c.opens (kindsOf s.object))
    (hread : c.ReadsBack s.clauses) :
    c.body? (tokenize s.query) = (s.clauses.lookup c).map Text.trim := by
  obtain ⟨its, ts, hheading, hlayout⟩ := exists_layout hobject hselection hclosed
  have hopens : ∀ ls, c.opens (.keyword .SELECT :: ls) = false ∧
      c.opens (.keyword .FROM :: ls) = false := by
    intro ls
    cases c <;> first | exact ⟨rfl, rfl⟩ | cases hc
  obtain ⟨hd, htok, hpass⟩ := hheading.exists_passes (fun ls => (hopens ls).1)
    (fun ls => (hopens ls).2) hitems hname
  have hstretch := hheading.stretch
  rw [htok] at hstretch ⊢
  exact Clause.body?_eq_lookup hlayout hstretch hpass hread

section Selection

variable {s : State} (h : ∀ x ∈ s.selectionItems, ItemReadsBack x)

include h

/-- A legible selection can be a piece of the query. -/
theorem piece_selection : Piece s.selection := by
  rw [selection_eq]
  exact piece_join_items (ItemReadsBack.orId h)

theorem balanced_selection : Balanced (kindsOf s.selection) := by
  rw [selection_eq]
  exact balanced_join_items (ItemReadsBack.orId h)

/-- No object is found in the selection. -/
theorem passes_from_selection :
    Passes (Phrase.leadsKinds [.FROM]) (kindsOf s.selection) := by
  rw [selection_eq]
  exact passes_from_join_items (ItemReadsBack.orId h)

/-- A search that stops at phrases only passes over the select list if it passes over its items. -/
theorem passes_selection {f : List Kind → Bool} (hf : Search f)
    (hitems : ∀ x ∈ s.selectionItems, Passes f (kindsOf x)) : Passes f (kindsOf s.selection) := by
  rw [selection_eq]
  exact hf.passes_join (fun x hx => (ItemReadsBack.orId h x hx).piece.closed)
    (forall_orId (hf.passes plainPath_id.quiet) hitems)

/-- No clause opens in the selection, if none does in its items. -/
theorem unread_selection (hunread : ∀ x ∈ s.selectionItems, Unread (kindsOf x)) :
    Unread (kindsOf s.selection) := fun c hc =>
  passes_selection h c.search_opens fun x hx => hunread x hx c hc

end Selection

namespace Legible

variable {s : State} (h : s.Legible)

include h

/-- What is known of the clauses that are written. -/
theorem of_mem_clauses {p : Clause × Text} (hp : p ∈ s.clauses) :
    (p.1 = .condition ∧ s.filters ≠ [] ∧ Closed p.2 ∧ Balanced (kindsOf p.2) ∧
      Passes Clause.condition.closes (kindsOf p.2)) ∨
    (p.1 = .ordering ∧ ∃ o ∈ s.orderBy, o.Legible ∧ p.2 = o.write) ∨
    ((p.1 = .limit ∨ p.1 = .offset) ∧ ∃ n, p.2 = Text.ofNat n) := by
  rw [clauses, List.mem_append, List.mem_append, List.mem_append] at hp
  rcases hp with hp | hp | hp | hp
  · exact .inl (of_mem_conditionPart h.conditions hp)
  · exact .inr (.inl (of_mem_orderPart h.order hp))
  · obtain ⟨hc, hn⟩ := of_mem_countPart hp
    exact .inr (.inr ⟨.inl hc, _, hn⟩)
  · obtain ⟨hc, hn⟩ := of_mem_countPart hp
    exact .inr (.inr ⟨.inr hc, _, hn⟩)

theorem closed_of_mem_clauses {p : Clause × Text} (hp : p ∈ s.clauses) : Closed p.2 := by
  refine closed_clauses h.order ?_ p hp
  rw [writeFilters_eq h.conditions]
  refine (ReadsAlone.join fun x hx => ?_).1
  obtain ⟨c, hc, rfl⟩ := List.mem_map.1 hx
  obtain ⟨f, hf, rfl⟩ := List.mem_map.1 hc
  exact (h.conditions f hf).alone

/-- Every clause closes what it opens. -/
theorem balanced_of_mem_clauses {p : Clause × Text} (hp : p ∈ s.clauses) :
    Balanced (kindsOf p.2) := by
  rcases h.of_mem_clauses hp with ⟨-, -, -, hbal, -⟩ | ⟨-, o, -, ho, hwrite⟩ | ⟨-, n, hn⟩
  · exact hbal
  · rw [hwrite]
    exact ho.balanced_write
  · rw [hn, kindsOf_ofNat]
    rfl

theorem mem_clauses (hne : s.filters ≠ []) :
    (.condition, writeFilters s.filters) ∈ s.clauses := by
  have hwrite : (writeFilters s.filters).isEmpty = false := by
    rw [List.isEmpty_eq_false_iff, ne_eq, writeFilters_eq_nil_iff h.conditions]
    exact hne
  rw [clauses, conditionPart, hwrite]
  simp

/-- Every clause is found where it is written. -/
theorem readsBack {c : Clause} (hc : c.isArgument = true) : c.ReadsBack s.clauses := by
  refine Clause.readsBack_of_sorted (sorted_clauses s) ?_ ?_
  · intro p hp hpc
    rcases h.of_mem_clauses hp with ⟨hcond, -, -, -, hpass⟩ | ⟨hord, o, -, ho, hwrite⟩ | ⟨-, n, hn⟩
    · rwa [← hpc, hcond]
    · rw [← hpc, hord, hwrite]
      exact ho.passes_write Clause.ordering.search_closes ho.passes
    · rw [hn]
      exact c.search_closes.passes_ofNat n
  · intro p hp hpc hbefore
    rcases h.of_mem_clauses hp with ⟨hcond, -, -, -, hpass⟩ | ⟨hord, o, ho, hlegible, hwrite⟩ |
      ⟨-, n, hn⟩
    · rcases Clause.eq_or_condition_before hc with rfl | hwhere
      · exact absurd hcond hpc
      · exact hpass.imp fun ls hls => Clause.closes_of_before hwhere hls
    · rw [hwrite]
      refine hlegible.passes_write c.search_opens ?_
      rcases Clause.eq_or_ordering_before hc with rfl | rfl | hlater
      · exact absurd hord hpc
      · refine h.order_unread ?_ o ho
        by_contra hne
        rcases hbefore with hbefore | hall
        · rw [hord] at hbefore
          exact absurd hbefore (by unfold Clause.Before; decide)
        · exact hall _ (h.mem_clauses hne) rfl
      · exact hlegible.passes.imp fun ls hls => Clause.closes_of_before hlater hls
    · rw [hn]
      exact c.search_opens.passes_ofNat n

/-- The query starts with selection and object, and its clauses are laid out behind them. -/
theorem exists_layout : ∃ its ts,
    Heading s.selection s.object s.arguments (tokenize s.query) its ts ∧ Layout s.clauses ts :=
  State.exists_layout h.object (piece_selection h.selection).closed fun _ hp =>
    h.closed_of_mem_clauses hp

/-- No quote is left open in the query. -/
theorem stretch : Stretch (tokenize s.query) := by
  obtain ⟨its, ts, hheading, -⟩ := h.exists_layout
  exact hheading.stretch

/-- A query groups, or restricts groups, if a name or the order of its state does. -/
theorem passes_grouping {words : List Keyword} (hw : words ∈ groupingPhrases)
    (hitems : ∀ x ∈ s.selectionItems, Passes (Phrase.leadsKinds words) (kindsOf x))
    (hobject : Passes (Phrase.leadsKinds words) (kindsOf s.object))
    (horder : ∀ o ∈ s.orderBy, Passes (Phrase.leadsKinds words) (kindsOf o.field)) :
    Passes (Phrase.leadsKinds words) (kindsOf s.query) := by
  have hf := search_grouping hw
  have hwords := leadsKinds_grouping hw
  have hselection := passes_selection h.selection hf hitems
  obtain ⟨its, ts, hheading, hlayout⟩ := h.exists_layout
  obtain ⟨hd, htok, hpass⟩ := hheading.exists_passes (hwords .SELECT (by simp))
    (hwords .FROM (by simp)) hselection hobject
  rw [kindsOf, htok, kinds_append]
  refine hpass.append (hlayout.passes ?_ fun p hp => ?_) hlayout.not_by
  · intro p hp w hw
    refine hwords w ?_
    rcases h.of_mem_clauses hp with ⟨hc, -⟩ | ⟨hc, -⟩ | ⟨hc | hc, -⟩ <;>
      (rw [hc] at hw; revert w; decide)
  · rcases h.of_mem_clauses hp with ⟨-, -, -, -, hbody⟩ | ⟨-, o, ho, hwrite, heq⟩ | ⟨-, n, hn⟩
    · exact hbody.imp fun ls hls => List.any_eq_true.2 ⟨words, closes_grouping hw, hls⟩
    · rw [heq]
      exact hwrite.passes_write hf (horder o ho)
    · rw [hn]
      exact hf.passes_ofNat n

/-- No parenthesis is left open in the query. -/
theorem balanced : Balanced (kindsOf s.query) := by
  obtain ⟨its, ts, hheading, hlayout⟩ := h.exists_layout
  refine hheading.balanced (balanced_selection h.selection) ?_
  rw [← hheading.rest.kinds_eq]
  exact hlayout.balanced fun p hp => h.balanced_of_mem_clauses hp

/-- The selection is read back. -/
theorem selection_body? : Clause.selection.body? (tokenize s.query) = some s.selection := by
  obtain ⟨its, ts, hheading, -⟩ := h.exists_layout
  rw [hheading.selection_body?, (piece_selection h.selection).tight.trim_eq]
  refine (passes_from_selection h.selection).imp fun ls hls => ?_
  simpa [Clause.closes, Clause.endingWords] using hls

/-- The object is read back. -/
theorem objectName? : Token.objectName? (tokenize s.query) = some s.object := by
  obtain ⟨its, ts, hheading, -⟩ := h.exists_layout
  exact hheading.objectName? (passes_from_selection h.selection)

/-- The items that are selected are read back, or the id in their place. -/
theorem selectItems_eq :
    (Query.ofTokens (tokenize s.query)).selectItems = orId s.selectionItems := by
  change ((Clause.selection.body? (tokenize s.query)).map splitItems).getD [] = _
  rw [h.selection_body?, Option.map_some, Option.getD_some, selection_eq]
  exact splitItems_selection (ItemReadsBack.orId h.selection)

/-- The clauses behind the object are those that are written. -/
theorem body? {c : Clause} (hc : c.isArgument = true) :
    c.body? (tokenize s.query) = (s.clauses.lookup c).map Text.trim :=
  body?_query hc h.object (piece_selection h.selection).closed
    (fun _ hp => h.closed_of_mem_clauses hp)
    (unread_selection h.selection h.selection_unread c hc) (h.object_unread c hc) (h.readsBack hc)

/-- The conditions are read back as one text. -/
theorem condition_body? : Clause.condition.body? (tokenize s.query) =
    if s.filters = [] then none else some (writeFilters s.filters).trim := by
  rw [h.body? rfl, lookup_condition]
  simp only [List.isEmpty_iff, writeFilters_eq_nil_iff h.conditions]
  split <;> rfl

/-- The order is read back as one text. -/
theorem ordering_body? : Clause.ordering.body? (tokenize s.query) =
    (s.orderBy.filter (!·.field.isEmpty)).map OrderBy.write := by
  rw [h.body? rfl, lookup_ordering]
  cases horder : s.orderBy with
  | none => rfl
  | some o =>
    rcases h.order o horder with hnil | ho
    · simp [Option.filter, hnil]
    · simp [Option.filter, ho.piece.tight.trim_eq, ho.ne_nil, ho.piece_write.tight.trim_eq]

/-- The counts are read back as texts. -/
theorem count_body? : Clause.limit.body? (tokenize s.query) =
      (if s.limit = 0 then none else some (Text.ofNat s.limit.toNat)) ∧
    Clause.offset.body? (tokenize s.query) =
      if s.offset = 0 then none else some (Text.ofNat s.offset.toNat) := by
  rw [h.body? rfl, h.body? rfl, (lookup_count s).1, (lookup_count s).2, map_trim_count,
    map_trim_count]
  exact ⟨rfl, rfl⟩

/-- The filters are read back in order. -/
theorem fragments_eq :
    fragments (tokenize s.query) = s.filters.map (·.condition.write.trim) := by
  rw [fragments, h.condition_body?]
  split
  · next hnil => simp [hnil]
  · have hread : ∀ c ∈ s.filters.map Filter.condition, c.ReadsBack := by
      simp only [List.mem_map, forall_exists_index, and_imp, forall_apply_eq_imp_iff₂]
      exact h.conditions
    rw [Option.map_some, Option.getD_some, writeFilters_eq h.conditions,
      Condition.ReadsBack.splitConditions_trim_join hread, List.map_map]
    rfl

/-- Each condition is read back from its text. -/
theorem ofText?_fragment {f : Filter} (hf : f ∈ s.filters) :
    Condition.ofText? f.condition.write.trim =
      some { f.condition with rawValue := f.right.trim } :=
  (h.conditions f hf).ofText?_trim

theorem filterMap_fragments : (fragments (tokenize s.query)).filterMap Condition.ofText? =
    s.filters.map fun f => { f.condition with rawValue := f.right.trim } := by
  rw [h.fragments_eq, List.filterMap_map, ← List.filterMap_eq_map]
  refine List.filterMap_congr fun f hf => ?_
  exact h.ofText?_fragment hf

/-- An order by a field is legible. -/
theorem of_mem_filter_orderBy {o : OrderBy} (ho : o ∈ s.orderBy.filter (!·.field.isEmpty)) :
    o.Legible := by
  obtain ⟨hmem, hne⟩ := Option.filter_eq_some_iff.1 ho
  rcases h.order o hmem with hnil | hlegible
  · simp [hnil] at hne
  · exact hlegible

/-- There is one item to sort by, or none. -/
theorem orderItems_eq : orderItems (tokenize s.query) =
    ((s.orderBy.filter (!·.field.isEmpty)).map OrderBy.write).toList := by
  rw [orderItems, h.ordering_body?]
  cases horder : s.orderBy.filter (!·.field.isEmpty) with
  | none => rfl
  | some o =>
    rw [Option.map_some, Option.map_some, Option.getD_some,
      (h.of_mem_filter_orderBy horder).splitItems_write]
    rfl

/-- The limit is read back, unless it is zero. -/
theorem limit_eq : (Query.ofTokens (tokenize s.query)).limit =
    if s.limit = 0 then none else some s.limit.toNat := by
  change (Clause.limit.body? (tokenize s.query)).bind Query.count? = _
  rw [h.count_body?.1, bind_count?]

/-- The offset is read back, unless it is zero. -/
theorem offset_eq : (Query.ofTokens (tokenize s.query)).offset =
    if s.offset = 0 then none else some s.offset.toNat := by
  change (Clause.offset.body? (tokenize s.query)).bind Query.count? = _
  rw [h.count_body?.2, bind_count?]

/-- The filters are read back as conditions, with their values trimmed. -/
theorem conditions_eq : (Query.ofTokens (tokenize s.query)).conditions =
    s.filters.map fun f => { f.condition with rawValue := f.right.trim } := by
  rw [conditions_ofTokens, h.filterMap_fragments]

/-- The field to sort by is read back. -/
theorem sortedFields_eq : (Query.ofTokens (tokenize s.query)).orderItems =
    ((s.orderBy.filter (!·.field.isEmpty)).map OrderBy.field).toList := by
  rw [orderItems_ofTokens, h.orderItems_eq]
  cases horder : s.orderBy.filter (!·.field.isEmpty) with
  | none => rfl
  | some o =>
    have hlegible := h.of_mem_filter_orderBy horder
    have hstrip : stripOrderDirection o.write = o.field :=
      congrArg OrderBy.field hlegible.ofItem_write
    rw [Option.map_some, Option.map_some, Option.toList_some, Option.toList_some,
      List.map_singleton, hstrip]
    simpa using hlegible.ne_nil

end Legible

end State

end Builder

end Soql
