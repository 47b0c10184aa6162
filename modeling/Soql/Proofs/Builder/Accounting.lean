import Soql.Proofs.Builder.NormalForm
import Soql.Proofs.Builder.Paging
import Soql.Proofs.Builder.Quoting

/-!
# What becomes of the parts of an imported query

An import looks at a query twice: the query is taken apart into clauses, and the state and its report
are put together from the same clauses. Both find the same object, items, conditions and counts, and
nothing gets lost between them. Every item of the select list, every fragment of the conditions, every
item to sort by and every count of the query is in exactly one place, which is a part of the state or
an entry of the report.
-/

namespace Soql.Builder

/-- An item is a subquery on a relationship that can be told. -/
def Subquery.isReadable (item : Text) : Bool :=
  (ofItem? item).isSome

/-- The four things that can become of an item of the select list. -/
theorem item_cases (x : Text) :
    (SelectItem.ofText x = .field ∧ Subquery.isReadable x = false ∧ isSupported x = true) ∨
      (SelectItem.ofText x = .lookup ∧ Subquery.isReadable x = false ∧ isSupported x = true) ∨
      (SelectItem.ofText x = .subquery ∧ Subquery.isReadable x = true ∧ isSupported x = true) ∨
      (SelectItem.ofText x ≠ .field ∧ SelectItem.ofText x ≠ .lookup ∧
        Subquery.isReadable x = false ∧ isSupported x = false) := by
  have hshape : Subquery.isReadable x = true → SelectItem.ofText x = .subquery := by
    unfold Subquery.isReadable SelectItem.ofText Subquery.ofItem?
    cases subqueryBody? x with
    | none => intro h; cases h
    | some body => intro _; rfl
  unfold isSupported
  cases hx : SelectItem.ofText x with
  | subquery =>
    cases hread : Subquery.isReadable x with
    | true => exact .inr (.inr (.inl ⟨rfl, rfl, hread⟩))
    | false => exact .inr (.inr (.inr ⟨nofun, nofun, rfl, hread⟩))
  | field | lookup | aggregate | fieldsMacro | expression =>
    have hread : Subquery.isReadable x = false := by
      rw [hx] at hshape
      simpa using hshape
    simp [hread]

/-- The items that a state has a place for and those that it has none for are all items, in another
order. -/
theorem perm_items (items : List Text) :
    (items.filter (SelectItem.ofText · == .field) ++ (items.filter (SelectItem.ofText · == .lookup) ++
      (items.filter Subquery.isReadable ++ items.filter (!isSupported ·)))).Perm items := by
  induction items with
  | nil => rfl
  | cons x xs ih =>
    have hfront := ih.cons x
    rcases item_cases x with ⟨hx, hread, hplace⟩ | ⟨hx, hread, hplace⟩ | ⟨hx, hread, hplace⟩ |
      ⟨hfield, hlookup, hread, hplace⟩
    · simpa [List.filter_cons, hx, hread, hplace] using hfront
    · simpa [List.filter_cons, hx, hread, hplace] using List.perm_middle.trans hfront
    · simpa [List.filter_cons, hx, hread, hplace] using
        (List.perm_middle.append_left _).trans (List.perm_middle.trans hfront)
    · simpa [List.filter_cons, hfield, hlookup, hread, hplace] using
        ((List.perm_middle.append_left _).append_left _).trans
          ((List.perm_middle.append_left _).trans (List.perm_middle.trans hfront))

/-- The subqueries of a state are its readable items, each imported at its place. -/
theorem map_some_subqueries (previous : State) (object : Text) (ts : List Token) :
    (stateOf previous object ts).subqueries.map some =
      ((Query.ofTokens ts).selectItems.filter Subquery.isReadable).zipIdx.map fun (x, k) =>
        Subquery.import? previous k x := by
  have hreadable : ((Query.ofTokens ts).selectItems.filter Subquery.isReadable).map Subquery.ofItem? =
      ((Query.ofTokens ts).selectItems.filterMap Subquery.ofItem?).map some := by
    induction (Query.ofTokens ts).selectItems with
    | nil => rfl
    | cons x xs ih =>
      cases hx : Subquery.ofItem? x with
      | none =>
        rw [List.filterMap_cons_none hx, ← ih, List.filter_cons_of_neg]
        simp [Subquery.isReadable, hx]
      | some q =>
        rw [List.filterMap_cons_some hx, List.map_cons, ← ih, List.filter_cons_of_pos, List.map_cons, hx]
        simp [Subquery.isReadable, hx]
  have himport : ∀ (items : List Text) (n : Nat), (items.zipIdx n).map
      (fun (x, k) => Subquery.import? previous k x) = ((items.map Subquery.ofItem?).zipIdx n).map
        fun (q, k) => q.map (Subquery.identify previous.subqueries (k + 1)) := by
    intro items n
    rw [List.zipIdx_map, List.map_map]
    rfl
  rw [himport, hreadable, List.zipIdx_map, List.map_map]
  change List.map some (List.map _ _) = _
  rw [List.map_map]
  rfl

namespace State

section Counts

variable {c : Clause} (hc : c.isCount = true)

include hc

/-- The two clauses with a count differ in their first letter. -/
theorem eq_of_write_eq {d : Clause} (hd : d.isCount = true) {body body' : Text}
    (h : c.write body = d.write body') : c = d := by
  have hwrite : ∀ (e : Clause) (b : Text), (e.write b).head? = e.opening.head? := fun e _ => by
    cases e <;> rfl
  have hhead : c.opening.head? = d.opening.head? := by rw [← hwrite c body, h, hwrite]
  revert hc hd hhead
  cases c <;> cases d <;> decide

/-- A count is held as its number exactly when it is not reported. -/
theorem held_iff_not_mem_droppedPaging {ts : List Token} {raw : Text} (hraw : c.body? ts = some raw) :
    Query.count? raw = some ((pageCount? (Query.count? raw)).getD 0).toNat ↔
      c.write raw ∉ (reportOf ts).droppedPaging := by
  have hreported : c.write raw ∈ (reportOf ts).droppedPaging ↔ ¬ IsPageCount raw := by
    rw [mem_droppedPaging_iff]
    constructor
    · rintro ⟨d, body, hd, hbody, hcount, hwrite⟩
      obtain rfl := eq_of_write_eq hc hd hwrite
      rw [hraw, Option.some.injEq] at hbody
      exact hbody ▸ hcount
    · exact fun hcount => ⟨c, raw, hc, hraw, hcount, rfl⟩
  rw [hreported, not_not, ← isSome_pageCount?_iff]
  cases hcount : pageCount? (Query.count? raw) with
  | some n => exact iff_of_true (pageCount?_eq_some_iff.1 hcount) rfl
  | none =>
    refine iff_of_false (fun hzero => ?_) (by simp)
    rw [Option.getD_none, ← pageCount?_eq_some_iff, hcount] at hzero
    cases hzero

end Counts

/-- The state and the report that a text becomes account for everything that it is parsed into. -/
structure Accounts (text : Text) (previous s : State) (r : Report) : Prop where
  object : (Query.ofText text).objectName = some s.object
  fields : s.fields = (Query.ofText text).selectItems.filter (SelectItem.ofText · == .field)
  lookups : s.lookups = (Query.ofText text).selectItems.filter (SelectItem.ofText · == .lookup)
  subqueries : s.subqueries.map some =
    ((Query.ofText text).selectItems.filter Subquery.isReadable).zipIdx.map fun (x, k) =>
      Subquery.import? previous k x
  unsupportedItems : r.unsupportedItems = (Query.ofText text).selectItems.filter fun x =>
    SelectItem.ofText x != .field && SelectItem.ofText x != .lookup &&
      !(SelectItem.ofText x == .subquery && Subquery.isReadable x)
  items : s.fields.length + s.lookups.length + s.subqueries.length + r.unsupportedItems.length =
    (Query.ofText text).selectItems.length
  filters : s.filters.length = (Query.ofText text).conditions.length ∧
    ∀ (k : Nat) (c : Condition), (Query.ofText text).conditions[k]? = some c →
      ∃ f, s.filters[k]? = some f ∧ f.id = 'f' :: Text.ofNat (k + 1) ∧ f.field = c.field ∧
        f.operator = c.operator
  fragments : s.filters.length + r.unsupportedFilters.length = (fragments (tokenize text)).length
  order : (orderItems (tokenize text)).length =
      r.droppedOrderBy.length + (if s.orderBy.isSome then 1 else 0) ∧
    (s.orderBy = none → orderItems (tokenize text) = [])
  limit : ∀ raw, Clause.limit.body? (tokenize text) = some raw →
    (Query.count? raw = some s.limit.toNat ↔ Clause.limit.write raw ∉ r.droppedPaging)
  offset : ∀ raw, Clause.offset.body? (tokenize text) = some raw →
    (Query.count? raw = some s.offset.toNat ↔ Clause.offset.write raw ∉ r.droppedPaging)
  usesOr : r.usesOr = true ↔ ∃ body, Clause.condition.body? (tokenize text) = some body ∧
    ∃ t ∈ tokenize body, t.kind = .keyword .OR

section Parts

variable (previous : State) (object : Text) (ts : List Token)

/-- The items that are reported are those that are neither paths nor readable subqueries. -/
theorem unsupportedItems_reportOf : (reportOf ts).unsupportedItems =
    (Query.ofTokens ts).selectItems.filter fun x => SelectItem.ofText x != .field &&
      SelectItem.ofText x != .lookup && !(SelectItem.ofText x == .subquery && Subquery.isReadable x) := by
  refine List.filter_congr fun x _ => ?_
  rcases item_cases x with ⟨hx, hread, hplace⟩ | ⟨hx, hread, hplace⟩ | ⟨hx, hread, hplace⟩ |
    ⟨hfield, hlookup, hread, hplace⟩
  · simp [hx, hplace]
  · simp [hx, hplace]
  · simp [hx, hread, hplace]
  · simp [hfield, hlookup, hread, hplace]

/-- Every item of the selection is kept or reported. -/
theorem length_items : (stateOf previous object ts).fields.length +
    (stateOf previous object ts).lookups.length + (stateOf previous object ts).subqueries.length +
      (reportOf ts).unsupportedItems.length = (Query.ofTokens ts).selectItems.length := by
  have hsubqueries := congrArg List.length (map_some_subqueries previous object ts)
  rw [List.length_map, List.length_map, List.length_zipIdx] at hsubqueries
  have hperm := (perm_items (Query.ofTokens ts).selectItems).length_eq
  rw [List.length_append, List.length_append, List.length_append, ← hsubqueries] at hperm
  rw [← hperm, ← Nat.add_assoc, ← Nat.add_assoc]
  rfl

/-- Every fragment of the conditions is kept or reported. -/
theorem length_fragments : (stateOf previous object ts).filters.length +
    (reportOf ts).unsupportedFilters.length = (fragments ts).length := by
  have hfilters : (stateOf previous object ts).filters.length =
      ((fragments ts).filterMap Condition.ofText?).length :=
    (List.length_map _).trans List.length_zipIdx
  have hunsupported : (reportOf ts).unsupportedFilters =
      (fragments ts).filter fun s => !(Condition.ofText? s).isSome :=
    List.filter_congr fun _ _ => (Option.not_isSome _).symm
  rw [hfilters, hunsupported, List.length_filterMap_eq_countP, List.countP_eq_length_filter]
  exact (List.length_eq_length_filter_add _).symm

/-- One item to sort by is kept, and the others are reported. -/
theorem length_orderItems : (orderItems ts).length = (reportOf ts).droppedOrderBy.length +
    (if (stateOf previous object ts).orderBy.isSome then 1 else 0) ∧
      ((stateOf previous object ts).orderBy = none → orderItems ts = []) := by
  unfold reportOf stateOf
  cases orderItems ts with
  | nil => exact ⟨rfl, fun _ => rfl⟩
  | cons item items => exact ⟨rfl, nofun⟩

end Parts

/-- Whatever a text is parsed into has its place in the state that the text becomes, or is
reported. -/
theorem accounts_import? {text : Text} {previous s : State} {r : Report}
    (h : import? text previous = .ok (s, r)) : Accounts text previous s r := by
  have hfilters := getElem?_filters_import? h
  obtain ⟨object, -, -, hobject, rfl, rfl⟩ := exists_of_import? h
  refine ⟨hobject, rfl, rfl, map_some_subqueries previous object _, unsupportedItems_reportOf _,
    length_items previous object _, ⟨?_, fun k c hc => ?_⟩, length_fragments previous object _,
    length_orderItems previous object _, fun raw hraw => ?_, fun raw hraw => ?_, ?_⟩
  · rw [Query.ofText, conditions_ofTokens]
    exact (List.length_map _).trans List.length_zipIdx
  · exact ⟨_, (hfilters k).trans (congrArg _ hc), rfl, rfl, rfl⟩
  · rw [← held_iff_not_mem_droppedPaging rfl hraw]
    change _ = some ((pageCount? ((Clause.limit.body? (tokenize text)).bind _)).getD 0).toNat ↔ _
    rw [hraw, Option.bind_some]
  · rw [← held_iff_not_mem_droppedPaging rfl hraw]
    change _ = some ((pageCount? ((Clause.offset.body? (tokenize text)).bind _)).getD 0).toNat ↔ _
    rw [hraw, Option.bind_some]
  · change usesOr (tokenize text) = true ↔ _
    simp [usesOr, Option.any_eq_true]

/-- Something of every kind, and a loss in every clause. -/
theorem accounts_import?_lossyAccounts :
    let text := "SELECT Id, COUNT(Id), (SELECT Id FROM Contacts), ".toList ++
      "Owner.Name, (SELECT Id), Name n FROM Account ".toList ++
        "WHERE Name = 'a' OR (NOT Active = true) AND Size >= 5 ".toList ++
          "ORDER BY Name DESC, Id LIMIT 4294967296 OFFSET 5".toList
    let s : State :=
      { ofObject "Account".toList with
        lookups := ["Owner.Name".toList]
        subqueries := [⟨"sq1".toList, "Contacts".toList, [], "Id".toList, []⟩]
        filters := [⟨"f1".toList, "Name".toList, .equal, "a".toList⟩,
          ⟨"f2".toList, "Size".toList, .greaterEqual, "5".toList⟩]
        orderBy := some ⟨"Name".toList, .descending⟩
        offset := 5 }
    let r : Report :=
      { unsupportedItems := ["COUNT(Id)".toList, "(SELECT Id)".toList, "Name n".toList]
        unsupportedFilters := ["(NOT Active = true)".toList]
        droppedOrderBy := ["Id".toList]
        droppedPaging := ["LIMIT 4294967296".toList]
        usesOr := true }
    (import? text initial = .ok (s, r)) ∧ Accounts text initial s r := by
  intro text s r
  have himport : import? text initial = .ok (s, r) := by decide +kernel
  exact ⟨himport, accounts_import? himport⟩

end State

end Soql.Builder
