import Soql.Proofs.Builder.CarryOver

/-!
# The written form of a subquery

An item of the select list may be spelled in many ways; the subquery that is read from it is written
in one. What is written is a single item that is read as the same subquery at the same place of the
same state, and it is written again as it was. So a subquery settles in its first import, whatever
the item held: further subqueries, calls, or any text behind the relationship. The one thing that
changes is an empty list of fields, which is written as `Id`.
-/

namespace Soql.Builder

namespace Subquery

/-- The subquery that an item becomes at a place, counted from zero, of the state after `previous`. -/
def import? (previous : State) (place : Nat) (item : Text) : Option Subquery :=
  (ofItem? item).map (identify previous.subqueries (place + 1))

/-- A subquery with the fields that are written for it. -/
def settled (q : Subquery) : Subquery :=
  { q with fields := if q.fields.isEmpty then "Id".toList else q.fields }

/-- A subquery whose identity and child object are taken away is given them again, whatever its
fields are. -/
theorem identify_identify {q : Subquery} (hid : q.id = []) (hchild : q.childObject = [])
    (known : List Subquery) (number : Nat) (fields : Text) :
    identify known number { identify known number q with id := [], childObject := [], fields } =
      { identify known number q with fields } := by
  obtain ⟨id, relationship, childObject, fields', clauses⟩ := q
  obtain rfl : id = [] := hid
  obtain rfl : childObject = [] := hchild
  unfold identify
  dsimp only
  cases hknown : known.find? fun k => Text.eqIgnoreCase k.relationship relationship with
  | some k => simp only [hknown]
  | none => simp only [hknown]

namespace Legible

variable {q : Subquery} {items : List Text} (h : q.Legible items)

include h

/-- A settled subquery selects items with single blanks between them. -/
theorem fields_settled : q.settled.fields = Text.join ", ".toList (orId items) :=
  h.fields_orId

/-- A settled subquery is legible. -/
theorem settled : q.settled.Legible (orId items) :=
  ⟨h.relationship, h.fields_settled, ItemReadsBack.orId h.items, h.clauses, h.balanced⟩

/-- It is written as before. -/
theorem write_settled : q.settled.write = q.write := by
  rw [h.settled.write_eq_group, h.write_eq_group, body, body, orId_orId]
  rfl

end Legible

/-- What is written for a subquery that was read is one item, it is read as that subquery at the same
place, and nothing changes when it is written again. -/
theorem import?_write {item : Text} (hclosed : Closed item) {previous : State} {place : Nat}
    {q : Subquery} (h : import? previous place item = some q) :
    SelectItem.ofText q.write = .subquery ∧ splitItems q.write = [q.write] ∧
      (import? previous place q.write = some q.settled) ∧ q.settled.write = q.write := by
  obtain ⟨r, hr, rfl⟩ := Option.map_eq_some_iff.1 h
  obtain ⟨items, hr_legible⟩ := exists_legible hclosed hr
  have hq := hr_legible.identify previous.subqueries (place + 1)
  have hsplit : splitItems (Text.join ", ".toList [_]) = [_] :=
    splitItems_selection (by simpa using hq.readsBack_write)
  refine ⟨hq.ofText_write, hsplit, ?_, hq.write_settled⟩
  obtain ⟨hid, hchild⟩ := unnamed_of_ofItem? hr
  have hread := hq.ofItem?_write
  rw [← hq.fields_settled] at hread
  rw [import?, hread, Option.map_some, identify_identify hid hchild]
  rfl

/-- A nested subquery and a call among the fields, and clauses with a list and with quoted text that
holds a parenthesis and a keyword. -/
theorem import?_write_contactsWithCases :
    let item := "( SELECT  Id,toLabel( Status ) ,(SELECT Id FROM ".toList ++
      "Cases LIMIT 1)\nfrom  contacts\tWHERE Name IN ('a)', ' FROM b') )".toList
    let known : Subquery := ⟨"sq7".toList, "Contacts".toList, "Contact".toList, [], []⟩
    let previous := { State.initial with subqueries := [known] }
    let q : Subquery := ⟨"sq7".toList, "contacts".toList, "Contact".toList,
      "Id, toLabel( Status ), (SELECT Id FROM Cases LIMIT 1)".toList,
      "WHERE Name IN ('a)', ' FROM b')".toList⟩
    Closed item ∧ import? previous 2 item = some q ∧
      SelectItem.ofText q.write = .subquery ∧ splitItems q.write = [q.write] ∧
      (import? previous 2 q.write = some q) ∧
        q.write = "(SELECT Id, toLabel( Status ), (SELECT Id FROM Cases LIMIT 1)".toList ++
          " FROM contacts WHERE Name IN ('a)', ' FROM b'))".toList := by
  intro item known previous q
  have hclosed : Closed item := by decide +kernel
  have hitem : import? previous 2 item = some q := by decide +kernel
  obtain ⟨hshape, hsplit, hread, -⟩ := import?_write hclosed hitem
  exact ⟨hclosed, hitem, hshape, hsplit, hread, by decide +kernel⟩

end Subquery

end Soql.Builder
