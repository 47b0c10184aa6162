import Soql.Query.Model
import Soql.Scanner.Basic

/-!
# Taking a query apart by slices

The items, conditions and clauses of a query as slices of its text. Where a token is looked up by
its number, the number has to be in range too.
-/

namespace Soql.Scanner

/-- The tokens of marks. What is asked of them here is their kinds. -/
def tokens (ms : List Mark) : List Token :=
  ms.map Prod.fst

/-- The shape of an item of the select list. -/
def selectItem? (item : Text) : Checked SelectItem := do
  let body ← subqueryBody? item
  if body.isSome then some .subquery
  else
    match Token.located item with
    | m :: paren :: ms =>
      if m.1.kind.isWord && paren.1.kind == .openParen then do
        let function ← text? item m
        some (SelectItem.ofCall function)
      else some (SelectItem.ofPath (tokens (m :: paren :: ms)))
    | ms => some (SelectItem.ofPath (tokens ms))

/-- The token with a number. -/
def nth? (ms : List Mark) (n : Nat) : Checked Mark :=
  ms[n]?

/-- A path without the alias behind it: the text up to the end of its last token. -/
def stripAlias? (item : Text) : Checked Text :=
  let ms := Token.located item
  match Path.length? (tokens ms) with
  | some 0 => none
  | some (n + 1) =>
    if ms.length == n + 2 then do
      let behind ← nth? ms (n + 1)
      if behind.1.kind == .identifier then do
        let last ← nth? ms n
        let path ← item.slice? 0 last.2.stop
        some path.trim
      else some item.trim
    else some item.trim
  | none => some item.trim

/-- An item to sort by up to the start of its direction. -/
def stripOrderDirection? (item : Text) : Checked Text := do
  let direction ← seek? (fun ms => some ((tokens ms).head?.any Token.isDirection)) 0
    (Token.located item)
  match direction with
  | m :: _ => do
    let field ← item.slice? 0 m.2.start
    some field.trim
  | [] => some item.trim

/-- The items that an item to group by stands for. -/
def expandGrouping? (item : Text) : Checked (List Text) := do
  let ms := Token.located item
  let rollup ← isAt? item ["ROLLUP".toList] ms
  let cube ← isAt? item ["CUBE".toList] ms
  match ms with
  | _ :: paren :: _ =>
    if (rollup || cube) && paren.1.kind == .openParen then do
      let call ← item.slice? paren.2.start item.byteSize
      let arguments ← stripOuterParens? call
      match arguments with
      | some arguments => splitItems? arguments
      | none => some [item]
    else some [item]
  | _ => some [item]

/-- The texts of the first marks are `parts`, in any case. -/
def spelledBy? (source : Text) : Phrase → List Mark → Checked Bool
  | [], _ => some true
  | _ :: _, [] => some false
  | part :: parts, m :: ms => do
    let text ← text? source m
    if Text.eqIgnoreCase text part then spelledBy? source parts ms else some false

/-- The operator that the marks start with, and how many it has. -/
def operatorAt? (source : Text) (ms : List Mark) : Checked (Option (Operator × Nat)) :=
  Operator.spellings.findSomeM? fun spelling => do
    let found ← spelledBy? source spelling.1 ms
    some (if found then some (spelling.2, spelling.1.length) else none)

/-- The condition that a fragment states: its field ends where the operator starts, and its value
is all that follows the operator. -/
def condition? (fragment : Text) : Checked (Option Condition) :=
  let ms := Token.located fragment
  if Condition.startsField (tokens ms) then
    match Path.length? (tokens ms) with
    | none => some none
    | some path => do
      let behindField := ms.drop (path + Token.groupLength (tokens (ms.drop path)))
      let operator ← operatorAt? fragment behindField
      match operator with
      | none => some none
      | some (operator, n) => do
        let field ← fragment.slice? 0 (offset fragment behindField)
        let value ← fragment.slice? (offset fragment (behindField.drop n)) fragment.byteSize
        some (some { field := field.trim, operator, rawValue := value.trim })
  else some none

/-- The clause of a query. -/
def clauseOf? (query : Text) (clause : Clause) : Checked (Option Text) :=
  extractClause? clause.opening clause.endings query

/-- What is made of a clause; nothing of one that is not there. -/
def ofClause? {α : Type} (read : Text → Checked (List α)) : Option Text → Checked (List α)
  | some body => read body
  | none => some []

/-- The conditions of a `WHERE` clause. -/
def conditions? (body : Text) : Checked (List Condition) := do
  let fragments ← splitConditions? body
  let conditions ← fragments.mapM condition?
  some (conditions.filterMap id)

/-- The items that a `GROUP BY` clause groups by. -/
def groupItems? (body : Text) : Checked (List Text) := do
  let items ← splitItems? body
  let groups ← items.mapM expandGrouping?
  some groups.flatten

/-- The fields that an `ORDER BY` clause sorts by. -/
def orderFields? (body : Text) : Checked (List Text) := do
  let items ← splitItems? body
  let fields ← items.mapM stripOrderDirection?
  some (fields.filter (!·.isEmpty))

/-- The clauses of a query text. -/
def query? (query : Text) : Checked Query := do
  let ms := Token.located query
  let objectName ← objectName? query ms
  let selection ← clauseOf? query .selection
  let selectItems ← ofClause? splitItems? selection
  let condition ← clauseOf? query .condition
  let conditions ← ofClause? conditions? condition
  let grouping ← clauseOf? query .grouping
  let groupItems ← ofClause? groupItems? grouping
  let having ← find? query [Keyword.HAVING.spelling] ms
  let ordering ← clauseOf? query .ordering
  let orderItems ← ofClause? orderFields? ordering
  let rawLimit ← clauseOf? query .limit
  let rawOffset ← clauseOf? query .offset
  some {
    objectName, selectItems, groupItems, orderItems, conditions, rawLimit, rawOffset
    hasGroupBy := grouping.isSome
    hasHaving := !having.isEmpty
    hasOrderBy := ordering.isSome
    limit := rawLimit.bind Query.count?
    offset := rawOffset.bind Query.count? }

end Soql.Scanner
