import Soql.Json.Reader
import Soql.Json.Record
import Soql.Schema.Describe
import Soql.Text.Blank

/-!
# Describes as records

The form in which describes are exchanged: types by their names, fields as a list, which is sorted
by name when a describe is written. Either of two flags marks a sample. `Describe.ofJsonText`
reads a describe from JSON text and refuses one whose name is blank.
-/

namespace Soql.Schema

/-- A field as it is exchanged. -/
structure FieldRecord where
  name : Text
  typeName : Text
  nillable : Bool
  referenceTo : List Text
  relationshipName : Option Text
  deriving DecidableEq

namespace FieldRecord

/-- The keys of a field. -/
def keys : List Text :=
  ["name", "type", "nillable", "referenceTo", "relationshipName"].map String.toList

/-- The exchanged form of a field. -/
def ofField (f : Field) : FieldRecord :=
  { name := f.name
    typeName := f.fieldType.typeName
    nillable := f.nillable
    referenceTo := f.referenceTo
    relationshipName := f.relationshipName }

/-- The field that a record gives. -/
def toField (r : FieldRecord) : Field :=
  { name := r.name
    fieldType := FieldType.ofTypeName r.typeName
    nillable := r.nillable
    referenceTo := r.referenceTo
    relationshipName := r.relationshipName }

/-- A field in JSON; the relationship name is left out when there is none. -/
def toJson (r : FieldRecord) : Json :=
  let values : List Json :=
    [.string r.name, .string r.typeName, .bool r.nillable, .ofTexts r.referenceTo]
  .object (keys.zip (match r.relationshipName with
    | some name => values ++ [.string name]
    | none => values))

/-- Reads a field; only the name is needed. -/
def ofJson? (j : Json) : Option FieldRecord := do
  let [name, typeName, nillable, referenceTo, relationshipName] ← j.record? keys 0 | none
  return {
    name := ← Json.needed Json.text? name
    typeName := ← Json.withDefault [] Json.text? typeName
    nillable := ← Json.withDefault true Json.bool? nillable
    referenceTo := ← Json.withDefault [] (Json.listOf? Json.text?) referenceTo
    relationshipName := ← Json.withDefault none (Json.nullable? Json.text?) relationshipName }

end FieldRecord

/-- A describe as it is exchanged. -/
structure DescribeRecord where
  name : Text
  label : Option Text
  fields : List FieldRecord
  demo : Bool
  mock : Bool
  deriving DecidableEq

namespace DescribeRecord

/-- The keys of a describe. -/
def keys : List Text :=
  ["name", "label", "fields", "demo", "mock"].map String.toList

/-- The exchanged form of a describe, with its fields in the order of their names. -/
def ofDescribe (d : Describe) : DescribeRecord :=
  { name := d.name
    label := some d.label
    fields := (d.fields.values.map FieldRecord.ofField).mergeSort fun a b =>
      Text.le a.name b.name
    demo := d.isDemo
    mock := false }

/-- The describe that a record gives; of fields with the same name the last one counts. -/
def toDescribe (r : DescribeRecord) : Describe :=
  let d := (Describe.ofName r.name).withDemo (r.demo || r.mock)
  let d := match r.label with
    | some label => d.withLabel label
    | none => d
  r.fields.foldl (fun d f => d.addField f.toField) d

/-- A describe in JSON. -/
def toJson (r : DescribeRecord) : Json :=
  .object (keys.zip
    [ .string r.name, .ofText? r.label, .array (r.fields.map FieldRecord.toJson), .bool r.demo ])

/-- Reads a describe; only the name is needed. -/
def ofJson? (j : Json) : Option DescribeRecord := do
  let [name, label, fields, demo, mock] ← j.record? keys 0 | none
  return {
    name := ← Json.needed Json.text? name
    label := ← Json.withDefault none (Json.nullable? Json.text?) label
    fields := ← Json.withDefault [] (Json.listOf? FieldRecord.ofJson?) fields
    demo := ← Json.withDefault false Json.bool? demo
    mock := ← Json.withDefault false Json.bool? mock }

end DescribeRecord

/-- Why a describe cannot be read. -/
inductive DescribeError
  | malformed
  | missingName
  deriving DecidableEq

/-- What is said of a describe without a name. -/
def DescribeError.missingNameMessage : Text :=
  "Describe has no object name".toList

namespace Describe

/-- A describe in JSON. -/
def toJson (d : Describe) : Json :=
  (DescribeRecord.ofDescribe d).toJson

/-- Reads a describe. -/
def ofJson? (j : Json) : Option Describe :=
  (DescribeRecord.ofJson? j).map DescribeRecord.toDescribe

/-- The describe that a JSON text holds. -/
def ofJsonText (s : Text) : Except DescribeError Describe :=
  match (Json.read? s).bind ofJson? with
  | some d => if Text.isBlankText d.name then .error .missingName else .ok d
  | none => .error .malformed

end Describe

end Soql.Schema
