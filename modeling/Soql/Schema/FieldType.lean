import Soql.Text.Basic

/-!
# Types of fields

The types that the fields of an object can have, with their names. A type that is not known is
kept as `other`. Types are grouped by the literals that their values are compared with.
-/

namespace Soql.Schema

/-- The type of a field. -/
inductive FieldType
  | id | reference
  | string | textArea | picklist | multiPicklist | combobox | email | phone | url
  | encryptedString
  | boolean
  | int | double | currency | percent
  | date | dateTime | time
  | base64 | address | location | anyType
  | other
  deriving DecidableEq

namespace FieldType

/-- The name of a type. -/
def typeName : FieldType → Text
  | .id => "id".toList
  | .reference => "reference".toList
  | .string => "string".toList
  | .textArea => "textarea".toList
  | .picklist => "picklist".toList
  | .multiPicklist => "multipicklist".toList
  | .combobox => "combobox".toList
  | .email => "email".toList
  | .phone => "phone".toList
  | .url => "url".toList
  | .encryptedString => "encryptedstring".toList
  | .boolean => "boolean".toList
  | .int => "int".toList
  | .double => "double".toList
  | .currency => "currency".toList
  | .percent => "percent".toList
  | .date => "date".toList
  | .dateTime => "datetime".toList
  | .time => "time".toList
  | .base64 => "base64".toList
  | .address => "address".toList
  | .location => "location".toList
  | .anyType => "anytype".toList
  | .other => "other".toList

/-- Every type. -/
def all : List FieldType :=
  [.id, .reference, .string, .textArea, .picklist, .multiPicklist, .combobox, .email, .phone,
    .url, .encryptedString, .boolean, .int, .double, .currency, .percent, .date, .dateTime, .time,
    .base64, .address, .location, .anyType, .other]

/-- Further names of types. -/
def synonyms : List (Text × FieldType) :=
  [("integer".toList, .int), ("long".toList, .int), ("number".toList, .double)]

/-- The type with a name, in any case; `other` when there is none. -/
def ofTypeName (name : Text) : FieldType :=
  let name := Text.foldCase name
  match all.find? (·.typeName == name) with
  | some type => type
  | none => (synonyms.lookup name).getD .other

/-- Compared with numbers. -/
def isNumeric : FieldType → Bool
  | .int | .double | .currency | .percent => true
  | _ => false

/-- Compared with dates. -/
def isDate : FieldType → Bool
  | .date | .dateTime => true
  | _ => false

/-- Compared with record ids. -/
def isId : FieldType → Bool
  | .id | .reference => true
  | _ => false

/-- Compared with quoted text. -/
def isTextual : FieldType → Bool
  | .string | .textArea | .picklist | .multiPicklist | .combobox | .email | .phone | .url
  | .encryptedString => true
  | _ => false

end FieldType

end Soql.Schema
