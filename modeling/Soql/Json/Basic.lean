import Soql.Json.Quoted

/-!
# JSON values

A value keeps what a reader of records needs to tell apart: a number is the text it was written
as, so that `1` and `1.0` differ, and an object is the sequence of its members, so that a repeated
key stays visible. Text with a lone surrogate has no value here; a string that holds such text, or
an object with such a key, is `unreadable` and can be skipped over but not used.
-/

namespace Soql

/-- A JSON value. -/
inductive Json
  | null
  | bool (b : Bool)
  | number (written : Text)
  | string (s : Text)
  | array (items : List Json)
  | object (members : List (Text × Json))
  | unreadable

namespace Json

/-- A number without sign, fraction or exponent. -/
def ofNat (n : Nat) : Json :=
  .number (Text.ofNat n)

/-- A text, or null for none. -/
def ofText? : Option Text → Json
  | some s => .string s
  | none => .null

/-- An array of strings. -/
def ofTexts (ss : List Text) : Json :=
  .array (ss.map .string)

/-- The value of a member, the last one when the key is repeated. -/
def get? (key : Text) : Json → Option Json
  | .object members => members.reverse.lookup key
  | _ => none

/-- An object in which `key` has a new value, in its old place or behind all other members. -/
def setMember (key : Text) (value : Json) (members : List (Text × Json)) : List (Text × Json) :=
  if members.any (·.1 == key) then
    members.map fun m => if m.1 == key then (key, value) else m
  else members ++ [(key, value)]

mutual

/-- A value as text, without blanks. -/
def write : Json → Text
  | .null => "null".toList
  | .bool b => (if b then "true" else "false").toList
  | .number written => written
  | .string s => Quoted.encode s
  | .array items => '[' :: writeItems items ++ [']']
  | .object members => '\x7b' :: writeMembers members ++ ['\x7d']
  | .unreadable => "null".toList

/-- The items of an array, with commas between them. -/
def writeItems : List Json → Text
  | [] => []
  | [item] => write item
  | item :: items => write item ++ ',' :: writeItems items

/-- The members of an object, with commas between them. -/
def writeMembers : List (Text × Json) → Text
  | [] => []
  | [(key, value)] => Quoted.encode key ++ ':' :: write value
  | (key, value) :: members =>
    Quoted.encode key ++ ':' :: write value ++ ',' :: writeMembers members

end

end Json

end Soql
