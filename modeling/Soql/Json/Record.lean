import Soql.Json.Basic

/-!
# Records in JSON

A record is given as an object or, by position, as an array. `Json.record?` sorts what was given
under the keys of the record; each key's value is then read by a reader for its type, with a
default or a demand for keys that are missing. Unknown keys are passed over, a known key may
appear only once.
-/

namespace Soql.Json

/-- What an object gives under one key, with `none` for a missing key; fails when the key is
repeated. -/
def single? (members : List (Text × Json)) (key : Text) : Option (Option Json) :=
  match members.filter (·.1 == key) with
  | [] => some none
  | [(_, value)] => some (some value)
  | _ => none

/-- What is given under each of `keys`, in their order. An array must hold at least `least`
values and not more than there are keys. -/
def record? (keys : List Text) (least : Nat) : Json → Option (List (Option Json))
  | .object members => keys.mapM (single? members)
  | .array items =>
    if least ≤ items.length ∧ items.length ≤ keys.length then
      some (items.map some ++ List.replicate (keys.length - items.length) none)
    else none
  | _ => none

/-- Reads the value of a key that must be given. -/
def needed {α : Type} (read : Json → Option α) : Option Json → Option α
  | some value => read value
  | none => none

/-- Reads the value of a key that has a default. -/
def withDefault {α : Type} (default : α) (read : Json → Option α) : Option Json → Option α
  | some value => read value
  | none => some default

/-- Reads a boolean. -/
def bool? : Json → Option Bool
  | .bool b => some b
  | _ => none

/-- Reads a string. -/
def text? : Json → Option Text
  | .string s => some s
  | _ => none

/-- Reads a whole number below `bound`, written without sign, fraction or exponent. -/
def natBelow? (bound : Nat) : Json → Option Nat
  | .number written =>
    if Text.isDigits written && Text.digitsValue written < bound then
      some (Text.digitsValue written)
    else none
  | _ => none

/-- Reads an array, item by item. -/
def listOf? {α : Type} (read : Json → Option α) : Json → Option (List α)
  | .array items => items.mapM read
  | _ => none

/-- Reads a value that may be null. -/
def nullable? {α : Type} (read : Json → Option α) : Json → Option (Option α)
  | .null => some none
  | value => (read value).map some

end Soql.Json
