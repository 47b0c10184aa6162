import Soql.Text.Basic

/-!
# Slices by byte offsets

A part of a text can be named by two byte offsets. Taking that part is an error when the offsets
are out of order, lie behind the end of the text or fall inside a character, and so is looking up
a byte behind the end. What is computed with slices and indices is `Checked`: it is there only if
none of them was an error.
-/

namespace Soql

/-- A result that is missing once a slice or an index was out of range. -/
abbrev Checked (α : Type) :=
  Option α

namespace Text

/-- The text behind the first `n` bytes. -/
def dropBytes? (n : Nat) : Text → Checked Text
  | [] => if n = 0 then some [] else none
  | c :: s =>
    if n = 0 then some (c :: s)
    else if c.utf8Size ≤ n then dropBytes? (n - c.utf8Size) s
    else none

/-- The text of the first `n` bytes. -/
def takeBytes? (n : Nat) : Text → Checked Text
  | [] => if n = 0 then some [] else none
  | c :: s =>
    if n = 0 then some []
    else if c.utf8Size ≤ n then (takeBytes? (n - c.utf8Size) s).map (c :: ·)
    else none

/-- The text from one byte offset up to another. -/
def slice? (s : Text) (start stop : Nat) : Checked Text :=
  if start ≤ stop then (dropBytes? start s).bind (takeBytes? (stop - start)) else none

/-- A byte offset lies between characters, or at an end. -/
def isBoundary (s : Text) (offset : Nat) : Bool :=
  (dropBytes? offset s).isSome

/-- The bytes of the UTF-8 form of a text. -/
def bytes (s : Text) : List UInt8 :=
  s.flatMap String.utf8EncodeChar

/-- The bytes from one index up to another. -/
def byteSlice? (bytes : List UInt8) (start stop : Nat) : Checked (List UInt8) :=
  if start ≤ stop ∧ stop ≤ bytes.length then some ((bytes.take stop).drop start) else none

end Text

end Soql
