/-!
# Texts

A text is the list of its characters, so that scanning, cutting and rewriting are list
operations. Offsets into a text count the bytes of its UTF-8 form; `Text.byteSize` is that
measure, and it adds up over concatenation. Case is ignored in two ways: `Text.foldCase` touches
ASCII letters only and is what keywords and API names are compared by; full lower-casing is in
`Soql.Text.Lowercase`.
-/

namespace Soql

/-- A text as its list of characters. -/
abbrev Text := List Char

namespace Text

/-- A predicate on the characters of a text is decided by going through the text, and not through
all characters that there are. -/
instance decidableForallMem (s : Text) (p : Char → Prop) [DecidablePred p] :
    Decidable (∀ c ∈ s, p c) :=
  List.decidableBAll p s

/-- The same goes for a character that may be missing. -/
instance decidableForallOption (c? : Option Char) (p : Char → Prop) [DecidablePred p] :
    Decidable (∀ c ∈ c?, p c) :=
  Option.decidableForallMem c?

/-- The number of bytes of the UTF-8 form of a text. -/
def byteSize (s : Text) : Nat :=
  s.foldr (fun c n => c.utf8Size + n) 0

@[simp] theorem byteSize_nil : byteSize [] = 0 := rfl

@[simp] theorem byteSize_cons (c : Char) (s : Text) :
    byteSize (c :: s) = c.utf8Size + byteSize s := rfl

@[simp] theorem byteSize_append (s t : Text) : byteSize (s ++ t) = byteSize s + byteSize t := by
  induction s with
  | nil => simp
  | cons c s ih => simp [ih, Nat.add_assoc]

/-- A text with its ASCII letters in lower case; every other character is kept. -/
def foldCase (s : Text) : Text :=
  s.map Char.toLower

/-- Two texts are the same up to the case of ASCII letters. -/
def eqIgnoreCase (s t : Text) : Bool :=
  foldCase s == foldCase t

theorem eqIgnoreCase_iff {s t : Text} : eqIgnoreCase s t = true ↔ foldCase s = foldCase t := by
  simp [eqIgnoreCase]

/-- A text is one or more ASCII digits. -/
def isDigits (s : Text) : Bool :=
  !s.isEmpty && s.all Char.isDigit

theorem isDigits_iff {s : Text} :
    isDigits s = true ↔ s ≠ [] ∧ ∀ c ∈ s, c.isDigit = true := by
  simp [isDigits]

/-- The number that a run of ASCII digits denotes, in base ten. -/
def digitsValue (s : Text) : Nat :=
  s.foldl (fun n c => 10 * n + (c.toNat - '0'.toNat)) 0

/-- Texts in the order of their code points, which is also that of their UTF-8 bytes; a text comes
before those that go on from it. -/
def le : Text → Text → Bool
  | [], _ => true
  | _ :: _, [] => false
  | c :: s, d :: t => c.toNat < d.toNat || (c == d && le s t)

/-- A number written in base ten, without leading zeros. -/
def ofNat (n : Nat) : Text :=
  Nat.toDigits 10 n

/-- The parts of a text at the first character that satisfies `p`, which is left out; none when
no character does. -/
def cutAt (p : Char → Bool) : Text → Option (Text × Text)
  | [] => none
  | c :: s => if p c then some ([], s) else (cutAt p s).map fun (a, b) => (c :: a, b)

/-- Texts one after another, with `sep` between neighbours. -/
def join (sep : Text) : List Text → Text
  | [] => []
  | [s] => s
  | s :: t :: rest => s ++ sep ++ join sep (t :: rest)

end Text

end Soql
