import Soql.Literal.Date
import Soql.Literal.Quoted
import Soql.Text.Slice

/-!
# Literals by their bytes

Quotes are looked for at the first and the last byte, and the fixed shapes of dates at fixed bytes.
Each byte that is looked at has to be there, and what is cut off a text has to end between
characters.
-/

namespace Soql.Scanner

/-- The byte with a number. -/
def byteAt? (bytes : List UInt8) (n : Nat) : Checked UInt8 :=
  bytes[n]?

/-- A text without the quotes at its ends, if it has them. -/
def trimQuotes? (s : Text) : Checked Text :=
  let bytes := s.bytes
  if 2 ≤ bytes.length then do
    let first ← byteAt? bytes 0
    if first == '\''.toUInt8 || first == '"'.toUInt8 then do
      let last ← byteAt? bytes (bytes.length - 1)
      if last == first then s.slice? 1 (bytes.length - 1) else some s
    else some s
  else some s

/-- A text has equal quotes at its ends. -/
def isQuoted? (s : Text) : Checked Bool := do
  let inside ← trimQuotes? s
  some (2 ≤ s.byteSize && inside.byteSize == s.byteSize - 2)

/-- The text that a literal denotes. -/
def unquote? (s : Text) : Checked Text := do
  let inside ← trimQuotes? s.trim
  if inside.byteSize == s.trim.byteSize then some s.trim
  else if s.trim.head? == some '"' then
    some ((Json.Quoted.decode? s.trim).getD (Literal.unescape inside))
  else some (Literal.unescape inside)

/-- The byte of an ASCII digit. -/
def isDigitByte (b : UInt8) : Bool :=
  '0'.toUInt8 ≤ b && b ≤ '9'.toUInt8

/-- The byte with a number is the one of an ASCII character. -/
def isByte? (bytes : List UInt8) (n : Nat) (c : Char) : Checked Bool := do
  let b ← byteAt? bytes n
  some (b == c.toUInt8)

/-- The bytes in each of some ranges are digits. -/
def areDigits? (bytes : List UInt8) (ranges : List (Nat × Nat)) : Checked Bool :=
  ranges.allM fun range => do
    let part ← Text.byteSlice? bytes range.1 range.2
    some (part.all isDigitByte)

/-- A calendar date: `YYYY-MM-DD`. -/
def isIsoDate? (s : Text) : Checked Bool :=
  let bytes := s.bytes
  if bytes.length == 10 then
    isByte? bytes 4 '-' <&&> isByte? bytes 7 '-' <&&> areDigits? bytes [(0, 4), (5, 7), (8, 10)]
  else some false

/-- A time zone: `Z`, or an offset `+hh:mm` or `-hh:mm`. -/
def isZone? (s : Text) : Checked Bool :=
  let bytes := s.bytes
  if s == ['Z'] || s == ['z'] then some true
  else if bytes.length == 6 then
    (isByte? bytes 0 '+' <||> isByte? bytes 0 '-') <&&> isByte? bytes 3 ':' <&&>
      areDigits? bytes [(1, 3), (4, 6)]
  else some false

/-- A time of day: `hh:mm:ss`. -/
def isClock? (s : Text) : Checked Bool :=
  let bytes := s.bytes
  isByte? bytes 2 ':' <&&> isByte? bytes 5 ':' <&&> areDigits? bytes [(0, 2), (3, 5), (6, 8)]

/-- A fraction of a second, which may be missing, and a time zone. -/
def isFractionAndZone? : Text → Checked Bool
  | '.' :: fraction =>
    let digits := ((Text.bytes fraction).takeWhile isDigitByte).length
    if digits == 0 then some false
    else do
      let zone ← Text.slice? fraction digits (Text.byteSize fraction)
      isZone? zone
  | zone => isZone? zone

/-- A point in time: a calendar date, `T`, a time of day and a time zone. The time of day is cut
off only where a character ends. -/
def isIsoDateTime? (s : Text) : Checked Bool :=
  match Text.cutAt (fun c => c == 'T' || c == 't') s with
  | some (date, time) => do
    let isDate ← isIsoDate? date
    if !isDate || time.byteSize < 8 || !time.isBoundary 8 then some false
    else do
      let clock ← time.slice? 0 8
      let rest ← time.slice? 8 time.byteSize
      let isClock ← isClock? clock
      if isClock then isFractionAndZone? rest else some false
  | none => some false

end Soql.Scanner
