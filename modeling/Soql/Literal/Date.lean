import Soql.Text.Blank
import Soql.Text.Lowercase

/-!
# Dates

Dates relative to the day of the query are words, some with a count behind a colon; fixed dates
and points in time are in the format of ISO 8601. `isLiteral` recognises the first kind, without
regard to case, `isIsoDate` and `isIsoDateTime` the second.
-/

namespace Soql.Date

/-- The relative dates without a count. -/
def plainWords : List Text :=
  [ "yesterday", "today", "tomorrow",
    "last_week", "this_week", "next_week",
    "last_month", "this_month", "next_month",
    "last_90_days", "next_90_days",
    "last_quarter", "this_quarter", "next_quarter",
    "last_year", "this_year", "next_year",
    "last_fiscal_quarter", "this_fiscal_quarter", "next_fiscal_quarter",
    "last_fiscal_year", "this_fiscal_year", "next_fiscal_year" ].map String.toList

/-- The relative dates with a count, up to the colon before it. -/
def countedWords : List Text :=
  [ "last_n_days:", "next_n_days:",
    "last_n_weeks:", "next_n_weeks:",
    "last_n_months:", "next_n_months:",
    "last_n_quarters:", "next_n_quarters:",
    "last_n_years:", "next_n_years:",
    "last_n_fiscal_quarters:", "next_n_fiscal_quarters:",
    "last_n_fiscal_years:", "next_n_fiscal_years:",
    "n_days_ago:", "n_weeks_ago:", "n_months_ago:", "n_quarters_ago:", "n_years_ago:",
    "n_fiscal_quarters_ago:", "n_fiscal_years_ago:" ].map String.toList

/-- A relative date such as `TODAY` or `LAST_N_DAYS:30`, with blanks around it allowed, and around
the count. -/
def isLiteral (s : Text) : Bool :=
  let s := Text.lowercase s.trim
  plainWords.contains s ||
    countedWords.any fun word =>
      match word.isPrefixOf? s with
      | some count => Text.isDigits (Text.trim count)
      | none => false

/-- A calendar date: `YYYY-MM-DD`. -/
def isIsoDate : Text → Bool
  | [y₁, y₂, y₃, y₄, '-', m₁, m₂, '-', d₁, d₂] =>
    [y₁, y₂, y₃, y₄, m₁, m₂, d₁, d₂].all Char.isDigit
  | _ => false

/-- What stands behind a time of day `hh:mm:ss`. -/
def afterClock? : Text → Option Text
  | h₁ :: h₂ :: ':' :: m₁ :: m₂ :: ':' :: s₁ :: s₂ :: rest =>
    if [h₁, h₂, m₁, m₂, s₁, s₂].all Char.isDigit then some rest else none
  | _ => none

/-- What stands behind a fraction of a second, if there is one; none for a point without digits. -/
def afterFraction? : Text → Option Text
  | '.' :: s =>
    match s.takeWhile Char.isDigit with
    | [] => none
    | _ => some (s.dropWhile Char.isDigit)
  | s => some s

/-- A time zone: `Z`, or an offset `+hh:mm` or `-hh:mm`. -/
def isZone : Text → Bool
  | ['Z'] | ['z'] => true
  | [sign, h₁, h₂, ':', m₁, m₂] =>
    (sign == '+' || sign == '-') && [h₁, h₂, m₁, m₂].all Char.isDigit
  | _ => false

/-- A point in time: a calendar date, `T`, a time of day and a time zone. -/
def isIsoDateTime (s : Text) : Bool :=
  match Text.cutAt (fun c => c == 'T' || c == 't') s with
  | some (date, time) =>
    isIsoDate date && ((afterClock? time).bind afterFraction?).any isZone
  | none => false

end Soql.Date
