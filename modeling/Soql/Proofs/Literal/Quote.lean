import Soql.Proofs.Literal.Written
import Soql.Validation.Value

/-!
# Quoting is undone by unquoting

A text is quoted as a boolean, a number or a JSON string. Whatever the text is, the result is a
single value in a query, with nothing before, between or behind its tokens, and unquoting gives the
text back, but for the case of a boolean (`unquote_quote`). Single quotes have an escape of their
own; unquoting knows both, and each reading is the inverse of its own writing.
-/

namespace Soql

open Kind Token

/-- A canonical number is one number, or a minus sign and a number. -/
theorem tokenize_of_isCanonicalNumber {s : Text} (h : isCanonicalNumber s = true) :
    tokenize s = [⟨[], .number, s⟩] ∨ ∃ digits, s = '-' :: digits ∧
      tokenize s = [⟨[], .minus, ['-']⟩, ⟨[], .number, digits⟩] := by
  have hdecimal : ∀ {u : Text} {d : Decimal}, Decimal.ofText? u = some d →
      tokenize u = [⟨[], .number, u⟩] := by
    intro u d hd
    obtain ⟨whole, hwhole, rfl | ⟨fraction, hfraction, rfl⟩⟩ := Decimal.exists_digits_of_ofText? hd
    · exact tokenize_digits hwhole
    · exact tokenize_decimal hwhole hfraction
  rw [isCanonicalNumber, Bool.or_eq_true, beq_iff_eq] at h
  rcases h with rfl | h
  · exact .inl (tokenize_digits rfl)
  · split at h
    · next d hd =>
      by_cases hsign : (s.head? == some '-') = true
      · obtain ⟨digits, rfl⟩ := List.head?_eq_some_iff.1 (beq_iff_eq.1 hsign)
        rw [if_pos hsign, List.drop_succ_cons, List.drop_zero] at hd
        exact .inr ⟨digits, rfl, by rw [tokenize_minus_cons, hdecimal hd]⟩
      · rw [if_neg hsign] at hd
        exact .inl (hdecimal hd)
    · cases h

namespace Literal

/-- A text is a single value: one quoted text, boolean or number, or a number behind a minus sign,
and all of its characters belong to these tokens. -/
inductive IsValue (s : Text) : Prop
  | quoted (tokens : tokenize s = [⟨[], .quoted, s⟩])
  | boolean (k : Keyword) (value : k = .TRUE ∨ k = .FALSE)
      (tokens : tokenize s = [⟨[], .keyword k, s⟩])
  | number (tokens : tokenize s = [⟨[], .number, s⟩])
  | negative (digits : Text) (eq : s = '-' :: digits)
      (tokens : tokenize s = [⟨[], .minus, ['-']⟩, ⟨[], .number, digits⟩])

/-- A boolean is one of two keywords in some case. -/
theorem foldCase_of_isBoolean {s : Text} (h : isBoolean s = true) :
    ∃ k : Keyword, (k = .TRUE ∨ k = .FALSE) ∧ Text.foldCase s = Text.foldCase k.spelling := by
  rw [isBoolean, Bool.or_eq_true, Text.eqIgnoreCase_iff, Text.eqIgnoreCase_iff] at h
  rcases h with h | h
  · exact ⟨.TRUE, .inl rfl, by rw [h]; decide⟩
  · exact ⟨.FALSE, .inr rfl, by rw [h]; decide⟩

/-- What a text is quoted as. -/
theorem quoteText_eq (s : Text) : quoteText s =
    if isBoolean s then Text.foldCase s
    else if isCanonicalNumber s then s
    else Json.Quoted.encode s := rfl

theorem isValue_quoteText (s : Text) : IsValue (quoteText s) := by
  rw [quoteText_eq]
  split
  · next hbool =>
    obtain ⟨k, hk, hfold⟩ := foldCase_of_isBoolean hbool
    rw [hfold]
    exact .boolean k hk (tokenize_value (.inr hk))
  · split
    · next hnumber =>
      rcases tokenize_of_isCanonicalNumber hnumber with htok | ⟨digits, heq, htok⟩
      · exact .number htok
      · exact .negative digits heq htok
    · exact .quoted (tokenize_encode s)

/-- What is quoted denotes the text, but for the case of booleans. -/
theorem unquote_quoteText (s : Text) :
    unquote (quoteText s) = if isBoolean s then Text.foldCase s else s := by
  rw [quoteText_eq]
  split
  · next hbool =>
    obtain ⟨k, hk, hfold⟩ := foldCase_of_isBoolean hbool
    rw [hfold]
    rcases hk with rfl | rfl <;> decide +kernel
  · split
    · next hnumber =>
      rw [unquote_of_chars (not_mem_of_number hnumber),
        (piece_of_chars (not_isBlank_of_number hnumber) (not_mem_of_number hnumber)).tight.trim_eq]
    · exact unquote_encode s

/-- How a character is written between single quotes. -/
def escapeSingle (c : Char) : Text :=
  if c == '\\' || c == '\'' then ['\\', c] else [c]

/-- A text in single quotes, with a backslash before each backslash and each single quote. -/
def quoteSingle (s : Text) : Text :=
  '\'' :: s.flatMap escapeSingle ++ ['\'']

/-- The two ways to write a character between single quotes. -/
theorem escapeSingle_cases (c : Char) : (escapeSingle c = ['\\', c] ∧ (c = '\\' ∨ c = '\'')) ∨
    (escapeSingle c = [c] ∧ c ≠ '\\' ∧ c ≠ '\'') := by
  by_cases hc : c = '\\' ∨ c = '\''
  · exact .inl ⟨if_pos (by simpa using hc), hc⟩
  · exact .inr ⟨if_neg (by simpa using hc), not_or.1 hc⟩

/-- Each character comes back from its escaped form. -/
theorem unescape_escapeSingle (c : Char) (s : Text) :
    unescape (escapeSingle c ++ s) = c :: unescape s := by
  rcases escapeSingle_cases c with ⟨hc, rfl | rfl⟩ | ⟨hc, hslash, -⟩
  · rw [hc]; rfl
  · rw [hc]; rfl
  · rw [hc, List.singleton_append, unescape]
    exact fun _ _ heq => absurd heq hslash

theorem unescape_flatMap (s : Text) : unescape (s.flatMap escapeSingle) = s := by
  induction s with
  | nil => rfl
  | cons c s ih => rw [List.flatMap_cons, unescape_escapeSingle, ih]

/-- A character as it is written does not end the text in single quotes. -/
theorem quotedLength_escapeSingle (c : Char) (s : Text) : quotedLength '\'' (escapeSingle c ++ s) =
    ((quotedLength '\'' s).1 + (escapeSingle c).length, (quotedLength '\'' s).2) := by
  rcases escapeSingle_cases c with ⟨hc, hmem⟩ | ⟨hc, hslash, hquote⟩
  · have hfeed : c ≠ '\n' := by rcases hmem with rfl | rfl <;> decide
    rw [hc, List.cons_append, List.cons_append, List.nil_append, quotedLength_escape hfeed]
    rfl
  · rw [hc, List.singleton_append, quotedLength_other hquote hslash]
    rfl

theorem tokenize_quoteSingle (s : Text) :
    tokenize (quoteSingle s) = [⟨[], .quoted, quoteSingle s⟩] :=
  tokenize_quoted (.inl rfl) (quotedLength_flatMap (by decide) quotedLength_escapeSingle s)

/-- A text comes back from between single quotes. -/
theorem unquote_quoteSingle (s : Text) : unquote (quoteSingle s) = s := by
  have htight : (quoteSingle s).Tight :=
    (Piece.of_tokenize (tokenize_quoteSingle s) (by simp) (by simp)).tight
  have hinside : inside? (quoteSingle s) = some (s.flatMap escapeSingle) := by
    rw [quoteSingle, List.cons_append, inside?]
    simp
  have hjson : Json.Quoted.decode? (quoteSingle s) = none := rfl
  simp only [unquote, htight.trim_eq, hinside, hjson, Option.getD_none, unescape_flatMap]

/-- A quoted text is a single value and is unquoted to the text, but for the case of booleans; a
text in single quotes is one quoted text and is unquoted to the text. -/
theorem unquote_quote (s : Text) :
    unquote (quote (some s)) = (if isBoolean s then Text.foldCase s else s) ∧
      IsValue (quote (some s)) ∧
      tokenize (quoteSingle s) = [⟨[], .quoted, quoteSingle s⟩] ∧
      unquote (quoteSingle s) = s :=
  ⟨unquote_quoteText s, isValue_quoteText s, tokenize_quoteSingle s, unquote_quoteSingle s⟩

end Literal

end Soql
