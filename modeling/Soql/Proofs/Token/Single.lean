import Soql.Proofs.Token.Piece

/-!
# Texts of one token

Words, runs of digits and quoted texts that are written into a query as they stand.
-/

namespace Soql

open Token

/-- A token by itself is read as itself. -/
theorem Token.Reads.tokenize_written {t : Token} (h : t.Reads []) : tokenize t.written = [t] := by
  have := tokenize_written_append h
  rwa [List.append_nil, tokenize_nil] at this

/-- A text that is one token is a piece unless the token is unknown or left open. -/
theorem Piece.of_tokenize {s : Text} {k : Kind} (h : tokenize s = [⟨[], k, s⟩])
    (hopen : k ≠ .unclosed) (hunknown : k ≠ .unknown) : Piece s := by
  have hclosed : hasUnclosed (tokenize s) = false := by simp [h, hopen]
  have hshape : Shape ⟨[], k, s⟩ := shape_of_mem (s := s) (by simp [h]) hopen
  exact ⟨hshape.tight hunknown, hclosed⟩

theorem runLength_of_all {p : Char → Bool} {s : Text} (h : ∀ c ∈ s, p c = true) :
    runLength p s = s.length := by
  rw [runLength, List.takeWhile_eq_self_iff.2 h]

/-- A run of characters that make up a word is one where the run ends. -/
theorem tokenize_word_append {c : Char} {s : Text} (hc : isWordStart c = true)
    (hs : ∀ x ∈ s, isWordPart x = true) (rest : Text) (hrest : ∀ x ∈ rest.head?, isWordPart x = false) :
    tokenize (c :: s ++ rest) = ⟨[], Kind.ofWord (c :: s), c :: s⟩ :: tokenize rest := by
  refine tokenize_written_append (t := ⟨[], _, c :: s⟩) ⟨by simp, c, s, rfl, ?_, ?_⟩
  · rw [Bool.eq_false_iff]
    intro hgap
    have := not_isBlank_of_isWordPart (isWordPart_of_isWordStart hc)
    rw [Text.isBlank_of_isGap hgap] at this
    cases this
  · rw [lexeme_word _ hc, (runLength_eq_iff hs).2 hrest, List.take_left]

/-- A word by itself is one token. -/
theorem tokenize_word {c : Char} {s : Text} (hc : isWordStart c = true)
    (hs : ∀ x ∈ s, isWordPart x = true) :
    tokenize (c :: s) = [⟨[], Kind.ofWord (c :: s), c :: s⟩] := by
  have := tokenize_word_append hc hs [] (by simp)
  rwa [List.append_nil, tokenize_nil] at this

/-- The characters that are a token wherever they stand outside quotes. -/
def standalone : List Char :=
  ['(', ')', ',', '.', ':']

/-- Characters that are no part of longer tokens are read by themselves. -/
theorem tokenize_standalone_cons {c : Char} (hc : c ∈ standalone) (s : Text) :
    tokenize (c :: s) = ⟨[], symbolKind c, [c]⟩ :: tokenize s := by
  simp only [standalone, List.mem_cons, List.not_mem_nil, or_false] at hc
  rcases hc with rfl | rfl | rfl | rfl | rfl <;>
    exact tokenize_written_append (t := ⟨[], _, [_]⟩)
      ⟨by simp, _, [], rfl, rfl, by cases s <;> rfl⟩

theorem numberLength_of_all {s : Text} (h : ∀ c ∈ s, c.isDigit = true) :
    numberLength s = s.length := by
  rw [numberLength_eq, runLength_of_all h, List.dropWhile_eq_nil_iff.2 h]
  rfl

/-- Digits, a point and digits go on with a number to their end. -/
theorem numberLength_decimal {s fraction : Text} (hs : ∀ c ∈ s, c.isDigit = true)
    (hfraction : Text.isDigits fraction = true) :
    numberLength (s ++ '.' :: fraction) = (s ++ '.' :: fraction).length := by
  rw [Text.isDigits_iff] at hfraction
  have hwhole : runLength Char.isDigit (s ++ '.' :: fraction) = s.length :=
    (runLength_eq_iff hs).2 (by rintro _ ⟨⟩; rfl)
  have hrest : (s ++ '.' :: fraction).dropWhile Char.isDigit = '.' :: fraction := by
    rw [← drop_runLength, hwhole, List.drop_left]
  obtain ⟨c, t, rfl⟩ := List.exists_cons_of_ne_nil hfraction.1
  rw [numberLength_eq, hwhole, hrest, fractionLength, runLength_of_all hfraction.2,
    List.length_append]
  rfl

theorem not_isGap_of_isDigit {c : Char} (h : c.isDigit = true) : Text.isGap c = false := by
  rw [Bool.eq_false_iff]
  intro hgap
  have := not_isBlank_of_isDigit h
  rw [Text.isBlank_of_isGap hgap] at this
  cases this

/-- What goes on with a number to its end is one with the digit before it. -/
theorem tokenize_number {c : Char} (hc : c.isDigit = true) {s : Text}
    (h : numberLength s = s.length) : tokenize (c :: s) = [⟨[], .number, c :: s⟩] := by
  refine Token.Reads.tokenize_written (t := ⟨[], .number, c :: s⟩)
    ⟨by simp, c, s, rfl, not_isGap_of_isDigit hc, ?_⟩
  rw [List.append_nil, lexeme_digit s (isWordStart_of_isDigit hc) hc, h]

theorem Text.exists_cons_of_isDigits {s : Text} (h : Text.isDigits s = true) :
    ∃ c t, s = c :: t ∧ c.isDigit = true ∧ ∀ x ∈ t, x.isDigit = true := by
  obtain ⟨hne, hall⟩ := Text.isDigits_iff.1 h
  obtain ⟨c, t, rfl⟩ := List.exists_cons_of_ne_nil hne
  exact ⟨c, t, rfl, hall c List.mem_cons_self, fun x hx => hall x (List.mem_cons_of_mem c hx)⟩

/-- A run of digits is a number. -/
theorem tokenize_digits {s : Text} (h : Text.isDigits s = true) :
    tokenize s = [⟨[], .number, s⟩] := by
  obtain ⟨c, t, rfl, hc, ht⟩ := Text.exists_cons_of_isDigits h
  exact tokenize_number hc (numberLength_of_all ht)

/-- Digits with a point and digits behind them are a number. -/
theorem tokenize_decimal {whole fraction : Text} (hwhole : Text.isDigits whole = true)
    (hfraction : Text.isDigits fraction = true) :
    tokenize (whole ++ '.' :: fraction) = [⟨[], .number, whole ++ '.' :: fraction⟩] := by
  obtain ⟨c, t, rfl, hc, ht⟩ := Text.exists_cons_of_isDigits hwhole
  exact tokenize_number hc (numberLength_decimal ht hfraction)

/-- A minus sign is a token of its own. -/
theorem tokenize_minus_cons (s : Text) : tokenize ('-' :: s) = ⟨[], .minus, ['-']⟩ :: tokenize s :=
  tokenize_written_append (t := ⟨[], _, [_]⟩) ⟨by simp, _, [], rfl, rfl, by cases s <;> rfl⟩

end Soql
