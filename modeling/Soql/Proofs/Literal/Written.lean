import Soql.Proofs.Json.Quoted
import Soql.Proofs.Literal.Bare
import Soql.Proofs.Literal.Date
import Soql.Proofs.Token.Join
import Soql.Literal.Written

/-!
# Values as they are written

A value is written in one of five ways, listed by `Form`. Whatever the value is, what is written is
closed and has no parenthesis and no comma outside quotes; and apart from the names of bind
variables its only keywords are `NULL`, `TRUE` and `FALSE`. Reading it and writing it again gives
the same text without the blanks that a relative date may have at its ends.
-/

namespace Soql

open Kind Token

namespace Literal

theorem inside?_of_not_mem {s : Text} (hs : '\'' ∉ s ∧ '"' ∉ s) : inside? s = none := by
  cases s with
  | nil => rfl
  | cons c s =>
    have hc : (c == '\'' || c == '"') = false := by
      simp only [List.mem_cons, not_or] at hs
      rw [Bool.or_eq_false_iff, beq_eq_false_iff_ne, beq_eq_false_iff_ne]
      exact ⟨fun h => hs.1.1 h.symm, fun h => hs.2.1 h.symm⟩
    rw [inside?, hc, Bool.false_and]
    rfl

/-- Quotes lie around a text that stands inside of them. -/
theorem exists_of_inside? {s body : Text} (h : inside? s = some body) :
    ∃ q, (q = '\'' ∨ q = '"') ∧ s = q :: (body ++ [q]) := by
  cases s with
  | nil => cases h
  | cons q rest =>
    rw [inside?] at h
    split at h
    · next hquote =>
      simp only [Bool.and_eq_true, Bool.or_eq_true, beq_iff_eq] at hquote
      obtain ⟨rest', rfl⟩ := List.getLast?_eq_some_iff.1 hquote.2
      rw [List.dropLast_concat, Option.some.injEq] at h
      exact ⟨q, hquote.1, by rw [h]⟩
    · cases h

/-- Between the quotes of a written text stand its escaped characters. -/
theorem inside?_encode (s : Text) :
    inside? (Json.Quoted.encode s) = some (s.flatMap Json.Quoted.escape) := by
  rw [Json.Quoted.encode, List.cons_append, inside?]
  simp

/-- A text without quotes around it denotes itself, trimmed. -/
theorem unquote_of_not_quoted {s : Text} (h : inside? s.trim = none) : unquote s = s.trim := by
  simp only [unquote, h]

@[simp] theorem unquote_trim (s : Text) : unquote s.trim = unquote s := by
  rw [unquote, unquote, Text.trim_trim]

@[simp] theorem unquote_encode (s : Text) : unquote (Json.Quoted.encode s) = s := by
  simp only [unquote, (piece_encode s).tight.trim_eq, inside?_encode, Json.Quoted.decode?_encode]
  rfl

/-- A text without the characters of groups, lists and quoted texts stands for itself. -/
theorem unquote_of_chars {s : Text} (h : ∀ c ∈ s, c ∉ flatExceptions) : unquote s = s.trim := by
  obtain ⟨g, b, hs, -, -⟩ := Text.exists_eq_append_trim s
  refine unquote_of_not_quoted (inside?_of_not_mem ⟨fun hc => ?_, fun hc => ?_⟩)
  · exact h '\'' (by rw [hs]; simp [hc]) (by simp [flatExceptions])
  · exact h '"' (by rw [hs]; simp [hc]) (by simp [flatExceptions])

/-- How a text is written as the right-hand side of a comparison. -/
def writeText (s : Text) : Text :=
  if Text.eqIgnoreCase s "null".toList then "null".toList
  else if Date.isLiteral s || isBindVariable s then s
  else quoteText s

theorem writeValue_eq (value : Text) : writeValue value = writeText (unquote value) := rfl

/-- The ways in which a text is written. -/
inductive Form (s : Text) : Text → Prop
  | word (k : Keyword) (value : k = .NULL ∨ k = .TRUE ∨ k = .FALSE)
      (spells : Text.eqIgnoreCase s k.spelling = true) : Form s (Text.foldCase k.spelling)
  | date (h : Date.isLiteral s = true) : Form s s
  | bind (h : isBindVariable s = true) : Form s s
  | number (h : isCanonicalNumber s = true) : Form s s
  | text : Form s (Json.Quoted.encode s)

theorem form_quoteText (s : Text) : Form s (quoteText s) := by
  rw [quoteText]
  split
  · next hbool =>
    rw [Bool.or_eq_true] at hbool
    rcases hbool with htrue | hfalse
    · have heq : Text.foldCase s = Text.foldCase Keyword.TRUE.spelling := by
        rw [Text.eqIgnoreCase_iff] at htrue
        rw [htrue]
        decide
      rw [heq]
      exact .word .TRUE (by simp) (Text.eqIgnoreCase_iff.2 heq)
    · have heq : Text.foldCase s = Text.foldCase Keyword.FALSE.spelling := by
        rw [Text.eqIgnoreCase_iff] at hfalse
        rw [hfalse]
        decide
      rw [heq]
      exact .word .FALSE (by simp) (Text.eqIgnoreCase_iff.2 heq)
  · split
    · next hnumber => exact .number hnumber
    · exact .text

/-- Every text is written in one of the forms. -/
theorem form (s : Text) : Form s (writeText s) := by
  rw [writeText]
  split
  · next hnull =>
    refine .word .NULL (by simp) ?_
    rw [Text.eqIgnoreCase_iff] at hnull ⊢
    rw [hnull]
    decide
  · split
    · next hbare =>
      rw [Bool.or_eq_true] at hbare
      rcases hbare with hdate | hbind
      · exact .date hdate
      · exact .bind hbind
    · exact form_quoteText s

/-- The tokens of null and of a boolean. -/
theorem tokenize_value {k : Keyword} (h : k = .NULL ∨ k = .TRUE ∨ k = .FALSE) :
    tokenize (Text.foldCase k.spelling) = [⟨[], .keyword k, Text.foldCase k.spelling⟩] := by
  rcases h with rfl | rfl | rfl <;> decide +kernel

/-- No form leaves a quote open. -/
theorem Form.closed {s w : Text} (h : Form s w) : Closed w := by
  cases h with
  | word k value => rw [Closed, tokenize_value value]; rfl
  | date h => exact Date.closed_of_isLiteral h
  | bind h => exact closed_of_chars (not_mem_of_isBindVariable h)
  | number h => exact closed_of_chars (not_mem_of_number h)
  | text => exact (piece_encode s).closed

/-- Only quoted texts have characters of groups, lists and quoted texts. -/
theorem Form.encode_or_flat {s w : Text} (h : Form s w) :
    w = Json.Quoted.encode s ∨ ∀ c ∈ w, c ∉ flatExceptions := by
  cases h with
  | word k value => exact .inr (by rcases value with rfl | rfl | rfl <;> decide)
  | date h => exact .inr (Date.not_mem_of_isLiteral h)
  | bind h => exact .inr (not_mem_of_isBindVariable h)
  | number h => exact .inr (not_mem_of_number h)
  | text => exact .inl rfl

/-- What is written has no group and no list outside quotes. -/
theorem Form.no_group {s w : Text} (h : Form s w) : ∀ k ∈ kindsOf w,
    k ≠ .openParen ∧ k ≠ .closeParen ∧ k ≠ .comma := by
  intro k hk
  rcases h.encode_or_flat with rfl | hflat
  · rw [kindsOf, tokenize_encode] at hk
    obtain rfl := List.mem_singleton.1 hk
    simp
  · have := isFlat_of_chars hflat k hk
    simp only [Kind.isFlat, Bool.and_eq_true, bne_iff_ne] at this
    exact ⟨this.1.1.1.1, this.1.1.1.2, this.1.1.2⟩

/-- The only keywords that are written are values, apart from the names of bind variables. -/
theorem Form.bind_or_value {s w : Text} (h : Form s w) : (isBindVariable s = true ∧ w = s) ∨
    ∀ k, .keyword k ∈ kindsOf w → k = .NULL ∨ k = .TRUE ∨ k = .FALSE := by
  cases h with
  | word l value =>
    refine .inr fun k hk => ?_
    rw [kindsOf, tokenize_value value] at hk
    simp only [kinds_cons, kinds_nil, List.mem_singleton, Kind.keyword.injEq] at hk
    rwa [hk]
  | date h =>
    exact .inr fun k hk => absurd (Date.isDatePart_of_isLiteral h _ hk) (by simp [Kind.isDatePart])
  | bind h => exact .inl ⟨h, rfl⟩
  | number h =>
    exact .inr fun k hk => absurd (not_isWord_of_number h _ hk) (by simp [Kind.isWord])
  | text =>
    refine .inr fun k hk => ?_
    rw [kindsOf, tokenize_encode] at hk
    simp at hk

/-- Only a relative date is written with blanks at its ends. -/
theorem Form.tight {s w : Text} (h : Form s w) (hdate : Date.isLiteral s = true → s.Tight) :
    w.Tight := by
  cases h with
  | word k value => exact (Piece.of_tokenize (tokenize_value value) (by simp) (by simp)).tight
  | date h => exact hdate h
  | bind h =>
    exact (piece_of_chars (not_isBlank_of_isBindVariable h) (not_mem_of_isBindVariable h)).tight
  | number h => exact (piece_of_chars (not_isBlank_of_number h) (not_mem_of_number h)).tight
  | text => exact (piece_encode s).tight

theorem Form.trim_ne_nil {s w : Text} (h : Form s w) : w.trim ≠ [] := by
  have hself : ∀ {t : Text}, Piece t → t ≠ [] → t.trim ≠ [] := fun ht hne => by
    rwa [ht.tight.trim_eq]
  cases h with
  | word k value =>
    refine hself (Piece.of_tokenize (tokenize_value value) (by simp) (by simp)) ?_
    rcases value with rfl | rfl | rfl <;> decide
  | date h =>
    intro hnil
    rw [← Date.isLiteral_trim, hnil] at h
    revert h
    decide +kernel
  | bind h =>
    refine hself (piece_of_chars (not_isBlank_of_isBindVariable h) (not_mem_of_isBindVariable h)) ?_
    rintro rfl
    cases h
  | number h =>
    exact hself (piece_of_chars (not_isBlank_of_number h) (not_mem_of_number h))
      (chars_of_isCanonicalNumber h).1
  | text => exact hself (piece_encode s) (by simp [Json.Quoted.encode])

theorem Form.kindsOf_ne_nil {s w : Text} (h : Form s w) : kindsOf w ≠ [] := by
  intro hnil
  refine h.trim_ne_nil (Text.trim_eq_nil_iff.2 fun c hc => Text.isBlank_of_isGap ?_)
  exact tokenize_eq_nil_iff.1 (kinds_eq_nil_iff.1 hnil) c hc

/-- What is written is no query. -/
theorem Form.first {s w : Text} (h : Form s w) : (kindsOf w).head? ≠ some (.keyword .SELECT) := by
  intro hhead
  rcases h.bind_or_value with ⟨hbind, rfl⟩ | hvalue
  · obtain ⟨hcolon, -⟩ := chars_of_isBindVariable hbind
    cases w with
    | nil => cases hcolon
    | cons c w =>
      obtain rfl : c = ':' := by simpa using hcolon
      rw [kindsOf, tokenize_standalone_cons (by simp [standalone])] at hhead
      cases hhead
  · rcases hvalue _ (List.mem_of_mem_head? hhead) with hk | hk | hk <;> cases hk

/-- A bind variable is written as it is. -/
theorem writeText_of_bind {s : Text} (h : isBindVariable s = true) : writeText s = s := by
  have hnull : Text.eqIgnoreCase s "null".toList = false := by
    obtain ⟨hcolon, -⟩ := chars_of_isBindVariable h
    cases s with
    | nil => cases hcolon
    | cons c s =>
      obtain rfl : c = ':' := by simpa using hcolon
      rw [Bool.eq_false_iff, ne_eq, Text.eqIgnoreCase_iff]
      intro heq
      have hhead : some ':' = some 'n' := congrArg List.head? heq
      revert hhead
      decide
  rw [writeText, hnull, h, Bool.or_true]
  rfl

/-- A text that spells null or a boolean does so in lower case. -/
def IsLower (s : Text) : Prop :=
  ∀ k : Keyword, k = .NULL ∨ k = .TRUE ∨ k = .FALSE → Text.eqIgnoreCase s k.spelling = true →
    s = Text.foldCase k.spelling

instance (s : Text) : Decidable (IsLower s) :=
  decidable_of_iff (∀ k ∈ [Keyword.NULL, .TRUE, .FALSE], Text.eqIgnoreCase s k.spelling = true →
    s = Text.foldCase k.spelling) (by simp [IsLower])

/-- A text is read from what it is written as, unless its case or blanks at its ends are lost. -/
theorem Form.unquote_eq {s w : Text} (h : Form s w) (hlower : IsLower s)
    (hdate : Date.isLiteral s = true → s.Tight) : unquote w = s := by
  have htight := h.tight hdate
  cases h with
  | word k value spells =>
    rw [unquote_of_chars (by rcases value with rfl | rfl | rfl <;> decide), htight.trim_eq,
      hlower k value spells]
  | date h => rw [unquote_of_chars (Date.not_mem_of_isLiteral h), htight.trim_eq]
  | bind h => rw [unquote_of_chars (not_mem_of_isBindVariable h), htight.trim_eq]
  | number h => rw [unquote_of_chars (not_mem_of_number h), htight.trim_eq]
  | text => exact unquote_encode s

/-- A relative date is written as it stands. -/
theorem writeText_trim_of_date {s : Text} (h : Date.isLiteral s = true) :
    writeText s.trim = s.trim := by
  rw [writeText, Date.not_null h, Date.isLiteral_trim, h]
  rfl

/-- What is written is written again as the same text. -/
theorem writeText_unquote_writeText (s : Text) :
    writeText (unquote (writeText s)) = (writeText s).trim := by
  have hself : writeText s = s → (∀ c ∈ s, Text.isBlank c = false) →
      (∀ c ∈ s, c ∉ flatExceptions) → writeText (unquote (writeText s)) = (writeText s).trim := by
    intro hwrite hblank hs
    rw [hwrite, unquote_of_chars hs, (piece_of_chars hblank hs).tight.trim_eq, hwrite]
  have hform := form s
  generalize hw : writeText s = w at hform
  cases hform with
  | word k value => rcases value with rfl | rfl | rfl <;> decide +kernel
  | date h => rw [unquote_of_chars (Date.not_mem_of_isLiteral h), writeText_trim_of_date h]
  | bind h => simpa [hw] using hself hw (not_isBlank_of_isBindVariable h) (not_mem_of_isBindVariable h)
  | number h => simpa [hw] using hself hw (not_isBlank_of_number h) (not_mem_of_number h)
  | text => rw [unquote_encode, (piece_encode s).tight.trim_eq, hw]

end Literal

end Soql
