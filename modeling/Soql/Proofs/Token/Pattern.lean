import Soql.Proofs.Text.Lowercase
import Soql.Proofs.Text.Pattern
import Soql.Proofs.Token.Single

/-!
# The patterns of tokens

Every kind of token has a pattern (`Kind.pattern`), a regular language that says which texts a token
of the kind may have. Reading agrees with the patterns in both directions: what is read is a text of
its pattern, unless it is a single unknown character (`mem_pattern_of_lexeme`), and a text of a
pattern is read as a whole, as that kind or as the keyword that it spells (`lexeme_of_mem_pattern`).
-/

namespace Soql

open Kind Token
open scoped Computability

namespace Pattern

/-- An ASCII letter. -/
def letter : Language Char :=
  between 'a' 'z' + between 'A' 'Z'

/-- A letter or an underscore, and then letters, digits and underscores. -/
def word : Language Char :=
  (letter + fixed ['_']) * (letter + digit + fixed ['_'])∗

/-- Digits, and behind them a point and digits or nothing. -/
def number : Language Char :=
  several digit * maybe (fixed ['.'] * several digit)

/-- What may stand behind an opening quote without closing it: characters other than the quote and
the backslash, and backslashes with any character behind them but a line feed. -/
def quotedBody (quote : Char) : Language Char :=
  (one (fun c => c ≠ quote ∧ c ≠ '\\') + fixed ['\\'] * one (· ≠ '\n'))∗

/-- A quoted text without its closing quote. -/
def unclosed (quote : Char) : Language Char :=
  fixed [quote] * quotedBody quote

/-- A quoted text. -/
def quoted (quote : Char) : Language Char :=
  fixed [quote] * (quotedBody quote * fixed [quote])

/-- A character beyond ASCII. -/
def wide : Language Char :=
  one ('\x7f' < ·)

end Pattern

/-- The texts that a token of a kind may have. -/
def Kind.pattern : Kind → Language Char
  | .keyword k => Pattern.anyCase k.spelling
  | .identifier => Pattern.word
  | .number => Pattern.number
  | .quoted => Pattern.quoted '\'' + Pattern.quoted '"'
  | .unclosed => Pattern.unclosed '\'' + Pattern.unclosed '"'
  | .unknown => Pattern.several Pattern.wide
  | k => {s | symbolText k = some s}

namespace Pattern

variable {c quote : Char} {s b y : Text}

theorem letter_eq : letter = one fun c => c.isAlpha = true := by
  rw [letter, between_eq, between_eq, one_add_one]
  refine one_congr fun c => ?_
  rw [isAlpha_iff]
  exact or_comm

/-- The words, by the properties of their characters. -/
theorem mem_word : s ∈ word ↔ ∃ c t, s = c :: t ∧ isWordStart c = true ∧
    ∀ x ∈ t, isWordPart x = true := by
  have hstart : letter + fixed ['_'] = one fun c => isWordStart c = true := by
    rw [letter_eq, fixed_singleton, one_add_one]
    exact one_congr fun c => by rw [isWordStart, Bool.or_eq_true, beq_iff_eq]
  have hpart : letter + digit + fixed ['_'] = one fun c => isWordPart c = true := by
    rw [letter_eq, digit_eq, fixed_singleton, one_add_one, one_add_one]
    exact one_congr fun c => by
      rw [isWordPart, Char.isAlphanum, Bool.or_eq_true, Bool.or_eq_true, beq_iff_eq]
  rw [word, hstart, hpart, mem_one_mul]
  simp only [mem_kstar_one]

theorem wide_eq : wide = one fun c => isWide c = true := by
  refine one_congr fun c => ?_
  rw [isWide, decide_eq_true_eq]
  exact Nat.lt_iff_add_one_le

/-- A number has digits, and digits behind the point if there is one. -/
theorem cons_mem_number : c :: s ∈ number ↔ c.isDigit = true ∧ ∃ whole fraction,
    s = whole ++ fraction ∧ (∀ d ∈ whole, d.isDigit = true) ∧
      (fraction = [] ∨ ∃ digits, fraction = '.' :: digits ∧ Text.isDigits digits = true) := by
  have hdigits (t : Text) : t ∈ several (one fun c => c.isDigit = true) ↔
      Text.isDigits t = true := by
    rw [mem_several_one, Text.isDigits_iff]
  rw [number, digit_eq]
  rw [several, mul_assoc, cons_mem_one_mul, Language.mem_mul, ← several]
  simp only [mem_kstar_one, mem_maybe, mem_fixed_mul, hdigits]
  refine and_congr_right fun _ => ⟨?_, ?_⟩
  · rintro ⟨whole, hwhole, fraction, hfraction, rfl⟩
    refine ⟨whole, fraction, rfl, hwhole, hfraction.imp_right ?_⟩
    rintro ⟨digits, h, heq⟩
    exact ⟨digits, heq, h⟩
  · rintro ⟨whole, fraction, rfl, hwhole, hfraction⟩
    refine ⟨whole, hwhole, fraction, hfraction.imp_right ?_, rfl⟩
    rintro ⟨digits, heq, h⟩
    exact ⟨digits, h, heq⟩

section Quoted

theorem cons_mem_quotedBody (hc : c ≠ quote ∧ c ≠ '\\') (h : s ∈ quotedBody quote) :
    c :: s ∈ quotedBody quote :=
  append_mem_kstar ((Language.mem_add _ _ _).2 (.inl (mem_one.2 ⟨c, rfl, hc⟩))) h

theorem escape_mem_quotedBody (hc : c ≠ '\n') (h : s ∈ quotedBody quote) :
    '\\' :: c :: s ∈ quotedBody quote := by
  refine append_mem_kstar (s := ['\\', c]) ((Language.mem_add _ _ _).2 (.inr ?_)) h
  exact mem_fixed_mul.2 ⟨[c], mem_one.2 ⟨c, rfl, hc⟩, rfl⟩

/-- What may stand behind an opening quote is passed over as a whole. -/
theorem quotedLength_quotedBody (h : b ∈ quotedBody quote) (y : Text) :
    quotedLength quote (b ++ y) =
      ((quotedLength quote y).1 + b.length, (quotedLength quote y).2) := by
  refine kstar_induction h ?_ ?_
  · rfl
  · rintro t ht s ih
    rcases (Language.mem_add _ _ _).1 ht with ⟨c, rfl, hc, hslash⟩ | ht
    · rw [List.append_assoc, List.singleton_append, quotedLength_other hc hslash, ih]
      rfl
    · obtain ⟨_, ⟨c, rfl, hc⟩, rfl⟩ := mem_fixed_mul.1 ht
      rw [List.append_assoc, List.append_assoc, List.singleton_append, List.singleton_append,
        quotedLength_escape hc, ih]
      rfl

/-- What is passed over behind an opening quote may stand there, up to the quote that closes it. -/
theorem mem_of_quotedLength {closed : Bool} (hquote : quote ≠ '\\')
    (h : quotedLength quote s = (s.length, closed)) :
    s ∈ quotedBody quote * if closed then fixed [quote] else 1 := by
  induction s using quoted_induction quote with
  | nil =>
    obtain rfl : false = closed := congrArg Prod.snd h
    exact Language.mem_mul.2 ⟨[], Language.nil_mem_kstar _, [], rfl, rfl⟩
  | lone s hs =>
    rw [quotedLength_lone hquote hs] at h
    cases h
  | close s =>
    rw [quotedLength_close hquote, Prod.mk.injEq, List.length_cons] at h
    obtain rfl : s = [] := List.eq_nil_of_length_eq_zero (by omega)
    exact Language.mem_mul.2 ⟨[], Language.nil_mem_kstar _, [quote], by rw [← h.2]; rfl, rfl⟩
  | escape e s he ih =>
    obtain ⟨b, hb, end', hend, rfl⟩ :=
      Language.mem_mul.1 (ih ((quotedLength_escape_eq_iff he).1 h))
    exact Language.mem_mul.2 ⟨_, escape_mem_quotedBody he hb, end', hend, rfl⟩
  | other c s hc hslash ih =>
    obtain ⟨b, hb, end', hend, rfl⟩ :=
      Language.mem_mul.1 (ih ((quotedLength_other_eq_iff hc hslash).1 h))
    exact Language.mem_mul.2 ⟨_, cons_mem_quotedBody ⟨hc, hslash⟩ hb, end', hend, rfl⟩

end Quoted

end Pattern

namespace Kind

variable {c : Char} {s : Text} {k : Kind}

/-- A symbol is read from its own text. -/
theorem lexeme_of_symbolText (h : symbolText k = some (c :: s)) : lexeme c s = (k, s.length) := by
  have hread : ∀ text, symbolText k = some text → ∀ d ∈ text.head?,
      lexeme d text.tail = (k, text.tail.length) := by
    intro text htext
    cases k <;> cases htext <;> decide
  exact hread _ h c rfl

/-- A keyword in any case is a word, and it is read as that keyword. -/
theorem of_mem_anyCase {w : Keyword} (h : s ∈ Pattern.anyCase w.spelling) :
    s ∈ Pattern.word ∧ Kind.ofWord s = .keyword w := by
  refine ⟨?_, Kind.ofWord_of_spells (Pattern.mem_anyCase.1 h)⟩
  have hall : ∀ k ∈ Keyword.all, ∀ c ∈ Text.foldCase k.spelling, isWordPart c = true := by decide
  have hfirst : ∀ k ∈ Keyword.all, (Text.foldCase k.spelling).head?.any isWordStart = true := by
    decide
  have hfold := Text.eqIgnoreCase_iff.1 (Pattern.mem_anyCase.1 h)
  obtain ⟨c, hc, hstart⟩ := (Option.any_eq_true _ _).1 (hfirst w (Keyword.mem_all w))
  rw [← hfold, Text.foldCase, List.head?_map, Option.map_eq_some_iff] at hc
  obtain ⟨d, hd, rfl⟩ := hc
  obtain ⟨t, rfl⟩ := List.head?_eq_some_iff.1 hd
  refine Pattern.mem_word.2 ⟨d, t, rfl, by rwa [isWordStart_toLower] at hstart, fun x hx => ?_⟩
  rw [← isWordPart_toLower]
  refine hall w (Keyword.mem_all w) _ ?_
  rw [← hfold]
  exact List.mem_map_of_mem (List.mem_cons_of_mem d hx)

/-- A text that is a word is read as one. -/
theorem lexeme_of_mem_word (h : c :: s ∈ Pattern.word) :
    lexeme c s = (Kind.ofWord (c :: s), s.length) := by
  obtain ⟨d, t, hcons, hstart, hpart⟩ := Pattern.mem_word.1 h
  obtain ⟨rfl, rfl⟩ := List.cons.inj hcons
  rw [lexeme_word s hstart, runLength_of_all hpart, List.take_length]

/-- A text that is a number is read as one. -/
theorem lexeme_of_mem_number (h : c :: s ∈ Pattern.number) : lexeme c s = (.number, s.length) := by
  obtain ⟨hdigit, whole, fraction, rfl, hwhole, hfraction⟩ := Pattern.cons_mem_number.1 h
  rw [lexeme_digit _ (isWordStart_of_isDigit hdigit) hdigit]
  rcases hfraction with rfl | ⟨digits, rfl, hdigits⟩
  · rw [List.append_nil, numberLength_of_all hwhole]
  · rw [numberLength_decimal hwhole hdigits]

section Quoted

variable {q : Char} (hq : q = '\'' ∨ q = '"')

include hq

theorem lexeme_of_quote (y : Text) : lexeme q y =
    (if (quotedLength q y).2 then .quoted else .unclosed, (quotedLength q y).1) := by
  rcases hq with rfl | rfl <;> exact lexeme_quote y (by decide) (by decide) (by decide)

/-- A text in quotes is read to its last one. -/
theorem lexeme_of_mem_quoted (h : c :: s ∈ Pattern.quoted q) :
    lexeme c s = (.quoted, s.length) := by
  obtain ⟨t, ht, hcons⟩ := Pattern.mem_fixed_mul.1 h
  obtain ⟨rfl, rfl⟩ := List.cons.inj hcons
  obtain ⟨b, hb, _, rfl, rfl⟩ := Language.mem_mul.1 ht
  have hclose : quotedLength c [c] = (1, true) := by rcases hq with rfl | rfl <;> rfl
  rw [lexeme_of_quote hq, Pattern.quotedLength_quotedBody hb, hclose, List.length_append]
  simp [Nat.add_comm]

/-- A text with an open quote is read to its end. -/
theorem lexeme_of_mem_unclosed (h : c :: s ∈ Pattern.unclosed q) :
    lexeme c s = (.unclosed, s.length) := by
  obtain ⟨b, hb, hcons⟩ := Pattern.mem_fixed_mul.1 h
  obtain ⟨rfl, rfl⟩ := List.cons.inj hcons
  have hread := Pattern.quotedLength_quotedBody hb []
  rw [List.append_nil] at hread
  rw [lexeme_of_quote hq, hread]
  simp [quotedLength]

end Quoted

theorem exists_quote {l : Char → Language Char} (h : s ∈ l '\'' + l '"') :
    ∃ q, (q = '\'' ∨ q = '"') ∧ s ∈ l q :=
  ((Language.mem_add _ _ _).1 h).elim (fun h => ⟨_, .inl rfl, h⟩) fun h => ⟨_, .inr rfl, h⟩

theorem mem_quote {l : Char → Language Char} {q : Char} (hq : q = '\'' ∨ q = '"') (h : s ∈ l q) :
    s ∈ l '\'' + l '"' := by
  rcases hq with rfl | rfl
  · exact (Language.mem_add _ _ _).2 (.inl h)
  · exact (Language.mem_add _ _ _).2 (.inr h)

/-- A run of characters beyond ASCII matches no pattern but that of the unknown. -/
theorem mem_pattern_unknown : s ∈ Kind.unknown.pattern ↔ s ≠ [] ∧ ∀ c ∈ s, isWide c = true := by
  change s ∈ Pattern.several Pattern.wide ↔ _
  rw [Pattern.wide_eq, Pattern.mem_several_one]

/-- What a text that matches the pattern of a kind is read as. -/
theorem lexeme_of_mem_pattern (h : c :: s ∈ k.pattern) : ∃ l : Kind,
    lexeme c s = (l, s.length) ∧ (l = k ∨ k = .identifier ∧ l = Kind.ofWord (c :: s)) := by
  cases k with
  | keyword w =>
    obtain ⟨hmem, hkind⟩ := of_mem_anyCase h
    exact ⟨_, lexeme_of_mem_word hmem, .inl hkind⟩
  | identifier => exact ⟨_, lexeme_of_mem_word h, .inr ⟨rfl, rfl⟩⟩
  | number => exact ⟨_, lexeme_of_mem_number h, .inl rfl⟩
  | quoted =>
    obtain ⟨q, hq, hmem⟩ := exists_quote h
    exact ⟨_, lexeme_of_mem_quoted hq hmem, .inl rfl⟩
  | unclosed =>
    obtain ⟨q, hq, hmem⟩ := exists_quote h
    exact ⟨_, lexeme_of_mem_unclosed hq hmem, .inl rfl⟩
  | unknown =>
    have hwide := (mem_pattern_unknown.1 h).2
    rw [List.forall_mem_cons] at hwide
    exact ⟨_, by rw [lexeme_of_isWide hwide.1, runLength_of_all hwide.2], .inl rfl⟩
  | _ => exact ⟨_, lexeme_of_symbolText h, .inl rfl⟩

theorem nil_not_mem_pattern : [] ∉ k.pattern := by
  intro h
  cases k with
  | keyword w =>
    obtain ⟨c, t, hnil, -⟩ := Pattern.mem_word.1 (of_mem_anyCase h).1
    cases hnil
  | identifier =>
    obtain ⟨c, t, hnil, -⟩ := Pattern.mem_word.1 h
    cases hnil
  | number =>
    obtain ⟨digits, hdigits, t, -, hnil⟩ := Language.mem_mul.1 h
    rw [List.append_eq_nil_iff.1 hnil |>.1, Pattern.digit_eq, Pattern.mem_several_one] at hdigits
    exact hdigits.1 rfl
  | quoted =>
    obtain ⟨q, -, hmem⟩ := exists_quote h
    obtain ⟨t, -, hnil⟩ := Pattern.mem_fixed_mul.1 hmem
    cases hnil
  | unclosed =>
    obtain ⟨q, -, hmem⟩ := exists_quote h
    obtain ⟨t, -, hnil⟩ := Pattern.mem_fixed_mul.1 hmem
    cases hnil
  | unknown => exact (mem_pattern_unknown.1 h).1 rfl
  | _ => cases h

/-- The digits of a number that is read, and what stands behind them. -/
theorem exists_of_numberLength (h : numberLength s = s.length) : ∃ whole fraction,
    s = whole ++ fraction ∧ (∀ d ∈ whole, d.isDigit = true) ∧
      (fraction = [] ∨ ∃ digits, fraction = '.' :: digits ∧ Text.isDigits digits = true) := by
  have hsplit := List.takeWhile_append_dropWhile (p := Char.isDigit) (l := s)
  have hlength := congrArg List.length hsplit
  rw [List.length_append] at hlength
  rw [numberLength_eq, runLength] at h
  refine ⟨_, _, hsplit.symm, fun d hd => List.mem_takeWhile_imp hd, ?_⟩
  generalize s.dropWhile Char.isDigit = rest at h hlength
  have hrest : fractionLength rest = rest.length := by omega
  unfold fractionLength at hrest
  split at hrest
  · next digits =>
    split at hrest
    · simp at hrest
    · next hne =>
      have hlength : runLength Char.isDigit digits = digits.length := by simpa using hrest
      refine .inr ⟨digits, rfl, ?_⟩
      rw [Text.isDigits_iff]
      refine ⟨?_, all_of_runLength_eq hlength⟩
      rintro rfl
      exact hne hlength
  · exact .inl (List.eq_nil_of_length_eq_zero hrest.symm)

theorem mem_pattern_ofWord (h : s ∈ Pattern.word) : s ∈ (Kind.ofWord s).pattern := by
  cases hword : Keyword.ofWord? s with
  | none =>
    rw [Kind.ofWord, hword]
    exact h
  | some w =>
    rw [Kind.ofWord, hword]
    exact Keyword.ofWord?_eq_some_iff.1 hword

/-- A symbol matches its own pattern. -/
theorem mem_pattern_of_symbolText (h : symbolText k = some s) : s ∈ k.pattern := by
  cases k <;> first | exact h | cases h

/-- A text that is read to its end from a quote matches the pattern of quoted texts, closed or
not. -/
theorem mem_pattern_of_quotedLength {q : Char} (hq : q = '\'' ∨ q = '"') {closed : Bool}
    (h : quotedLength q s = (s.length, closed)) :
    q :: s ∈ (if closed then Kind.quoted else Kind.unclosed).pattern := by
  have hslash : q ≠ '\\' := by rcases hq with rfl | rfl <;> decide
  have hmem := Pattern.mem_of_quotedLength hslash h
  cases closed with
  | true => exact mem_quote hq (Pattern.mem_fixed_mul.2 ⟨s, hmem, rfl⟩)
  | false =>
    rw [if_neg Bool.false_ne_true, mul_one] at hmem
    exact mem_quote hq (Pattern.mem_fixed_mul.2 ⟨s, hmem, rfl⟩)

/-- A token is of the pattern of its kind, unless it is a single unknown character. -/
theorem mem_pattern_of_lexeme (h : lexeme c s = (k, s.length)) :
    c :: s ∈ k.pattern ∨ k = .unknown ∧ s = [] ∧ isWide c = false := by
  cases start c with
  | word hword =>
    rw [lexeme_word s hword, Prod.mk.injEq] at h
    obtain ⟨rfl, hlength⟩ := h
    rw [hlength, List.take_length]
    have hmem := Pattern.mem_word.2 ⟨c, s, rfl, hword, all_of_runLength_eq hlength⟩
    exact .inl (mem_pattern_ofWord hmem)
  | digit hword hdigit =>
    rw [lexeme_digit s hword hdigit, Prod.mk.injEq] at h
    obtain ⟨rfl, hlength⟩ := h
    exact .inl (Pattern.cons_mem_number.2 ⟨hdigit, exists_of_numberLength hlength⟩)
  | quote hword hdigit hquote =>
    rw [lexeme_quote s hword hdigit hquote, Prod.mk.injEq] at h
    obtain ⟨rfl, hlength⟩ := h
    exact .inl (mem_pattern_of_quotedLength (by simpa using hquote) (Prod.ext hlength rfl))
  | wide hword hdigit hquote hwide =>
    rw [lexeme_wide s hword hdigit hquote hwide, Prod.mk.injEq] at h
    obtain ⟨rfl, hlength⟩ := h
    refine .inl (mem_pattern_unknown.2 ⟨by simp, ?_⟩)
    exact List.forall_mem_cons.2 ⟨hwide, all_of_runLength_eq hlength⟩
  | symbol hword hdigit hquote hwide =>
    rw [lexeme_symbol s hword hdigit hquote hwide] at h
    split at h
    · next l hpair =>
      obtain ⟨rfl, hlength⟩ := Prod.mk.inj h
      obtain ⟨d, rfl⟩ := List.length_eq_one_iff.1 hlength.symm
      exact .inl (mem_pattern_of_symbolText (symbolText_pairKind? hpair))
    · obtain ⟨rfl, hlength⟩ := Prod.mk.inj h
      obtain rfl := List.eq_nil_of_length_eq_zero hlength.symm
      rcases symbolText_symbolKind (c := c) with hunknown | htext
      · exact .inr ⟨hunknown, rfl, hwide⟩
      · exact .inl (mem_pattern_of_symbolText htext)

end Kind

end Soql
