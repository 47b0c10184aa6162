import Mathlib.Data.List.TakeWhile
import Soql.Token.Lexer

/-!
# Where one token ends

`Token.lexeme` looks at the text behind a token to find its end. Two facts make tokens local: a
token that is read from a text is also read when more text follows, provided that this text starts
with a character that goes on with no token (`lexeme_append`), and it is still read when text
behind it is taken away (`lexeme_of_append`). A quoted text without its closing quote is an exception
to the first of these, since it runs up to the end.
-/

namespace Soql.Token

section Characters

variable {c : Char}

theorem isDigit_iff : c.isDigit = true ↔ 48 ≤ c.toNat ∧ c.toNat ≤ 57 := by
  simp only [Char.isDigit, Bool.and_eq_true, decide_eq_true_eq, ge_iff_le, UInt32.le_iff_toNat_le]
  rfl

theorem isAlpha_iff :
    c.isAlpha = true ↔ (65 ≤ c.toNat ∧ c.toNat ≤ 90) ∨ (97 ≤ c.toNat ∧ c.toNat ≤ 122) := by
  delta Char.isAlpha Char.isUpper Char.isLower
  simp only [Bool.or_eq_true, Bool.and_eq_true, decide_eq_true_eq, ge_iff_le,
    UInt32.le_iff_toNat_le]
  rfl

theorem isWordStart_iff : isWordStart c = true ↔
    ((65 ≤ c.toNat ∧ c.toNat ≤ 90) ∨ (97 ≤ c.toNat ∧ c.toNat ≤ 122)) ∨ c.toNat = 95 := by
  rw [isWordStart, Bool.or_eq_true, isAlpha_iff, beq_iff_eq, ← Char.toNat_inj]
  rfl

theorem isWordPart_iff : isWordPart c = true ↔
    (((65 ≤ c.toNat ∧ c.toNat ≤ 90) ∨ (97 ≤ c.toNat ∧ c.toNat ≤ 122)) ∨
      (48 ≤ c.toNat ∧ c.toNat ≤ 57)) ∨ c.toNat = 95 := by
  rw [isWordPart, Char.isAlphanum, Bool.or_eq_true, Bool.or_eq_true, isAlpha_iff, isDigit_iff,
    beq_iff_eq, ← Char.toNat_inj]
  rfl

/-- A digit starts a number and no word. -/
theorem isWordStart_of_isDigit (h : c.isDigit = true) : isWordStart c = false := by
  rw [Bool.eq_false_iff, ne_eq, isWordStart_iff]
  have := isDigit_iff.1 h
  omega

theorem toLower_of_not_upper (h : ¬(65 ≤ c.toNat ∧ c.toNat ≤ 90)) : c.toLower = c := by
  refine dif_neg fun hupper => h ?_
  simp only [ge_iff_le, UInt32.le_iff_toNat_le] at hupper
  exact hupper

end Characters

/-- No token goes on with the first character of the text. -/
def isBreak : Text → Bool
  | [] => true
  | c :: _ => !isWordPart c && c != '.' && !isWide c && c != '=' && c != '>'

section Runs

variable {p : Char → Bool}

theorem runLength_le (p : Char → Bool) (s : Text) : runLength p s ≤ s.length :=
  (List.takeWhile_prefix p).length_le

/-- A run ends where another character stands, whatever is behind it. -/
theorem runLength_append (s : Text) {y : Text} (hy : ∀ c ∈ y.head?, p c = false) :
    runLength p (s ++ y) = runLength p s := by
  have hnil : y.takeWhile p = [] := by
    cases y with
    | nil => rfl
    | cons c y => exact List.takeWhile_cons_of_neg (by simp [hy c rfl])
  unfold runLength
  rw [List.takeWhile_append, hnil, List.append_nil]
  split
  · next h => exact h.symm
  · rfl

/-- A run that ends inside `s` does not depend on what follows. -/
theorem runLength_of_append {s y : Text} (h : runLength p (s ++ y) ≤ s.length) :
    runLength p s = runLength p (s ++ y) := by
  unfold runLength at *
  rw [List.takeWhile_append] at *
  split at h
  · next hs =>
    rw [if_pos hs]
    simp only [List.length_append] at h ⊢
    omega
  · next hs => rw [if_neg hs]

end Runs

/-- A word is not continued by a text that breaks off what stands before it. -/
theorem not_isWordPart_of_isBreak {y : Text} (hy : isBreak y = true) :
    ∀ c ∈ y.head?, isWordPart c = false := by
  intro c hc
  obtain ⟨z, rfl⟩ := List.head?_eq_some_iff.1 hc
  simp only [isBreak, Bool.and_eq_true, Bool.not_eq_true'] at hy
  exact hy.1.1.1.1

theorem not_isDigit_of_isBreak {y : Text} (hy : isBreak y = true) :
    ∀ c ∈ y.head?, c.isDigit = false := by
  intro c hc
  have h := not_isWordPart_of_isBreak hy c hc
  simp only [isWordPart, Char.isAlphanum, Bool.or_eq_false_iff] at h
  exact h.1.2

theorem not_isWide_of_isBreak {y : Text} (hy : isBreak y = true) :
    ∀ c ∈ y.head?, isWide c = false := by
  intro c hc
  obtain ⟨z, rfl⟩ := List.head?_eq_some_iff.1 hc
  simp only [isBreak, Bool.and_eq_true, Bool.not_eq_true'] at hy
  exact hy.1.1.2

/-- How many characters of `s` make up a point and the digits of a fraction. -/
def fractionLength : Text → Nat
  | '.' :: s => match runLength Char.isDigit s with
    | 0 => 0
    | n => n + 1
  | _ => 0

/-- The length of a run and its removal are two views of one scan. -/
theorem drop_runLength (p : Char → Bool) (s : Text) : s.drop (runLength p s) = s.dropWhile p :=
  calc s.drop (runLength p s)
      = (s.takeWhile p ++ s.dropWhile p).drop (s.takeWhile p).length := by
        rw [List.takeWhile_append_dropWhile, runLength]
    _ = s.dropWhile p := List.drop_left

/-- A number is its digits and a fraction, if there is one. -/
theorem numberLength_eq (s : Text) :
    numberLength s = runLength Char.isDigit s + fractionLength (s.dropWhile Char.isDigit) := by
  simp only [numberLength, drop_runLength]
  generalize s.dropWhile Char.isDigit = rest
  cases rest with
  | nil => rfl
  | cons c fraction =>
    by_cases hpoint : c = '.'
    · subst hpoint
      simp only [fractionLength]
      cases runLength Char.isDigit fraction with
      | zero => rfl
      | succ n => simp only [Nat.add_assoc, Nat.add_comm 1]
    · simp [fractionLength, hpoint]

theorem fractionLength_le (s : Text) : fractionLength s ≤ s.length := by
  unfold fractionLength
  split
  · next s =>
    have := runLength_le Char.isDigit s
    split
    · simp
    · simp only [List.length_cons]
      omega
  · simp

/-- A fraction does not reach into a text that breaks it off. -/
theorem fractionLength_append (s : Text) {y : Text} (hy : isBreak y = true) :
    fractionLength (s ++ y) = fractionLength s := by
  cases s with
  | nil =>
    cases y with
    | nil => rfl
    | cons c y =>
      have hpoint : c ≠ '.' := by
        rintro rfl
        simp [isBreak] at hy
      simp [fractionLength, hpoint]
  | cons c s =>
    by_cases hpoint : c = '.'
    · subst hpoint
      simp only [fractionLength, List.cons_append, runLength_append s (not_isDigit_of_isBreak hy)]
    · simp [fractionLength, hpoint]

/-- A fraction that ends inside `s` does not depend on what follows. -/
theorem fractionLength_of_append {s y : Text} (h : fractionLength (s ++ y) ≤ s.length) :
    fractionLength s = fractionLength (s ++ y) := by
  cases s with
  | nil =>
    simp only [List.nil_append, List.length_nil, Nat.le_zero] at h ⊢
    rw [h]
    rfl
  | cons c s =>
    by_cases hpoint : c = '.'
    · subst hpoint
      have hrun : runLength Char.isDigit (s ++ y) ≤ s.length := by
        simp only [fractionLength, List.cons_append, List.length_cons] at h
        split at h <;> omega
      simp only [fractionLength, List.cons_append, runLength_of_append hrun]
    · simp [fractionLength, hpoint]

theorem numberLength_le (s : Text) : numberLength s ≤ s.length := by
  have hfraction := fractionLength_le (s.dropWhile Char.isDigit)
  have hsplit := congrArg List.length (List.takeWhile_append_dropWhile (p := Char.isDigit) (l := s))
  rw [List.length_append] at hsplit
  rw [numberLength_eq, runLength]
  omega

/-- A number does not reach into a text that breaks it off. -/
theorem numberLength_append (s : Text) {y : Text} (hy : isBreak y = true) :
    numberLength (s ++ y) = numberLength s := by
  rw [numberLength_eq, numberLength_eq, runLength_append s (not_isDigit_of_isBreak hy)]
  congr 1
  rw [List.dropWhile_append]
  split
  · next hnil =>
    rw [List.isEmpty_iff.1 hnil]
    have hself : y.dropWhile Char.isDigit = y := by
      cases y with
      | nil => rfl
      | cons c y =>
        exact List.dropWhile_cons_of_neg (by simp [not_isDigit_of_isBreak hy c rfl])
    rw [hself]
    exact fractionLength_append [] hy
  · exact fractionLength_append _ hy

/-- A number that ends inside `s` does not depend on what follows. -/
theorem numberLength_of_append {s y : Text} (h : numberLength (s ++ y) ≤ s.length) :
    numberLength s = numberLength (s ++ y) := by
  rw [numberLength_eq] at h
  have hrun : runLength Char.isDigit s = runLength Char.isDigit (s ++ y) :=
    runLength_of_append (by omega)
  have hdrop : (s ++ y).dropWhile Char.isDigit = s.dropWhile Char.isDigit ++ y := by
    rw [← drop_runLength, ← hrun, ← drop_runLength, List.drop_append_of_le_length]
    exact runLength_le _ _
  have hsplit := congrArg List.length (List.takeWhile_append_dropWhile (p := Char.isDigit) (l := s))
  rw [List.length_append] at hsplit
  rw [numberLength_eq, numberLength_eq, hrun, hdrop]
  congr 1
  apply fractionLength_of_append
  rw [hdrop, ← hrun, runLength] at h
  omega

theorem quotedLength_le (quote : Char) (s : Text) : (quotedLength quote s).1 ≤ s.length := by
  fun_induction quotedLength quote s with
  | case1 => simp
  | case2 => simp
  | case3 e s _ n closed hrec ih =>
    simp only [hrec, List.length_cons] at ih ⊢
    omega
  | case4 => simp
  | case5 => simp
  | case6 c s _ _ _ n closed hrec ih =>
    simp only [hrec, List.length_cons] at ih ⊢
    omega

theorem quotedLength_cons {quote c : Char} (hc : c ≠ '\\') (s : Text) :
    quotedLength quote (c :: s) =
      if c == quote then (1, true)
      else ((quotedLength quote s).1 + 1, (quotedLength quote s).2) := by
  rw [quotedLength.eq_def]
  split
  · next h => cases h
  · next h => simp only [List.cons.injEq] at h; exact absurd h.1 hc
  · next h =>
    simp only [List.cons.injEq] at h
    obtain ⟨rfl, rfl⟩ := h
    simp [hc]

section Quoted

variable {quote c e : Char} {s : Text} {n : Nat} {closed : Bool}

/-- A backslash that has no character to take is not passed over. -/
theorem quotedLength_lone (hquote : quote ≠ '\\') (h : ∀ c ∈ s.head?, c = '\n') :
    quotedLength quote ('\\' :: s) = (0, false) := by
  cases s with
  | nil => simp [quotedLength, hquote.symm]
  | cons c s =>
    obtain rfl : c = '\n' := h c rfl
    simp [quotedLength]

/-- The quote that opened a text closes it. -/
theorem quotedLength_close (hquote : quote ≠ '\\') (s : Text) :
    quotedLength quote (quote :: s) = (1, true) := by
  rw [quotedLength_cons hquote, if_pos (beq_self_eq_true quote)]

/-- What stands behind a backslash is passed over, unless it is a line feed. -/
theorem quotedLength_escape (he : e ≠ '\n') (s : Text) : quotedLength quote ('\\' :: e :: s) =
    ((quotedLength quote s).1 + 2, (quotedLength quote s).2) := by
  simp [quotedLength, he]

/-- Any other character belongs to the quoted text. -/
theorem quotedLength_other (hc : c ≠ quote) (hslash : c ≠ '\\') (s : Text) :
    quotedLength quote (c :: s) = ((quotedLength quote s).1 + 1, (quotedLength quote s).2) := by
  rw [quotedLength_cons hslash, if_neg (by simpa using hc)]

theorem quotedLength_escape_eq_iff (he : e ≠ '\n') :
    quotedLength quote ('\\' :: e :: s) = (n + 2, closed) ↔ quotedLength quote s = (n, closed) := by
  rw [quotedLength_escape he, Prod.ext_iff, Prod.ext_iff, Nat.add_right_cancel_iff]

theorem quotedLength_other_eq_iff (hc : c ≠ quote) (hslash : c ≠ '\\') :
    quotedLength quote (c :: s) = (n + 1, closed) ↔ quotedLength quote s = (n, closed) := by
  rw [quotedLength_other hc hslash, Prod.ext_iff, Prod.ext_iff, Nat.add_right_cancel_iff]

/-- What stands behind an opening quote: nothing more, a backslash without a character to take, the
closing quote, a character with the backslash that takes it, or any other character. -/
@[elab_as_elim]
theorem quoted_induction (quote : Char) {motive : Text → Prop} (nil : motive [])
    (lone : ∀ s : Text, (∀ c ∈ s.head?, c = '\n') → motive ('\\' :: s))
    (close : ∀ s, motive (quote :: s))
    (escape : ∀ e s, e ≠ '\n' → motive s → motive ('\\' :: e :: s))
    (other : ∀ c s, c ≠ quote → c ≠ '\\' → motive s → motive (c :: s)) (s : Text) : motive s := by
  induction s using quotedLength.induct quote with
  | case1 => exact nil
  | case2 e s he =>
    refine lone (e :: s) ?_
    simpa using he
  | case3 e s he n closed hrec ih => exact escape e s (by simpa using he) ih
  | case4 c s hne hc =>
    obtain rfl := beq_iff_eq.1 hc
    exact close s
  | case5 c s hne hc hslash =>
    obtain rfl := beq_iff_eq.1 hslash
    cases s with
    | nil => exact lone [] (by simp)
    | cons e s => exact absurd rfl (hne e s rfl)
  | case6 c s hne hc hslash n closed hrec ih =>
    exact other c s (by simpa using hc) (by simpa using hslash) ih

/-- A closed quoted text ends at its closing quote, whatever follows. -/
theorem quotedLength_append (hquote : quote ≠ '\\') (h : (quotedLength quote s).2 = true)
    (y : Text) : quotedLength quote (s ++ y) = quotedLength quote s := by
  induction s using quoted_induction quote with
  | nil => cases h
  | lone s hs =>
    rw [quotedLength_lone hquote hs] at h
    cases h
  | close s => rw [List.cons_append, quotedLength_close hquote, quotedLength_close hquote]
  | escape e s he ih =>
    rw [quotedLength_escape he] at h
    rw [List.cons_append, List.cons_append, quotedLength_escape he, quotedLength_escape he, ih h]
  | other c s hc hslash ih =>
    rw [quotedLength_other hc hslash] at h
    rw [List.cons_append, quotedLength_other hc hslash, quotedLength_other hc hslash, ih h]

/-- A quoted text that is closed has at least its closing quote. -/
theorem quotedLength_pos (h : (quotedLength quote s).2 = true) : 0 < (quotedLength quote s).1 := by
  revert h
  rw [quotedLength.eq_def]
  split
  · simp
  · split <;> simp
  · split
    · simp
    · split <;> simp

/-- A quoted text that ends inside `s`, closed or not, does so without what follows. -/
theorem quotedLength_of_append (hquote : quote ≠ '\\') {y : Text}
    (hle : (quotedLength quote (s ++ y)).1 ≤ s.length) :
    quotedLength quote s = quotedLength quote (s ++ y) := by
  induction s using quoted_induction quote with
  | nil =>
    have hzero : (quotedLength quote y).1 = 0 := Nat.le_zero.1 hle
    rw [List.nil_append, quotedLength, ← hzero]
    refine Prod.ext rfl ?_
    by_contra hclosed
    have hpos : 0 < (quotedLength quote y).1 := quotedLength_pos (by simpa using hclosed)
    omega
  | lone s hs =>
    have hlone : ∀ c ∈ (s ++ y).head?, c = '\n' := by
      cases s with
      | cons e s => exact hs
      | nil =>
        -- the backslash would take a character behind `s`, unless that is a line feed
        rintro e he
        obtain ⟨y, rfl⟩ := List.head?_eq_some_iff.1 he
        by_contra hfeed
        rw [List.cons_append, List.nil_append, quotedLength_escape hfeed] at hle
        simp at hle
    rw [List.cons_append, quotedLength_lone hquote hs, quotedLength_lone hquote hlone]
  | close s => rw [List.cons_append, quotedLength_close hquote, quotedLength_close hquote]
  | escape e s he ih =>
    rw [List.cons_append, List.cons_append, quotedLength_escape he] at hle ⊢
    rw [quotedLength_escape he, ih (by simpa using hle)]
  | other c s hc hslash ih =>
    rw [List.cons_append, quotedLength_other hc hslash] at hle ⊢
    rw [quotedLength_other hc hslash, ih (by simpa using hle)]

end Quoted

/-- The way a token is read is settled by its first character. -/
inductive Start (c : Char) : Prop
  | word (h : isWordStart c = true)
  | digit (hword : isWordStart c = false) (h : c.isDigit = true)
  | quote (hword : isWordStart c = false) (hdigit : c.isDigit = false)
      (h : (c == '\'' || c == '"') = true)
  | wide (hword : isWordStart c = false) (hdigit : c.isDigit = false)
      (hquote : (c == '\'' || c == '"') = false) (h : isWide c = true)
  | symbol (hword : isWordStart c = false) (hdigit : c.isDigit = false)
      (hquote : (c == '\'' || c == '"') = false) (hwide : isWide c = false)

/-- Every character starts a token of some kind. -/
theorem start (c : Char) : Start c := by
  by_cases hword : isWordStart c = true
  · exact .word hword
  simp only [Bool.not_eq_true] at hword
  by_cases hdigit : c.isDigit = true
  · exact .digit hword hdigit
  simp only [Bool.not_eq_true] at hdigit
  by_cases hquote : (c == '\'' || c == '"') = true
  · exact .quote hword hdigit hquote
  simp only [Bool.not_eq_true] at hquote
  by_cases hwide : isWide c = true
  · exact .wide hword hdigit hquote hwide
  · exact .symbol hword hdigit hquote (by simpa using hwide)

section Equations

variable {c : Char} (s : Text)

/-- Where a word starts, a word is read. -/
theorem lexeme_word (h : isWordStart c = true) : lexeme c s =
    (Kind.ofWord (c :: s.take (runLength isWordPart s)), runLength isWordPart s) := by
  simp [lexeme, h]

/-- Where a digit stands, a number is read. -/
theorem lexeme_digit (hword : isWordStart c = false) (h : c.isDigit = true) :
    lexeme c s = (.number, numberLength s) := by
  simp [lexeme, hword, h]

/-- Where a quote stands, the text up to its partner is read. -/
theorem lexeme_quote (hword : isWordStart c = false) (hdigit : c.isDigit = false)
    (h : (c == '\'' || c == '"') = true) : lexeme c s =
      (if (quotedLength c s).2 then .quoted else .unclosed, (quotedLength c s).1) := by
  simp only [lexeme, hword, hdigit, h]
  rfl

/-- Where a character beyond ASCII stands, a run of such characters is read. -/
theorem lexeme_wide (hword : isWordStart c = false) (hdigit : c.isDigit = false)
    (hquote : (c == '\'' || c == '"') = false) (h : isWide c = true) :
    lexeme c s = (.unknown, runLength isWide s) := by
  simp only [lexeme, hword, hdigit, hquote, h]
  rfl

/-- Anywhere else one of the symbols is read, or a single unknown character. -/
theorem lexeme_symbol (hword : isWordStart c = false) (hdigit : c.isDigit = false)
    (hquote : (c == '\'' || c == '"') = false) (hwide : isWide c = false) : lexeme c s =
      match s.head?.bind (pairKind? c) with
      | some kind => (kind, 1)
      | none => (symbolKind c, 0) := by
  simp only [lexeme, hword, hdigit, hquote, hwide]
  rfl

end Equations

/-- The token at the front ends inside the text. -/
theorem lexeme_le (c : Char) (s : Text) : (lexeme c s).2 ≤ s.length := by
  cases start c with
  | word h => rw [lexeme_word s h]; exact runLength_le _ _
  | digit hword h => rw [lexeme_digit s hword h]; exact numberLength_le s
  | quote hword hdigit h => rw [lexeme_quote s hword hdigit h]; exact quotedLength_le c s
  | wide hword hdigit hquote h => rw [lexeme_wide s hword hdigit hquote h]; exact runLength_le _ _
  | symbol hword hdigit hquote hwide =>
    rw [lexeme_symbol s hword hdigit hquote hwide]
    cases s with
    | nil => simp
    | cons d s => split <;> simp

theorem ne_backslash_of_quote {c : Char} (h : (c == '\'' || c == '"') = true) : c ≠ '\\' := by
  rintro rfl
  simp at h

/-- Operators of two characters end in one of two. -/
theorem pairKind?_of_ne {c d : Char} (he : d ≠ '=') (hg : d ≠ '>') : pairKind? c d = none := by
  unfold pairKind?
  split <;> simp_all

/-- A token is the same when text follows that no token goes on with. -/
theorem lexeme_append {c : Char} {s y : Text} (h : (lexeme c s).1 ≠ .unclosed)
    (hy : isBreak y = true) : lexeme c (s ++ y) = lexeme c s := by
  cases start c with
  | word hword =>
    rw [lexeme_word _ hword, lexeme_word _ hword, runLength_append s (not_isWordPart_of_isBreak hy),
      List.take_append_of_le_length (runLength_le _ _)]
  | digit hword hdigit =>
    rw [lexeme_digit _ hword hdigit, lexeme_digit _ hword hdigit, numberLength_append s hy]
  | quote hword hdigit hquote =>
    rw [lexeme_quote _ hword hdigit hquote] at h
    have hclosed : (quotedLength c s).2 = true := by
      by_contra hopen
      simp [hopen] at h
    rw [lexeme_quote _ hword hdigit hquote, lexeme_quote _ hword hdigit hquote,
      quotedLength_append (ne_backslash_of_quote hquote) hclosed]
  | wide hword hdigit hquote hwide =>
    rw [lexeme_wide _ hword hdigit hquote hwide, lexeme_wide _ hword hdigit hquote hwide,
      runLength_append s (not_isWide_of_isBreak hy)]
  | symbol hword hdigit hquote hwide =>
    rw [lexeme_symbol _ hword hdigit hquote hwide, lexeme_symbol _ hword hdigit hquote hwide]
    cases s with
    | cons d s => rfl
    | nil =>
      cases y with
      | nil => rfl
      | cons d y =>
        simp only [isBreak, Bool.and_eq_true, bne_iff_ne] at hy
        simp [pairKind?_of_ne hy.1.2 hy.2]

/-- A token that ends inside `s` is the same without the text behind `s`. -/
theorem lexeme_of_append {c : Char} {s y : Text} (hle : (lexeme c (s ++ y)).2 ≤ s.length) :
    lexeme c s = lexeme c (s ++ y) := by
  cases start c with
  | word hword =>
    rw [lexeme_word _ hword] at hle
    rw [lexeme_word _ hword, lexeme_word _ hword, runLength_of_append hle,
      List.take_append_of_le_length hle]
  | digit hword hdigit =>
    rw [lexeme_digit _ hword hdigit] at hle
    rw [lexeme_digit _ hword hdigit, lexeme_digit _ hword hdigit, numberLength_of_append hle]
  | quote hword hdigit hquote =>
    rw [lexeme_quote _ hword hdigit hquote] at hle
    rw [lexeme_quote _ hword hdigit hquote, lexeme_quote _ hword hdigit hquote,
      quotedLength_of_append (ne_backslash_of_quote hquote) hle]
  | wide hword hdigit hquote hwide =>
    rw [lexeme_wide _ hword hdigit hquote hwide] at hle
    rw [lexeme_wide _ hword hdigit hquote hwide, lexeme_wide _ hword hdigit hquote hwide,
      runLength_of_append hle]
  | symbol hword hdigit hquote hwide =>
    rw [lexeme_symbol _ hword hdigit hquote hwide] at hle
    rw [lexeme_symbol _ hword hdigit hquote hwide, lexeme_symbol _ hword hdigit hquote hwide]
    cases s with
    | cons d s => rfl
    | nil =>
      split at hle
      · simp at hle
      · rfl

end Soql.Token
