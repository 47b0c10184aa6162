import Soql.Proofs.Builder.Injection
import Soql.Validation.Value

/-!
# Relative dates

A relative date is a word of one list in any case, or a word of another list with a count behind
its colon; blanks may stand around it, and before the count. `Date.Spelled` says so without the
recogniser, which lower-cases by the rules of Unicode and trims twice. The sign of the kelvin is a
letter that these rules lower-case to an ordinary k, and so the recogniser also accepts a word in
which it stands for a k. That is a slip: the documented literals are ASCII words. Apart from such
words (`Date.KelvinForK`) both are the same, and what is spelled so is read as a word, or as a
word, a colon and a number. It is written into queries as it stands, read back from them, and
fits every date field.
-/

namespace Soql

open Kind Token Text

namespace Date

/-- The forms of relative dates, where `Gap` says what may stand before a count. -/
inductive Spelled (Gap : Text → Prop) : Text → Prop
  | plain {x word : Text} (mem : word ∈ plainWords) (spells : eqIgnoreCase x word = true) :
    Spelled Gap x
  | counted {x word gap count : Text} (mem : word ∈ countedWords)
    (spells : eqIgnoreCase x word = true) (isGap : Gap gap) (digits : isDigits count = true) :
    Spelled Gap (x ++ (gap ++ count))

/-- Blanks of any kind, or none. -/
def Blanks (gap : Text) : Prop :=
  ∀ c ∈ gap, isBlank c = true

theorem lt_and_foldCase_of_mem : ∀ word ∈ plainWords ++ countedWords,
    (∀ c ∈ word, c.toNat < 128) ∧ foldCase word = word := by
  decide +kernel

/-- Letter for letter, a word is spelled by what lower-cases to it, except for Kelvin signs. -/
theorem spells_iff {x word : Text} (hword : word ∈ plainWords ++ countedWords) :
    eqIgnoreCase x word = true ↔ (∀ c ∈ x, c.toNat < 128) ∧ x.map lowerOne = word := by
  obtain ⟨hlt, hfold⟩ := lt_and_foldCase_of_mem word hword
  have hlower (hx : ∀ c ∈ x, c.toNat < 128) : x.map lowerOne = foldCase x :=
    List.map_congr_left fun c hc => lowerOne_of_lt (hx c hc)
  rw [eqIgnoreCase_iff, hfold]
  constructor
  · intro h
    have hx : ∀ c ∈ x, c.toNat < 128 := by
      intro c hc
      have hmem : c.toLower ∈ word := h ▸ List.mem_map_of_mem hc
      by_contra hwide
      rw [toLower_of_not_upper (by omega)] at hmem
      exact hwide (hlt c hmem)
    exact ⟨hx, (hlower hx).trans h⟩
  · rintro ⟨hx, h⟩
    rw [← hlower hx, h]

theorem isDigits_map_lowerOne (s : Text) : isDigits (s.map lowerOne) = isDigits s := by
  simp [isDigits, List.all_map, Function.comp_def, isDigit_lowerOne]

/-- Letters are no blanks, so it does not matter whether trimming comes first. -/
theorem trim_map_lowerOne (s : Text) : trim (s.map lowerOne) = (trim s).map lowerOne := by
  simp [trim, trimStart, trimEnd, List.dropWhile_map, Function.comp_def, isBlank_lowerOne,
    ← List.map_reverse]

theorem map_lowerOne_of_digits {s : Text} (h : isDigits s = true) : s.map lowerOne = s := by
  rw [isDigits_iff] at h
  refine (List.map_congr_left fun c hc => ?_).trans (List.map_id s)
  have hdigit := isDigit_iff.1 (h.2 c hc)
  rw [lowerOne_of_lt (by omega), toLower_of_not_upper (by omega)]
  rfl

theorem tight_of_digits {s : Text} (h : isDigits s = true) : s.Tight := by
  rw [isDigits_iff] at h
  exact ⟨fun c hc => not_isBlank_of_isDigit (h.2 c (List.mem_of_mem_head? hc)),
    fun c hc => not_isBlank_of_isDigit (h.2 c (List.mem_of_mem_getLast? hc))⟩

/-- Behind a word, only the blanks before a count are trimmed off in a tight text. -/
theorem exists_gap_of_tight {x u : Text} (h : (x ++ u).Tight) :
    ∃ gap, u = gap ++ u.trim ∧ Blanks gap := by
  obtain ⟨gap, behind, hu, hgap, hbehind⟩ := exists_eq_append_trim u
  cases behind with
  | nil => exact ⟨gap, by rw [List.append_nil] at hu; exact hu, hgap⟩
  | cons c behind =>
    have hlast : (x ++ u).getLast? = (c :: behind).getLast? := by
      rw [hu, List.getLast?_append_of_ne_nil _ (by simp),
        List.getLast?_append_of_ne_nil _ (by simp)]
    obtain ⟨d, hd⟩ := Option.isSome_iff_exists.1 (by simp : (c :: behind).getLast?.isSome = true)
    have hblank := hbehind d (List.mem_of_getLast? hd)
    rw [h.last d (hlast ▸ hd)] at hblank
    cases hblank

/-- A text with an ordinary k for every Kelvin sign. -/
def kelvinToK (s : Text) : Text :=
  s.map fun c => if c = kelvin then 'k' else c

/-- Kelvin signs stand for a k in what would be a relative date without them. -/
def KelvinForK (s : Text) : Prop :=
  kelvin ∈ s ∧ Spelled Blanks (kelvinToK s.trim)

theorem kelvinToK_of_not_mem {s : Text} (h : kelvin ∉ s) : kelvinToK s = s := by
  refine (List.map_congr_left fun c hc => if_neg fun heq => ?_).trans (List.map_id s)
  exact h (heq ▸ hc)

/-- No Kelvin sign is left. -/
theorem kelvin_not_mem_kelvinToK (s : Text) : kelvin ∉ kelvinToK s := by
  intro h
  obtain ⟨c, -, hc⟩ := List.mem_map.1 h
  split at hc
  · exact absurd hc (by decide)
  · contradiction

/-- The two letters are alike in lower case, where the recogniser looks at them. -/
theorem map_lowerOne_kelvinToK (s : Text) : (kelvinToK s).map lowerOne = s.map lowerOne := by
  have hkelvin : lowerOne 'k' = lowerOne kelvin := by decide +kernel
  rw [kelvinToK, List.map_map]
  refine List.map_congr_left fun c _ => ?_
  rw [Function.comp_apply]
  split
  · next hc => rw [hc, hkelvin]
  · rfl

theorem trim_kelvinToK (s : Text) : trim (kelvinToK s) = kelvinToK (trim s) := by
  have hblank (c : Char) : isBlank (if c = kelvin then 'k' else c) = isBlank c := by
    split
    · next hc => rw [hc]; decide
    · rfl
  simp [kelvinToK, trim, trimStart, trimEnd, List.dropWhile_map, Function.comp_def, hblank,
    ← List.map_reverse]

/-- What is recognised is spelled as a relative date, once its Kelvin signs are ordinary letters. -/
theorem spelled_of_isLiteral {s : Text} (h : isLiteral s = true) :
    Spelled Blanks (kelvinToK s.trim) := by
  have hlower : lowercase s.trim = (kelvinToK s.trim).map lowerOne :=
    (lowercase_trim_eq_map h).trans (map_lowerOne_kelvinToK _).symm
  have htight : (kelvinToK s.trim).Tight := trim_kelvinToK s ▸ tight_trim _
  have hkelvin := kelvin_not_mem_kelvinToK s.trim
  rw [isLiteral, hlower] at h
  generalize kelvinToK s.trim = t at h htight hkelvin ⊢
  have hlt {x word : Text} (hx : ∀ c ∈ x, c ∈ t)
      (hword : word ∈ plainWords ++ countedWords) (hmap : x.map lowerOne = word) :
      ∀ c ∈ x, c.toNat < 128 := by
    intro c hc
    by_contra hwide
    have hlow := (lt_and_foldCase_of_mem word hword).1 _ (hmap ▸ List.mem_map_of_mem hc)
    exact hkelvin (eq_kelvin_of_lowerOne (by omega) hlow ▸ hx c hc)
  simp only [Bool.or_eq_true, List.contains_iff_mem, List.any_eq_true] at h
  rcases h with h | ⟨word, hword, h⟩
  · have hmem := List.mem_append_left countedWords h
    exact .plain h ((spells_iff hmem).2 ⟨hlt (fun _ hc => hc) hmem rfl, rfl⟩)
  · have hmem := List.mem_append_right plainWords hword
    split at h
    · next count hcount =>
      have hprefix := (List.isPrefixOf?_eq_some_iff_append_eq.1 hcount).symm
      obtain ⟨x, u, rfl, hx, rfl⟩ := List.map_eq_append_iff.1 hprefix
      rw [trim_map_lowerOne, isDigits_map_lowerOne] at h
      obtain ⟨gap, hu, hgap⟩ := exists_gap_of_tight htight
      rw [hu]
      exact .counted hword ((spells_iff hmem).2
        ⟨hlt (fun _ hc => List.mem_append_left _ hc) hmem hx, hx⟩) hgap h
    · cases h

/-- The characters of a relative date are ASCII characters and blanks. -/
theorem Spelled.lt_or_isBlank {s : Text} (h : Spelled Blanks s) :
    ∀ c ∈ s, c.toNat < 128 ∨ isBlank c = true := by
  cases h with
  | plain mem spells =>
    exact fun c hc => .inl (((spells_iff (List.mem_append_left _ mem)).1 spells).1 c hc)
  | counted mem spells isGap digits =>
    intro c hc
    rw [List.mem_append, List.mem_append] at hc
    rcases hc with hc | hc | hc
    · exact .inl (((spells_iff (List.mem_append_right _ mem)).1 spells).1 c hc)
    · exact .inr (isGap c hc)
    · rw [isDigits_iff] at digits
      have hdigit := isDigit_iff.1 (digits.2 c hc)
      exact .inl (by omega)

/-- The documented literals have no Kelvin sign. -/
theorem Spelled.kelvin_not_mem {s : Text} (h : Spelled Blanks s) : kelvin ∉ s := by
  intro hk
  rcases h.lt_or_isBlank kelvin hk with hlt | hblank
  · exact absurd hlt (by decide)
  · exact absurd hblank (by decide)

/-- What is spelled as a relative date once its Kelvin signs are ordinary letters is recognised. -/
theorem isLiteral_of_spelled_kelvinToK {s : Text} (h : Spelled Blanks (kelvinToK s.trim)) :
    isLiteral s = true := by
  have hnot (d : Char) (hd : 128 ≤ d.toNat) (hblank : isBlank d = false) (hk : d ≠ kelvin) :
      d ∉ s.trim := by
    intro hc
    rcases h.lt_or_isBlank d (List.mem_map.2 ⟨d, hc, if_neg hk⟩) with hlt | hb
    · omega
    · rw [hblank] at hb
      cases hb
  have hlower : lowercase s.trim = (kelvinToK s.trim).map lowerOne :=
    (lowercase_eq_map_of_not_mem ⟨hnot 'İ' (by decide) (by decide) (by decide),
      hnot 'Σ' (by decide) (by decide) (by decide)⟩).trans (map_lowerOne_kelvinToK _).symm
  rw [isLiteral, hlower, Bool.or_eq_true, List.contains_iff_mem, List.any_eq_true]
  generalize kelvinToK s.trim = x at h
  cases h with
  | plain mem spells =>
    rw [((spells_iff (List.mem_append_left _ mem)).1 spells).2]
    exact .inl mem
  | @counted x word gap count mem spells isGap digits =>
    have hgap : gap.map lowerOne = gap :=
      (List.map_congr_left fun c hc => lowerOne_of_isBlank (isGap c hc)).trans (List.map_id gap)
    have hword : (x ++ (gap ++ count)).map lowerOne = word ++ (gap ++ count) := by
      rw [List.map_append, List.map_append, hgap, map_lowerOne_of_digits digits,
        ((spells_iff (List.mem_append_right _ mem)).1 spells).2]
    have hprefix : word.isPrefixOf? (word ++ (gap ++ count)) = some (gap ++ count) :=
      List.isPrefixOf?_eq_some_iff_append_eq.2 rfl
    refine .inr ⟨word, mem, ?_⟩
    rw [hword, hprefix]
    change isDigits (gap ++ count).trim = true
    rw [trim_append_blank_left isGap, (tight_of_digits digits).trim_eq, digits]

/-- What is spelled as a relative date is recognised. -/
theorem isLiteral_of_spelled {s : Text} (h : Spelled Blanks s.trim) : isLiteral s = true :=
  isLiteral_of_spelled_kelvinToK (by rwa [kelvinToK_of_not_mem h.kelvin_not_mem])

/-- The texts that are recognised, apart from those in which Kelvin signs stand for a k, are those
that are spelled as a relative date. -/
theorem isLiteral_iff_spelled {s : Text} :
    isLiteral s = true ∧ ¬KelvinForK s ↔ Spelled Blanks s.trim := by
  have hmem : kelvin ∈ s.trim ↔ kelvin ∈ s := mem_trim_iff (by decide)
  constructor
  · rintro ⟨hs, hk⟩
    have hspelled := spelled_of_isLiteral hs
    have hnot : kelvin ∉ s.trim := fun h => hk ⟨hmem.1 h, hspelled⟩
    rwa [kelvinToK_of_not_mem hnot] at hspelled
  · exact fun h => ⟨isLiteral_of_spelled h, fun hk => h.kelvin_not_mem (hmem.2 hk.1)⟩

/-- Tokens that only lose blank ones at their start. -/
theorem exists_of_trimLeft {ts us : List Token} {u : Token} (h : trimLeft ts = u :: us) :
    ∃ blanks t, ts = blanks ++ t :: us ∧ (∀ b ∈ blanks, ∀ c ∈ b.text, isBlank c = true) ∧
      u = { t with gap := [], text := trimStart t.text } := by
  induction ts with
  | nil => cases h
  | cons t ts ih =>
    rw [trimLeft] at h
    split at h
    · next hblank =>
      obtain ⟨blanks, v, rfl, hblanks, hv⟩ := ih h
      refine ⟨t :: blanks, v, rfl, ?_, hv⟩
      rw [List.isEmpty_iff, trimStart_eq_nil_iff] at hblank
      exact List.forall_mem_cons.2 ⟨hblank, hblanks⟩
    · obtain ⟨rfl, rfl⟩ := List.cons.inj h
      exact ⟨[], t, rfl, by simp, rfl⟩

/-- An unknown token holds none of the blanks that separate tokens. -/
theorem not_isGap_of_unknown {t : Token} (h : t.Reads []) (hk : t.kind = .unknown) :
    ∀ c ∈ t.text, isGap c = false := by
  intro c hc
  cases h.shape (by simp [hk]) with
  | word d s text start part kind =>
    have := isWord_ofWord t.text
    rw [← kind, hk] at this
    cases this
  | number kind => rw [hk] at kind; cases kind
  | quoted kind => rw [hk] at kind; cases kind
  | symbol text => rw [hk] at text; cases text
  | wide kind part =>
    have hwide : 128 ≤ c.toNat := by simpa [isWide] using part c hc
    by_contra hgap
    simp only [Bool.not_eq_false, isGap, Bool.or_eq_true, beq_iff_eq] at hgap
    rcases hgap with (((rfl | rfl) | rfl) | rfl) | rfl <;> exact absurd hwide (by decide)
  | single kind d text =>
    obtain ⟨e, s, htext, hgap, -⟩ := h.text
    rw [text] at hc htext
    obtain rfl : c = d := by simpa using hc
    obtain ⟨rfl, -⟩ := List.cons.inj htext
    exact hgap

/-- Digits behind blanks are a number; the blanks that do not separate tokens are unknown ones. -/
theorem exists_tokenize_count {gap count : Text} (hgap : Blanks gap)
    (hcount : isDigits count = true) : ∃ blanks g,
      tokenize (gap ++ count) = blanks ++ [⟨g, .number, count⟩] ∧
        ∀ t ∈ blanks, t.kind = .unknown ∧ ∀ c ∈ t.text, isBlank c = true ∧ isGap c = false := by
  have htrim : trimLeft (tokenize (gap ++ count)) = [⟨[], .number, count⟩] := by
    rw [← tokenize_trimStart, trimStart_append_of_blank hgap,
      trimStart_eq_self (tight_of_digits hcount).first, tokenize_digits hcount]
  obtain ⟨blanks, t, htok, hblanks, ht⟩ := exists_of_trimLeft htrim
  obtain ⟨hkind, htext⟩ : Kind.number = t.kind ∧ count = trimStart t.text := by
    simpa using ht
  have hnumber : trimStart t.text = t.text := by
    have hshape := shape_of_mem (s := gap ++ count) (t := t) (by simp [htok]) (by simp [← hkind])
    exact trimStart_eq_self (hshape.tight (by simp [← hkind])).first
  refine ⟨blanks, t.gap, ?_, fun b hb => ?_⟩
  · rw [htok, hkind, htext, hnumber]
  · have hreads := reads_nil_of_mem (s := gap ++ count) (t := b) (by simp [htok, hb])
    have hunknown := hreads.eq_unknown (hblanks b hb)
    exact ⟨hunknown, fun c hc => ⟨hblanks b hb c hc, not_isGap_of_unknown hreads hunknown c hc⟩⟩

/-- A word, or a word, a colon and a number, with nothing between these two but blanks that do not
separate tokens. -/
inductive WordTokens : List Token → Prop
  | plain (word : Text) : WordTokens [⟨[], .identifier, word⟩]
  | counted (word gap count : Text) (blanks : List Token) (digits : isDigits count = true)
    (unknown : ∀ t ∈ blanks, t.kind = .unknown ∧ ∀ c ∈ t.text, isBlank c = true ∧ isGap c = false) :
    WordTokens (⟨[], .identifier, word⟩ :: ⟨[], .colon, [':']⟩ ::
      (blanks ++ [⟨gap, .number, count⟩]))

/-- What is spelled as a relative date is read as a word, with its count or without. -/
theorem Spelled.wordTokens {s : Text} (h : Spelled Blanks s) : WordTokens (tokenize s) := by
  have hword {x : Text} (hlt : ∀ c ∈ x, c.toNat < 128) (hstem : x.map lowerOne ∈ stems)
      (rest : Text) (hrest : ∀ c ∈ rest.head?, isWordPart c = false) :
      tokenize (x ++ rest) = ⟨[], .identifier, x⟩ :: tokenize rest := by
    obtain ⟨hpart, hkind, hhead, hne, -⟩ := isStem_of_mem _ hstem
    exact tokenize_of_lowerOne hlt hpart (fun c hc => (hhead c hc).1) (by simpa using hne) hkind
      rest hrest
  cases h with
  | plain mem spells =>
    obtain ⟨hlt, hmap⟩ := (spells_iff (List.mem_append_left _ mem)).1 spells
    have htok := hword hlt (hmap ▸ List.mem_append_left _ mem) [] (by simp)
    rw [List.append_nil, tokenize_nil] at htok
    rw [htok]
    exact .plain s
  | @counted x word gap count mem spells isGap digits =>
    obtain ⟨hlt, hmap⟩ := (spells_iff (List.mem_append_right _ mem)).1 spells
    rw [colon_of_mem word mem] at hmap
    obtain ⟨y, z, rfl, hy, hz⟩ := List.map_eq_append_iff.1 hmap
    obtain ⟨c, rfl, hc⟩ := List.map_eq_singleton_iff.1 hz
    obtain rfl := toLower_eq_colon hc
    have hstem : y.map lowerOne ∈ stems := hy ▸ List.mem_append_right _ (List.mem_map_of_mem mem)
    obtain ⟨blanks, g, htok, hblanks⟩ := exists_tokenize_count isGap digits
    have hlt' : ∀ c ∈ y, c.toNat < 128 := fun c hc => hlt c (by simp [hc])
    rw [List.append_assoc, List.singleton_append, hword hlt' hstem _ (by rintro c ⟨⟩; rfl),
      tokenize_standalone_cons (by simp [standalone]), htok]
    exact .counted y g count blanks digits hblanks

/-- So it is no bind variable, and does not end the condition that it stands in. -/
theorem Spelled.not_endsCondition {s : Text} (h : Spelled Blanks s) :
    ¬Literal.EndsCondition s := by
  rintro ⟨hbind, -⟩
  have htokens := h.wordTokens
  obtain ⟨hcolon, -⟩ := Literal.chars_of_isBindVariable hbind
  cases s with
  | nil => cases hcolon
  | cons c s =>
    obtain rfl : c = ':' := by simpa using hcolon
    rw [tokenize_standalone_cons (by simp [standalone])] at htokens
    cases htokens

end Date

/-- A relative date fits a date field. -/
theorem Validation.checkValue?_of_isLiteral {s : Text} (h : Date.isLiteral s = true)
    {field : Schema.Field} (hdate : field.fieldType.isDate = true) (op : Operator) :
    checkValue? field op s = none := by
  have hquoted : Literal.isQuoted s = false := by
    have hs := Date.not_mem_of_isLiteral h
    rw [Literal.isQuoted, Literal.inside?_of_not_mem ⟨fun hc => hs _ hc (by simp [flatExceptions]),
      fun hc => hs _ hc (by simp [flatExceptions])⟩]
    rfl
  have hcheck (type : Schema.FieldType) : checkDate? field.name type s = none := by
    rw [checkDate?, hquoted, h]
    rfl
  rw [checkValue?]
  cases htype : field.fieldType <;> rw [htype] at hdate <;>
    first
      | exact hcheck _
      | cases hdate

open Builder in
/-- A relative date is a word in any case, with blanks and a count behind its colon or without;
the recogniser accepts these texts and, apart from those in which Kelvin signs stand for a k, no
others. Its tokens are a word, or a word, a colon and a number. It is written as it stands, fits every date
field, and is read back from the query in which it is a value. -/
theorem relativeDates_exact :
    (∀ s : Text, Date.isLiteral s = true ∧ ¬Date.KelvinForK s ↔
      Date.Spelled Date.Blanks s.trim) ∧
    (∀ s : Text, Date.Spelled Date.Blanks s.trim →
      (∀ c ∈ s.trim, c.toNat < 128 ∨ isBlank c = true) ∧ Date.WordTokens (tokenize s.trim) ∧
      Literal.writeValue s = s.trim ∧ ReadsAlone s.trim ∧
      ∀ (field : Schema.Field) (op : Operator), field.fieldType.isDate = true →
        Validation.checkValue? field op s = none) ∧
    ∀ state : State, state.HasPlainNames →
      (∀ f ∈ state.filters, Date.Spelled Date.Blanks f.value.trim) →
      (Query.ofText state.query).conditions =
        state.filters.map fun f => ⟨f.field, f.operator, f.value.trim⟩ := by
  have hwrite {s : Text} (h : Date.isLiteral s = true) : Literal.writeValue s = s.trim := by
    rw [Literal.writeValue_eq, Literal.unquote_of_chars (Date.not_mem_of_isLiteral h),
      Literal.writeText_trim_of_date h]
  refine ⟨fun _ => Date.isLiteral_iff_spelled, fun s h => ?_, fun state hnames h => ?_⟩
  · have hliteral := Date.isLiteral_of_spelled h
    have htrim : Date.isLiteral s.trim = true := (Date.isLiteral_trim s).trans hliteral
    exact ⟨h.lt_or_isBlank, h.wordTokens, hwrite hliteral,
      (Literal.Form.date htrim).readsAlone h.not_endsCondition, fun field op hdate =>
        Validation.checkValue?_of_isLiteral hliteral hdate op⟩
  · have hread := hnames.isReadAs_of_values fun f hf => by
      rw [Literal.unquote_of_chars
        (Date.not_mem_of_isLiteral (Date.isLiteral_of_spelled (h f hf)))]
      exact (h f hf).not_endsCondition
    rw [hread.conditions]
    refine List.map_congr_left fun f hf => ?_
    rw [hwrite (Date.isLiteral_of_spelled (h f hf)), trim_trim]

/-- A relative date with two kinds of blanks before its count. -/
def lastDays : Text :=
  " last_N_DAYS:\u00a0 30\n".toList

/-- A temperature, whose sign stands for no letter of a relative date. -/
def freezingPoint : Text :=
  "273 \u212a".toList

open Builder in
/-- A relative date with its blanks, and a text with a Kelvin sign that is refused as it should be. -/
theorem relativeDates_exact_lastDays : ¬Date.KelvinForK lastDays ∧
    Date.Spelled Date.Blanks lastDays.trim ∧
    Date.WordTokens (tokenize lastDays.trim) ∧ Literal.writeValue lastDays = lastDays.trim ∧
    Validation.checkValue? (.ofType "CreatedDate".toList .dateTime) .equal lastDays = none ∧
    (Query.ofText (State.accountNamed lastDays).query).conditions =
      [⟨"Name".toList, .equal, lastDays.trim⟩] ∧
    kelvin ∈ freezingPoint ∧ ¬Date.KelvinForK freezingPoint ∧
      Date.isLiteral freezingPoint = false := by
  have hnot : ¬Date.KelvinForK lastDays := fun h => absurd h.1 (by decide +kernel)
  have hspelled : Date.Spelled Date.Blanks lastDays.trim :=
    (relativeDates_exact.1 lastDays).1 ⟨by decide +kernel, hnot⟩
  obtain ⟨-, htokens, hwrite, -, hcheck⟩ := relativeDates_exact.2.1 lastDays hspelled
  have hfreezing : ¬Date.KelvinForK freezingPoint := by
    -- with an ordinary letter it is no relative date either
    rintro ⟨-, h⟩
    have hascii : Date.kelvinToK freezingPoint.trim = Text.trim "273 k".toList := by decide +kernel
    rw [hascii] at h
    exact absurd (Date.isLiteral_of_spelled h) (by decide +kernel)
  have hkelvin : kelvin ∈ freezingPoint := by decide +kernel
  refine ⟨hnot, hspelled, htokens, hwrite, hcheck _ _ rfl, ?_, hkelvin, hfreezing, ?_⟩
  · refine relativeDates_exact.2.2 _ (State.hasPlainNames_accountNamed lastDays) ?_
    rintro f (_ | ⟨_, ⟨⟩⟩)
    exact hspelled
  · rw [Bool.eq_false_iff]
    intro hliteral
    have hdate := (relativeDates_exact.1 freezingPoint).1 ⟨hliteral, hfreezing⟩
    exact hdate.kelvin_not_mem ((mem_trim_iff (by decide)).2 hkelvin)

/-- Blanks are allowed before the count, so the documented forms are not all that is recognised. -/
theorem not_isLiteral_iff_spelled :
    ¬∀ s : Text, Date.isLiteral s = true ↔ Date.Spelled (· = []) s.trim := by
  intro h
  have hspelled := (h "LAST_N_DAYS: 30".toList).1 (by decide +kernel)
  have htrim : Text.trim "LAST_N_DAYS: 30".toList = "LAST_N_DAYS: 30".toList := by decide +kernel
  rw [htrim] at hspelled
  generalize hs : "LAST_N_DAYS: 30".toList = s at hspelled
  cases hspelled with
  | plain mem spells =>
    have hnone : ∀ word ∈ Date.plainWords, eqIgnoreCase "LAST_N_DAYS: 30".toList word = false := by
      decide +kernel
    rw [← hs, hnone _ mem] at spells
    cases spells
  | @counted x word gap count mem spells isGap digits =>
    have hblank : ' ' ∈ x ++ (gap ++ count) := by rw [← hs]; decide
    rw [isGap, List.nil_append, List.mem_append] at hblank
    rcases hblank with hblank | hblank
    · have hmap := ((Date.spells_iff (List.mem_append_right _ mem)).1 spells).2
      have hmem : ' ' ∈ word := hmap ▸ List.mem_map_of_mem (f := lowerOne) hblank
      have hnone : ∀ word ∈ Date.countedWords, ' ' ∉ word := by decide +kernel
      exact hnone word mem hmem
    · rw [isDigits_iff] at digits
      exact absurd (digits.2 ' ' hblank) (by decide)

end Soql
