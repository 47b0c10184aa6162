import Soql.Proofs.Text.Lowercase
import Soql.Proofs.Token.Characters
import Soql.Proofs.Token.Single
import Soql.Literal.Date

/-!
# Relative dates as tokens

A relative date is written into a query as it stands. Its letters come in any case, a k may be a
Kelvin sign, and blanks may stand around it and around its count; in any of these forms its tokens
are words that are no keywords, a colon, a number and unknown ones.
-/

namespace Soql

open Kind Token Text

/-- The kinds of the tokens of a relative date. -/
def Kind.isDatePart (k : Kind) : Bool :=
  k == .identifier || k == .colon || k == .number || k == .unknown

namespace Date

/-- The words of relative dates, without the colon before a count. -/
def stems : List Text :=
  plainWords ++ countedWords.map List.dropLast

/-- What is used of the words of relative dates: they are words and no keywords, and so are the
parts around a k. -/
def isStem (word : Text) : Prop :=
  (∀ c ∈ word, isWordPart c = true) ∧ Kind.ofWord word = .identifier ∧
    (∀ c ∈ word.head?, isWordStart c = true ∧ c ≠ 'k') ∧ word ≠ [] ∧
    ∀ i < word.length, word[i]? = some 'k' → Kind.ofWord (word.take i) = .identifier ∧
      'k' ∉ word.drop (i + 1) ∧ (word.drop (i + 1) = [] ∨
        Kind.ofWord (word.drop (i + 1)) = .identifier ∧
          ∀ c ∈ (word.drop (i + 1)).head?, isWordStart c = true)

/-- The words of relative dates are spelled in small letters and are no keywords. -/
theorem isStem_of_mem : ∀ word ∈ stems, isStem word := by
  unfold isStem
  decide +kernel

theorem ofWord_congr {s t : Text} (h : foldCase s = foldCase t) : Kind.ofWord s = Kind.ofWord t := by
  simp only [Kind.ofWord, Keyword.ofWord?, eqIgnoreCase, h]

/-- Apart from the Kelvin sign, only ASCII characters become characters of words. -/
theorem lt_of_lowerOne {c : Char} (h : isWordPart (lowerOne c) = true) (hk : c ≠ kelvin) :
    c.toNat < 128 := by
  by_contra hc
  exact hk (eq_kelvin_of_lowerOne (by omega) (lt_of_isWordPart h))

/-- ASCII characters that lower-case to a word that is no keyword are such a word. -/
theorem tokenize_of_lowerOne {w : Text} (hw : ∀ c ∈ w, c.toNat < 128)
    (hpart : ∀ c ∈ w.map lowerOne, isWordPart c = true)
    (hstart : ∀ c ∈ (w.map lowerOne).head?, isWordStart c = true) (hne : w ≠ [])
    (hkind : Kind.ofWord (w.map lowerOne) = .identifier) (rest : Text)
    (hrest : ∀ c ∈ rest.head?, isWordPart c = false) :
    tokenize (w ++ rest) = ⟨[], .identifier, w⟩ :: tokenize rest := by
  have hlower : w.map lowerOne = foldCase w :=
    List.map_congr_left fun c hc => lowerOne_of_lt (hw c hc)
  have hpart' : ∀ c ∈ w, isWordPart c = true := by
    intro c hc
    rw [← isWordPart_toLower, ← lowerOne_of_lt (hw c hc)]
    exact hpart _ (List.mem_map_of_mem hc)
  obtain ⟨c, s, rfl⟩ := List.exists_cons_of_ne_nil hne
  have hc : isWordStart c = true := by
    rw [← isWordStart_toLower, ← lowerOne_of_lt (hw c (by simp))]
    exact hstart _ (by simp)
  rw [tokenize_word_append hc (fun x hx => hpart' x (by simp [hx])) rest hrest, ← hkind, hlower]
  congr 2
  refine ofWord_congr ?_
  rw [foldCase, foldCase, List.map_map]
  exact List.map_congr_left fun x _ => (toLower_toLower x).symm

/-- A text that lower-cases to a name is read as one. -/
theorem tokenize_eq_of_lowerOne {w : Text} (hw : ∀ c ∈ w, c.toNat < 128)
    (hpart : ∀ c ∈ w.map lowerOne, isWordPart c = true)
    (hstart : ∀ c ∈ (w.map lowerOne).head?, isWordStart c = true) (hne : w ≠ [])
    (hkind : Kind.ofWord (w.map lowerOne) = .identifier) :
    tokenize w = [⟨[], .identifier, w⟩] := by
  have htok := tokenize_of_lowerOne hw hpart hstart hne hkind [] (by simp)
  rwa [List.append_nil, tokenize_nil] at htok

/-- A Kelvin sign before an ASCII character is a token of its own. -/
theorem tokenize_kelvin_cons {s : Text} (hs : ∀ c ∈ s, c.toNat < 128) :
    tokenize (kelvin :: s) = ⟨[], .unknown, [kelvin]⟩ :: tokenize s := by
  have hnarrow : ∀ c ∈ s.head?, isWide c = false := by
    intro c hc
    simpa [isWide] using hs c (List.mem_of_mem_head? hc)
  have hsign : Token.Reads ⟨[], .unknown, [kelvin]⟩ s :=
    reads_wide (by simp) (by simp) (by decide) hnarrow
  exact tokenize_written_append hsign

/-- A Kelvin sign cuts a word of a relative date into words that are no keywords. -/
theorem isDatePart_of_kelvin {a b : Text} (h : isStem ((a ++ kelvin :: b).map lowerOne))
    (ha : kelvin ∉ a) : ∀ k ∈ kinds (tokenize (a ++ kelvin :: b)), k.isDatePart = true := by
  have hkelvin : lowerOne kelvin = 'k' := by decide
  rw [List.map_append, List.map_cons, hkelvin] at h
  obtain ⟨hpart, -, hhead, -, hsplit⟩ := h
  obtain ⟨hleft, hnot, hright⟩ := hsplit (a.map lowerOne).length (by simp) (by simp)
  rw [List.take_left] at hleft
  rw [List.drop_length_add_append, List.drop_one, List.tail_cons] at hnot hright
  have hb : kelvin ∉ b := fun hmem => hnot (hkelvin ▸ List.mem_map_of_mem hmem)
  have hparta : ∀ c ∈ a.map lowerOne, isWordPart c = true := fun c hc =>
    hpart c (List.mem_append_left _ hc)
  have hpartb : ∀ c ∈ b.map lowerOne, isWordPart c = true := fun c hc =>
    hpart c (List.mem_append_right _ (List.mem_cons_of_mem _ hc))
  have halt : ∀ c ∈ a, c.toNat < 128 := fun c hc =>
    lt_of_lowerOne (hparta _ (List.mem_map_of_mem hc)) fun h => ha (h ▸ hc)
  have hblt : ∀ c ∈ b, c.toNat < 128 := fun c hc =>
    lt_of_lowerOne (hpartb _ (List.mem_map_of_mem hc)) fun h => hb (h ▸ hc)
  have hane : a ≠ [] := by
    rintro rfl
    exact (hhead 'k' rfl).2 rfl
  have hahead : ∀ c ∈ (a.map lowerOne).head?, isWordStart c = true := by
    intro c hc
    refine (hhead c ?_).1
    rwa [List.head?_append_of_ne_nil _ (by simpa using hane)]
  have hsep : ∀ c ∈ (kelvin :: b).head?, isWordPart c = false := by
    rintro _ ⟨⟩
    decide
  have hbtok : ∀ k ∈ kinds (tokenize b), k.isDatePart = true := by
    rcases hright with hnil | ⟨hid, hstart⟩
    · rw [List.map_eq_nil_iff.1 hnil, tokenize_nil]
      simp
    · by_cases hbne : b = []
      · simp [hbne, tokenize_nil]
      · simp [tokenize_eq_of_lowerOne hblt hpartb hstart hbne hid, isDatePart]
  rw [tokenize_of_lowerOne halt hparta hahead hane hleft _ hsep, tokenize_kelvin_cons hblt]
  simp only [kinds_cons, List.mem_cons]
  rintro k (rfl | rfl | hk)
  · rfl
  · rfl
  · exact hbtok k hk

/-- The tokens of a word of a relative date are no keywords. -/
theorem isDatePart_of_stem {w : Text} (h : isStem (w.map lowerOne)) :
    ∀ k ∈ kinds (tokenize w), k.isDatePart = true := by
  by_cases hk : kelvin ∈ w
  · obtain ⟨a, b, rfl, ha⟩ := List.eq_append_cons_of_mem hk
    exact isDatePart_of_kelvin h ha
  · obtain ⟨hpart, hkind, hhead, hne, -⟩ := h
    have hlt : ∀ c ∈ w, c.toNat < 128 := fun c hc =>
      lt_of_lowerOne (hpart _ (List.mem_map_of_mem hc)) fun h => hk (h ▸ hc)
    have htok := tokenize_eq_of_lowerOne hlt hpart (fun c hc => (hhead c hc).1)
      (by simpa using hne) hkind
    simp [htok, isDatePart]

theorem toLower_eq_colon {c : Char} (h : lowerOne c = ':') : c = ':' := by
  have hlt : c.toNat < 128 := by
    by_contra hc
    have hk := eq_kelvin_of_lowerOne (c := c) (by omega) (by rw [h]; decide)
    rw [hk] at h
    exact absurd h (by decide)
  rw [lowerOne_of_lt hlt] at h
  by_cases hupper : 65 ≤ c.toNat ∧ c.toNat ≤ 90
  · have := toNat_toLower hupper
    rw [h] at this
    simp at this
    omega
  · rwa [toLower_of_not_upper hupper] at h

/-- A count and the blanks around it hold numbers and unknown tokens only. -/
theorem isDatePart_of_count {u : Text}
    (h : ∀ c ∈ u, c.isDigit = true ∨ isBlank c = true) :
    ∀ k ∈ kinds (tokenize u), k.isDatePart = true := by
  intro k hk
  obtain ⟨t, ht, rfl⟩ := List.mem_map.1 hk
  have hnot : ∀ c, c.isDigit = false → isBlank c = false → c ∉ u := by
    intro c hdigit hblank hc
    rcases h c hc with h | h
    · rw [hdigit] at h; cases h
    · rw [hblank] at h; cases h
  have hclosed := not_quoted_of_mem ⟨hnot '\'' rfl rfl, hnot '"' rfl rfl⟩ ht
  have hsymbol : ∀ c text, symbolText t.kind = some (c :: text) → c ∈ u := fun c text hs =>
    mem_of_symbol ht hs
  cases shape_of_mem ht hclosed.2 with
  | word c s text start part kind =>
    have hmem := mem_of_mem_text ht c (by simp [text])
    have hpart := isWordPart_of_isWordStart start
    refine absurd hmem (hnot c ?_ (not_isBlank_of_isWordPart hpart))
    rw [Bool.eq_false_iff]
    intro hdigit
    rw [isWordStart_of_isDigit hdigit] at start
    cases start
  | number kind => simp [kind, isDatePart]
  | quoted kind => exact absurd kind hclosed.1
  | symbol text =>
    cases hkind : t.kind <;> rw [hkind] at text hsymbol <;>
      first
        | cases text
        | exact absurd (hsymbol _ _ rfl) (hnot _ rfl rfl)
  | wide kind => simp [kind, isDatePart]
  | single kind => simp [kind, isDatePart]

/-- The words with a count end in their colon. -/
theorem colon_of_mem : ∀ word ∈ countedWords, word = word.dropLast ++ [':'] := by
  decide +kernel

/-- The lower case of a relative date: a word, with a colon and a count behind it or not. -/
theorem exists_of_isLiteral {s : Text} (h : isLiteral s = true) : ∃ word ∈ stems,
    lowercase s.trim = word ∨ ∃ count, lowercase s.trim = word ++ ':' :: count ∧
      ∀ c ∈ count, c.isDigit = true ∨ isBlank c = true := by
  simp only [isLiteral, Bool.or_eq_true, List.contains_iff_mem, List.any_eq_true] at h
  rcases h with h | ⟨word, hword, h⟩
  · exact ⟨_, List.mem_append_left _ h, .inl rfl⟩
  · split at h
    · next count hcount =>
      have hprefix := List.isPrefixOf?_eq_some_iff_append_eq.1 hcount
      have hstem : word.dropLast ∈ stems := List.mem_append_right _ (List.mem_map_of_mem hword)
      refine ⟨word.dropLast, hstem, .inr ⟨count, ?_, ?_⟩⟩
      · calc lowercase s.trim = word ++ count := hprefix.symm
          _ = word.dropLast ++ [':'] ++ count := by rw [← colon_of_mem word hword]
          _ = word.dropLast ++ ':' :: count := by rw [List.append_assoc]; rfl
      · obtain ⟨g, b, hs, hg, hb⟩ := exists_eq_append_trim count
        rw [isDigits_iff] at h
        intro c hc
        rw [hs, List.mem_append, List.mem_append] at hc
        rcases hc with (hc | hc) | hc
        · exact .inr (hg c hc)
        · exact .inl (h.2 c hc)
        · exact .inr (hb c hc)
    · cases h

/-- The characters of a relative date in lower case. -/
theorem of_mem_lowercase {s : Text} (h : isLiteral s = true) :
    ∀ c ∈ lowercase s.trim, isWordPart c = true ∨ c = ':' ∨ isBlank c = true := by
  obtain ⟨word, hword, hs⟩ := exists_of_isLiteral h
  have hpart := (isStem_of_mem word hword).1
  intro c hc
  rcases hs with hs | ⟨count, hs, hcount⟩
  · exact .inl (hpart c (hs ▸ hc))
  · rw [hs, List.mem_append, List.mem_cons] at hc
    rcases hc with hc | rfl | hc
    · exact .inl (hpart c hc)
    · exact .inr (.inl rfl)
    · rcases hcount c hc with hdigit | hblank
      · refine .inl ?_
        rw [isWordPart_iff]
        rw [isDigit_iff] at hdigit
        omega
      · exact .inr (.inr hblank)

/-- Nothing in a relative date is lower-cased to a character outside words, colons and blanks. -/
theorem not_mem_lowercase {s : Text} (h : isLiteral s = true) {d : Char}
    (hpart : isWordPart d = false) (hcolon : d ≠ ':') (hblank : isBlank d = false) :
    d ∉ lowercase s.trim := by
  intro hd
  rcases of_mem_lowercase h d hd with h | h | h
  · rw [hpart] at h; cases h
  · exact hcolon h
  · rw [hblank] at h; cases h

/-- So a relative date is lower-cased one by one. -/
theorem lowercase_trim_eq_map {s : Text} (h : isLiteral s = true) :
    lowercase s.trim = s.trim.map lowerOne := by
  refine lowercase_eq_map fun c hc => ?_
  have hnot : ∀ d, isWordPart d = false → d ≠ ':' → isBlank d = false → c ≠ d :=
    fun d hpart hcolon hblank hcd => not_mem_lowercase h hpart hcolon hblank (hcd ▸ hc)
  exact ⟨hnot _ (by decide) (by decide) (by decide), hnot _ (by decide) (by decide) (by decide),
    hnot _ (by decide) (by decide) (by decide)⟩

/-- A relative date has none of the characters of groups, lists and quoted texts. -/
theorem not_mem_of_isLiteral {s : Text} (h : isLiteral s = true) :
    ∀ c ∈ s, c ∉ flatExceptions := by
  intro c hc hexc
  have hfacts : ∀ d ∈ flatExceptions, isWordPart d = false ∧ d ≠ ':' ∧ isBlank d = false ∧
      lowerOne d = d := by decide +kernel
  obtain ⟨hpart, hcolon, hblank, hlower⟩ := hfacts c hexc
  have hmem := List.mem_map_of_mem (f := lowerOne) ((mem_trim_iff hblank).2 hc)
  rw [hlower, ← lowercase_trim_eq_map h] at hmem
  exact not_mem_lowercase h hpart hcolon hblank hmem

theorem closed_of_isLiteral {s : Text} (h : isLiteral s = true) : Closed s :=
  closed_of_not_mem ⟨fun hc => not_mem_of_isLiteral h _ hc (by simp [flatExceptions]),
    fun hc => not_mem_of_isLiteral h _ hc (by simp [flatExceptions])⟩

/-- The tokens of a relative date are no keywords. -/
theorem isDatePart_of_isLiteral {s : Text} (h : isLiteral s = true) :
    ∀ k ∈ kinds (tokenize s), k.isDatePart = true := by
  have hclosed := closed_of_isLiteral h
  suffices htrim : ∀ k ∈ kinds (tokenize s.trim), k.isDatePart = true by
    obtain ⟨ks, ls, hs, hks, hls⟩ := (stretch_tokenize hclosed).exists_kinds_trimmed
    rw [← Token.tokenize_trim hclosed] at hs
    intro k hk
    rw [hs, List.mem_append, List.mem_append] at hk
    rcases hk with (hk | hk) | hk
    · rw [hks k hk]; rfl
    · exact htrim k hk
    · rw [hls k hk]; rfl
  obtain ⟨word, hword, hs⟩ := exists_of_isLiteral h
  have hstem := isStem_of_mem word hword
  rw [lowercase_trim_eq_map h] at hs
  rcases hs with hs | ⟨count, hs, hcount⟩
  · exact isDatePart_of_stem (hs ▸ hstem)
  · obtain ⟨w, u, hwu, hw, hu⟩ := List.map_eq_append_iff.1 hs
    obtain ⟨c, v, rfl, hc, hv⟩ := List.map_eq_cons_iff.1 hu
    obtain rfl := toLower_eq_colon hc
    have hwclosed : Closed w := by
      have hmem : ∀ c ∈ w, c ∈ s := fun c hc => by
        obtain ⟨g, b, hs, -, -⟩ := exists_eq_append_trim s
        rw [hs, hwu]
        simp [hc]
      exact closed_of_not_mem
        ⟨fun hc => not_mem_of_isLiteral h _ (hmem _ hc) (by simp [flatExceptions]),
          fun hc => not_mem_of_isLiteral h _ (hmem _ hc) (by simp [flatExceptions])⟩
    obtain ⟨g, -, hg, htok⟩ := tokenize_append hwclosed (y := ':' :: v) (by rfl)
    rw [tokenize_gap_append hg, tokenize_standalone_cons (by simp [standalone])] at htok
    rw [hwu, htok, kinds_append, kinds_indent, kinds_cons]
    intro k hk
    rw [List.mem_append, List.mem_cons] at hk
    rcases hk with hk | rfl | hk
    · exact isDatePart_of_stem (hw ▸ hstem) k hk
    · rfl
    · refine isDatePart_of_count (fun x hx => ?_) k hk
      rw [← isDigit_lowerOne x, ← isBlank_lowerOne x]
      exact hcount _ (hv ▸ List.mem_map_of_mem hx)

theorem isLiteral_trim (s : Text) : isLiteral s.trim = isLiteral s := by
  rw [isLiteral, isLiteral, trim_trim]

/-- A relative date is not null. -/
theorem not_null {s : Text} (h : isLiteral s = true) :
    eqIgnoreCase s.trim "null".toList = false := by
  rw [Bool.eq_false_iff, ne_eq, eqIgnoreCase_iff]
  intro hnull
  have hnull : foldCase s.trim = "null".toList := hnull.trans (by decide)
  have hlt : ∀ c ∈ s.trim, c.toNat < 128 := by
    intro c hc
    by_contra hwide
    have hself := toLower_of_not_upper (c := c) (by omega)
    have hmem : c ∈ "null".toList := by
      rw [← hnull, foldCase, ← hself]
      exact List.mem_map_of_mem hc
    have hall : ∀ d ∈ "null".toList, d.toNat < 128 := by decide
    exact hwide (hall c hmem)
  have hlower : lowercase s.trim = "null".toList := by
    rw [lowercase_trim_eq_map h, ← hnull]
    exact List.map_congr_left fun c hc => lowerOne_of_lt (hlt c hc)
  obtain ⟨word, hword, hs⟩ := exists_of_isLiteral h
  rw [hlower] at hs
  rcases hs with rfl | ⟨count, hs, -⟩
  · exact absurd hword (by decide +kernel)
  · have : ':' ∈ "null".toList := by rw [hs]; simp
    exact absurd this (by decide)

end Date

end Soql
