import Soql.Proofs.Query.Condition
import Soql.Proofs.Query.FoldCase
import Soql.Proofs.Text.Words
import Soql.Proofs.Token.Place

/-!
# The texts of operators

An operator is read through its tokens: the blanks of the text become single spaces, the first
spelling in the order of trial that the tokens start with is taken, and no token may be left. All
the same a text is an operator just when its words, joined by single spaces, are one of the
spellings in some case (`parse_exact`). No spelling hides another, since no token is left; and
tokens that spell an operator have nothing but blanks between them, so they are the words.
-/

namespace Soql

open Kind Token List

/-- A text is made of its tokens' texts as words, if no blank is inside a token and no two tokens
stand side by side. -/
theorem Token.worded_of_tokenize {s : Text} {ts : List Token} (h : tokenize s = ts)
    (hplain : ∀ t ∈ ts, ∀ c ∈ t.text, Text.isBlank c = false) (hgap : ∀ t ∈ ts.tail, t.gap ≠ []) :
    Text.Worded s (ts.map Token.text) := by
  have hblank {g : Text} (hg : ∀ c ∈ g, Text.isGap c = true) : ∀ c ∈ g, Text.isBlank c = true :=
    fun c hc => Text.isBlank_of_isGap (hg c hc)
  induction ts generalizing s with
  | nil => exact .nil (hblank (tokenize_eq_nil_iff.1 h))
  | cons t ts ih =>
    obtain ⟨rest, rfl, ht, hrest⟩ := exists_of_tokenize_cons h
    obtain ⟨hplain, hplains⟩ := forall_mem_cons.1 hplain
    obtain ⟨c, u, htext, -⟩ := ht.text
    rw [written, append_assoc]
    refine .cons (hblank ht.gap) (by simp [htext]) hplain ?_
      (ih hrest hplains fun u hu => hgap u (mem_of_mem_tail hu))
    cases ts with
    | nil => exact fun c hc => hblank (tokenize_eq_nil_iff.1 hrest) c (mem_of_mem_head? hc)
    | cons u ts =>
      obtain ⟨rest', rfl, hu, -⟩ := exists_of_tokenize_cons hrest
      intro c hc
      rw [written, append_assoc, head?_append_of_ne_nil _ (hgap u (by simp))] at hc
      exact hblank hu.gap c (mem_of_mem_head? hc)

/-- Tokens that start as words do stand apart. -/
theorem Token.gap_ne_nil_of_isWordStart {s : Text} {ts : List Token} (h : tokenize s = ts)
    (hword : ∀ t ∈ ts, ∃ c ∈ t.text.head?, isWordStart c = true) : ∀ t ∈ ts.tail, t.gap ≠ [] := by
  induction ts generalizing s with
  | nil => simp
  | cons t ts ih =>
    obtain ⟨rest, rfl, ht, hrest⟩ := exists_of_tokenize_cons h
    obtain ⟨hfirst, hwords⟩ := forall_mem_cons.1 hword
    cases ts with
    | nil => simp
    | cons u ts =>
      obtain ⟨rest', rfl, -, -⟩ := exists_of_tokenize_cons hrest
      exact forall_mem_cons.2 ⟨ht.gap_ne_nil hfirst (hwords u (by simp)), ih hrest hwords⟩

namespace Operator

variable {s : Text} {ts : List Token} {parts : Phrase} {op : Operator}

/-- What the tokens of an operator spell. -/
theorem exists_of_ofText? (h : ofText? s = some op) : ∃ parts, (parts, op) ∈ spellings ∧
    Spells parts (tokenize (Text.join [' '] (Text.words s))) := by
  unfold ofText? at h
  generalize tokenize (Text.join [' '] (Text.words s)) = ts at h ⊢
  simp only at h
  split at h
  · next op' n hmatch =>
    split at h
    · next hlength =>
      cases h
      obtain ⟨parts, us, vs, hmem, rfl, hus, hspells⟩ := exists_spells_of_matchAt? hmatch
      obtain rfl : vs = [] := by
        rw [length_append, beq_iff_eq, hus] at hlength
        exact eq_nil_of_length_eq_zero (by omega)
      exact ⟨parts, hmem, by rwa [append_nil]⟩
    · cases h
  · cases h

/-- The words of a text that spells an operator are its tokens. -/
theorem words_eq_map_text (hmem : (parts, op) ∈ spellings) (hts : tokenize s = ts)
    (h : Spells parts ts) : Text.words s = ts.map Token.text := by
  have hplain : ∀ e ∈ spellings, ∀ part ∈ e.1, ∀ c ∈ Text.foldCase part,
      Text.isBlank c = false := by decide
  -- only words make up a spelling of several parts
  have hstart : ∀ e ∈ spellings, e.1.length ≤ 1 ∨ ∀ part ∈ e.1,
      (Text.foldCase part).head?.any isWordStart = true := by decide
  refine (worded_of_tokenize hts (fun t ht c hc => ?_) ?_).words_eq
  · obtain ⟨part, hpart, heq⟩ := h.exists_part t ht
    have := hplain _ hmem part hpart c.toLower (Text.eqIgnoreCase_iff.1 heq ▸ mem_map_of_mem hc)
    rwa [Text.isBlank_toLower] at this
  · rcases hstart _ hmem with hshort | hwords
    · rw [h.length_eq] at hshort
      match ts, hshort with
      | [], _ => simp
      | [t], _ => simp
    · refine gap_ne_nil_of_isWordStart hts fun t ht => ?_
      obtain ⟨part, hpart, heq⟩ := h.exists_part t ht
      obtain ⟨c, hc, hword⟩ := (Option.any_eq_true _ _).1 (hwords part hpart)
      rw [← Text.eqIgnoreCase_iff.1 heq, Text.foldCase, head?_map, Option.map_eq_some_iff] at hc
      obtain ⟨d, hd, rfl⟩ := hc
      exact ⟨d, hd, by rwa [isWordStart_toLower] at hword⟩

theorem foldCase_join {sep : Text} {ss ts : List Text} (h : Forall₂ (fun x y =>
    Text.eqIgnoreCase x y = true) ss ts) :
    Text.foldCase (Text.join sep ss) = Text.foldCase (Text.join sep ts) := by
  induction h with
  | nil => rfl
  | cons hxy hrest ih =>
    have hfold := Text.eqIgnoreCase_iff.1 hxy
    cases hrest with
    | nil => exact hfold
    | cons => simp only [Text.join, Text.foldCase_append, hfold, ih]

/-- An operator is read from each of its spellings. -/
theorem ofText?_of_mem (hmem : (parts, op) ∈ spellings) (h : Text.eqIgnoreCase
    (Text.join [' '] (Text.words s)) (Text.join [' '] parts) = true) : ofText? s = some op := by
  have hall : ∀ e ∈ spellings, matchAt? (tokenize (Text.join [' '] e.1)) =
      some (e.2, (tokenize (Text.join [' '] e.1)).length) := by decide +kernel
  have htokens := congrArg tokenize (Text.eqIgnoreCase_iff.1 h)
  rw [tokenize_foldCase, tokenize_foldCase] at htokens
  have hlength := congrArg length htokens
  rw [length_map, length_map] at hlength
  have hmatch := congrArg matchAt? htokens
  rw [matchAt?_foldCase, matchAt?_foldCase, hall _ hmem, ← hlength] at hmatch
  simp [ofText?, hmatch]

/-- A text names an operator if its words, between single blanks, spell it in some case. -/
theorem ofText?_eq_some_iff : ofText? s = some op ↔ ∃ parts, (parts, op) ∈ spellings ∧
    Text.eqIgnoreCase (Text.join [' '] (Text.words s)) (Text.join [' '] parts) = true := by
  constructor
  · intro h
    obtain ⟨parts, hmem, hspelled⟩ := exists_of_ofText? h
    have hwords := words_eq_map_text hmem rfl hspelled
    rw [Text.words_join_words] at hwords
    refine ⟨parts, hmem, Text.eqIgnoreCase_iff.2 ?_⟩
    rw [hwords]
    exact foldCase_join (forall₂_map_left_iff.2 hspelled.flip)
  · rintro ⟨parts, hmem, h⟩
    exact ofText?_of_mem hmem h

/-- The parser accepts the names of operators. -/
theorem parse_eq_ok_iff : parse s = .ok op ↔ ofText? s = some op := by
  unfold parse
  cases ofText? s <;> simp

/-- The parser refuses all other texts, and says which one it was. -/
theorem parse_eq_error_iff : parse s = .error ⟨s⟩ ↔ ∀ op, ofText? s ≠ some op := by
  unfold parse
  cases ofText? s <;> simp

/-- A text is read as an operator just when its words are a spelling of it; every other text is
reported as it was given. -/
theorem parse_exact (s : Text) :
    (∀ op, parse s = .ok op ↔ ∃ parts, (parts, op) ∈ spellings ∧
      Text.eqIgnoreCase (Text.join [' '] (Text.words s)) (Text.join [' '] parts) = true) ∧
    (parse s = .error ⟨s⟩ ↔ ¬∃ entry ∈ spellings,
      Text.eqIgnoreCase (Text.join [' '] (Text.words s)) (Text.join [' '] entry.1) = true) := by
  refine ⟨fun op => parse_eq_ok_iff.trans ofText?_eq_some_iff, parse_eq_error_iff.trans ⟨?_, ?_⟩⟩
  · rintro hnone ⟨⟨parts, op⟩, hmem, h⟩
    exact hnone op (ofText?_of_mem hmem h)
  · intro hnone op hop
    obtain ⟨parts, hmem, h⟩ := ofText?_eq_some_iff.1 hop
    exact hnone ⟨(parts, op), hmem, h⟩

end Operator

end Soql
