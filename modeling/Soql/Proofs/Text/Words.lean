import Soql.Proofs.Text.Trim

/-!
# The words of a text

A text has words when it consists of runs of characters that are no blanks, with blanks before,
between and behind them (`Worded`). The runs are unique, and `Text.words` finds them; so a text
that is put together from words with blanks between them has just those words.
-/

namespace Soql.Text

/-- A text consists of words with blanks around them. -/
inductive Worded : Text → List Text → Prop
  | nil {s : Text} (blank : ∀ c ∈ s, isBlank c = true) : Worded s []
  | cons {gap word rest : Text} {ws : List Text} (blank : ∀ c ∈ gap, isBlank c = true)
      (nonempty : word ≠ []) (plain : ∀ c ∈ word, isBlank c = false)
      (ends : ∀ c ∈ rest.head?, isBlank c = true) (behind : Worded rest ws) :
      Worded (gap ++ (word ++ rest)) (word :: ws)

/-- A blank in front belongs to no word. -/
theorem words_cons_of_blank {c : Char} (h : isBlank c = true) (s : Text) :
    words (c :: s) = words s := by
  simp [words, leadingWord, h]

theorem leadingWord_cons_of_not_blank {c : Char} (h : isBlank c = false) (s : Text) :
    leadingWord (c :: s) = (c :: (leadingWord s).1, (leadingWord s).2) := by
  simp [leadingWord, h]

/-- Before a blank and at the end of a text no word is left to go on with. -/
theorem leadingWord_of_blank {s : Text} (h : ∀ c ∈ s.head?, isBlank c = true) :
    leadingWord s = ([], words s) := by
  cases s with
  | nil => rfl
  | cons c s =>
    have hc : isBlank c = true := h c rfl
    rw [words_cons_of_blank hc]
    simp [words, leadingWord, hc]

/-- A word ends at the next blank. -/
theorem leadingWord_append {word : Text} (hword : ∀ c ∈ word, isBlank c = false) {rest : Text}
    (hrest : ∀ c ∈ rest.head?, isBlank c = true) :
    leadingWord (word ++ rest) = (word, words rest) := by
  induction word with
  | nil => exact leadingWord_of_blank hrest
  | cons c word ih =>
    obtain ⟨hc, hword⟩ := List.forall_mem_cons.1 hword
    rw [List.cons_append, leadingWord_cons_of_not_blank hc, ih hword]

namespace Worded

variable {s : Text} {ws : List Text}

/-- A text may start with a word. -/
theorem front {word rest : Text} (nonempty : word ≠ []) (plain : ∀ c ∈ word, isBlank c = false)
    (ends : ∀ c ∈ rest.head?, isBlank c = true) (behind : Worded rest ws) :
    Worded (word ++ rest) (word :: ws) :=
  @cons [] word rest ws (by simp) nonempty plain ends behind

theorem append_left {g : Text} (hg : ∀ c ∈ g, isBlank c = true) (h : Worded s ws) :
    Worded (g ++ s) ws := by
  cases h with
  | nil blank => exact .nil (List.forall_mem_append.2 ⟨hg, blank⟩)
  | cons blank nonempty plain ends behind =>
    rw [← List.append_assoc]
    exact .cons (List.forall_mem_append.2 ⟨hg, blank⟩) nonempty plain ends behind

/-- Words are not empty and have no blanks in them. -/
theorem mem (h : Worded s ws) : ∀ w ∈ ws, w ≠ [] ∧ ∀ c ∈ w, isBlank c = false := by
  induction h with
  | nil => simp
  | cons _ nonempty plain _ _ ih => exact List.forall_mem_cons.2 ⟨⟨nonempty, plain⟩, ih⟩

/-- A text has one reading as words, the one that is computed. -/
theorem words_eq (h : Worded s ws) : words s = ws := by
  have hblank {g t : Text} (hg : ∀ c ∈ g, isBlank c = true) : words (g ++ t) = words t := by
    induction g with
    | nil => rfl
    | cons c g ih =>
      obtain ⟨hc, hg⟩ := List.forall_mem_cons.1 hg
      rw [List.cons_append, words_cons_of_blank hc, ih hg]
  induction h with
  | nil blank => simpa [words, leadingWord] using hblank (t := []) blank
  | cons blank nonempty plain ends _ ih =>
    rw [hblank blank, words, leadingWord_append plain ends, ih]
    simp [nonempty]

end Worded

/-- A word that is under way goes on up to a blank or to the end of the text, and words follow. -/
def Underway (s : Text) (word : Text) (ws : List Text) : Prop :=
  ∃ rest, s = word ++ rest ∧ (∀ c ∈ word, isBlank c = false) ∧
    (∀ c ∈ rest.head?, isBlank c = true) ∧ Worded rest ws

theorem worded_words_of_underway {s : Text}
    (h : Underway s (leadingWord s).1 (leadingWord s).2) : Worded s (words s) := by
  unfold words
  generalize leadingWord s = found at h
  obtain ⟨word, ws⟩ := found
  obtain ⟨rest, rfl, hplain, hends, hrest⟩ := h
  cases word with
  | nil => exact hrest
  | cons c word => exact .front (by simp) hplain hends hrest

/-- The scan keeps apart the word under way and the words behind it. -/
theorem underway_leadingWord (s : Text) : Underway s (leadingWord s).1 (leadingWord s).2 := by
  induction s with
  | nil => exact ⟨[], rfl, by simp [leadingWord], by simp, .nil (by simp)⟩
  | cons c s ih =>
    cases hc : isBlank c with
    | false =>
      obtain ⟨rest, hs, hplain, hends, hrest⟩ := ih
      rw [leadingWord_cons_of_not_blank hc]
      exact ⟨rest, congrArg _ hs, List.forall_mem_cons.2 ⟨hc, hplain⟩, hends, hrest⟩
    | true =>
      have hhead : ∀ d ∈ (c :: s).head?, isBlank d = true := by simpa using hc
      have hwords := (worded_words_of_underway ih).append_left (g := [c]) (by simpa using hc)
      rw [leadingWord_of_blank hhead, words_cons_of_blank hc]
      exact ⟨c :: s, rfl, by simp, hhead, hwords⟩

/-- Every text consists of the words that are found in it, and of no others. -/
theorem worded_iff {s : Text} {ws : List Text} : Worded s ws ↔ words s = ws :=
  ⟨Worded.words_eq, fun h => h ▸ worded_words_of_underway (underway_leadingWord s)⟩

/-- Words that are joined by single spaces are found again. -/
theorem words_join {ws : List Text} (h : ∀ w ∈ ws, w ≠ [] ∧ ∀ c ∈ w, isBlank c = false) :
    words (join [' '] ws) = ws := by
  refine Worded.words_eq ?_
  induction ws with
  | nil => exact .nil (by simp [join])
  | cons w ws ih =>
    obtain ⟨⟨hne, hplain⟩, hws⟩ := List.forall_mem_cons.1 h
    cases ws with
    | nil =>
      have hend : Worded [] [] := .nil (by simp)
      simpa [join] using Worded.front hne hplain (by simp) hend
    | cons v ws =>
      have hspace : ∀ c ∈ [' '], isBlank c = true := by decide
      rw [join, List.append_assoc]
      exact .front hne hplain (by simpa using hspace) ((ih hws).append_left hspace)

/-- Blanks of any sort and number between words are like single spaces. -/
@[simp] theorem words_join_words (s : Text) : words (join [' '] (words s)) = words s :=
  words_join (worded_iff.2 rfl).mem

end Soql.Text
