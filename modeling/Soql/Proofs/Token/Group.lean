import Soql.Proofs.Token.Join

/-!
# Texts in parentheses

A closed and balanced text is put into parentheses and taken out again. Whatever it holds, no
search at top level looks into it.
-/

namespace Soql

open Kind Token

/-- A text in parentheses. -/
def group (s : Text) : Text :=
  '(' :: s ++ [')']

theorem group_inj {s t : Text} : group s = group t ↔ s = t := by
  simp [group]

theorem tight_group (s : Text) : (group s).Tight := by
  constructor
  · intro c hc
    obtain rfl : '(' = c := by simpa [group] using hc
    rfl
  · intro c hc
    rw [group, List.getLast?_concat, Option.mem_some_iff] at hc
    rw [← hc]
    rfl

/-- A tight text between two parentheses is the group of what is between them. -/
theorem eq_group_of_tokenize {s : Text} (hs : s.Tight) {o c : Token} {inside : List Token}
    (htok : tokenize s = o :: (inside ++ [c])) (ho : o.kind = .openParen)
    (hc : c.kind = .closeParen) : s = group (render inside ++ c.gap) := by
  have hopen : o.text = ['('] := text_of_mem_symbol (s := s) (by simp [htok]) (by rw [ho]; rfl)
  have hclose : c.text = [')'] := text_of_mem_symbol (s := s) (by simp [htok]) (by rw [hc]; rfl)
  calc s = render (tokenize s) := (render_tokenize hs).symm
    _ = o.written ++ (render inside ++ c.written) := by simp [htok]
    _ = group (render inside ++ c.gap) := by
      simp [written, gap_of_tight hs htok, hopen, hclose, group]

section

variable {s : Text} (h : Closed s)

include h

/-- A text in parentheses is read as in itself, with a token for each parenthesis. -/
theorem exists_tokenize_group : ∃ g, tokenize (group s) =
    ⟨[], .openParen, ['(']⟩ :: (tokenize s ++ [⟨g, .closeParen, [')']⟩]) := by
  obtain ⟨g, -, hg, htok⟩ := tokenize_append h (y := [')']) (by rfl)
  rw [tokenize_gap_append hg, tokenize_standalone_cons (by simp [standalone]), tokenize_nil] at htok
  refine ⟨g ++ [], ?_⟩
  rw [group, List.cons_append, tokenize_standalone_cons (by simp [standalone]), htok]
  rfl

/-- The kinds of a group, whose blanks do not matter. -/
theorem kindsOf_group : kindsOf (group s) = .openParen :: (kindsOf s ++ [.closeParen]) := by
  obtain ⟨g, htok⟩ := exists_tokenize_group h
  rw [kindsOf, htok]
  simp [kindsOf]

theorem piece_group : Piece (group s) := by
  refine ⟨tight_group s, ?_⟩
  obtain ⟨g, htok⟩ := exists_tokenize_group h
  rw [Closed, htok]
  simpa using h

/-- A text that closes what it opens is taken out of its parentheses again. -/
theorem stripOuterParens?_group (hbal : Balanced (kindsOf s)) :
    stripOuterParens? (group s) = some s.trim := by
  obtain ⟨g, htok⟩ := exists_tokenize_group h
  refine stripOuterParens?_eq_some_iff.2 ⟨⟨[], .openParen, ['(']⟩, tokenize s,
    ⟨g, .closeParen, [')']⟩, ?_, rfl, rfl, hbal, ?_⟩
  · rw [(tight_group s).trim_eq, htok]
  · exact (written_tokenize s).trim_render.symm

end

/-- A text opens a query. -/
def OpensQuery (s : Text) : Prop :=
  (kindsOf s).head? = some (.keyword .SELECT)

/-- A text opens a query if its first token says so. -/
theorem isAt_select_iff {s : Text} (h : Closed s) :
    Phrase.isAt [Keyword.SELECT.spelling] (tokenize s) = true ↔ OpensQuery s := by
  have hwords : [Keyword.SELECT] ≠ [] := by simp
  have hat : Phrase.isAt [Keyword.SELECT.spelling] (tokenize s) =
      Phrase.leadsKinds [.SELECT] (kindsOf s) := Phrase.isAt_eq (stretch_tokenize h) hwords
  rw [hat, OpensQuery]
  cases kindsOf s with
  | nil => simp [Phrase.leadsKinds]
  | cons k ks =>
    rw [List.head?_cons, Option.some.injEq]
    constructor
    · exact Phrase.eq_of_leadsKinds
    · rintro rfl
      rfl

/-- A group is a subquery when the text in it opens a query. -/
theorem isSome_subqueryBody?_group {s : Text} (h : Closed s) (hbal : Balanced (kindsOf s)) :
    (subqueryBody? (group s)).isSome = true ↔ OpensQuery s.trim := by
  rw [subqueryBody?, stripOuterParens?_group h hbal, ← isAt_select_iff (Piece.of_trim h).closed]
  simp [Option.filter_some]

/-- A text in parentheses is a subquery exactly if it opens a query. -/
theorem subqueryBody?_group {s : Text} (h : Piece s) (hbal : Balanced (kindsOf s)) :
    (subqueryBody? (group s)).isSome = true ↔ OpensQuery s := by
  rw [isSome_subqueryBody?_group h.closed hbal, h.tight.trim_eq]

end Soql
