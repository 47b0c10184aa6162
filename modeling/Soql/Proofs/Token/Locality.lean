import Soql.Proofs.Query.Extraction
import Soql.Proofs.Scanner.Basic
import Soql.Proofs.Token.LongestMatch
import Soql.Proofs.Token.Parts

/-!
# Reading from the start of a token

A text can be cut where a token starts. The text before the cut has the tokens before it, for a
longest match does not get longer when text is taken away behind it; the text from the cut on has
the tokens from there on, for what a token is does not depend on what stands before it. Clauses,
items, conditions and the texts of groups are cut out in this way and read again.
-/

namespace Soql

open Kind Token

namespace Scanner

/-- Later tokens stand behind what the earlier ones take up. -/
theorem place_append (offset : Nat) (ts us : List Token) : place offset (ts ++ us) =
    place offset ts ++ place (offset + (render ts).byteSize) us := by
  induction ts generalizing offset with
  | nil => rfl
  | cons t ts ih =>
    rw [List.cons_append, place_cons, place_cons, ih, List.cons_append, render_cons,
      Text.byteSize_append, ← Nat.add_assoc offset]

end Scanner

/-- A token without the blanks before it: its kind, its text and its span moved on by `n` bytes. -/
def Token.movedOn (n : Nat) (p : Token × Span) : Kind × Text × Span :=
  (p.1.kind, p.1.text, ⟨n + p.2.start, n + p.2.stop⟩)

/-- Tokens that stand further on are the same tokens, moved on. -/
theorem map_movedOn_place (n offset : Nat) (ts : List Token) :
    (Scanner.place offset ts).map (movedOn n) =
      (Scanner.place (n + offset) ts).map (movedOn 0) := by
  induction ts generalizing offset with
  | nil => rfl
  | cons t ts ih =>
    rw [Scanner.place_cons, Scanner.place_cons, List.map_cons, List.map_cons, ih]
    simp [movedOn, Nat.add_assoc]

/-- The text is cut out of another one between two places among its tokens. -/
def CutOut (s part : Text) : Prop :=
  ∃ before ts behind, tokenize s = before ++ (ts ++ behind) ∧ tokenize (render ts) = ts ∧
    part = (render ts).trim

section Cut

variable {s part : Text} {before ts behind : List Token}

/-- Tokens that are neighbours in a text are a part that can be cut out of it. -/
theorem CutOut.of_append (h : tokenize s = before ++ (ts ++ behind)) :
    CutOut s (render ts).trim := by
  obtain ⟨rest, -, hrest⟩ := exists_of_tokenize_append h
  exact ⟨before, ts, behind, h, tokenize_render_of_append hrest, rfl⟩

/-- Each part between separators can be cut out. -/
theorem cutOut_of_mem_splitParts (sep : Kind → Bool) (hsep : sep .openParen = false)
    (h : part ∈ splitParts (fun t => sep t.kind) s) : CutOut s part := by
  obtain ⟨first, parts, hsplits⟩ := exists_splits sep hsep (tokenize s)
  rw [splitParts_of_splits hsep hsplits, List.mem_filter, List.mem_map] at h
  obtain ⟨⟨ts, hts, rfl⟩, -⟩ := h
  obtain ⟨before, behind, htok, -⟩ := hsplits.exists_of_mem hsep hts
  exact CutOut.of_append htok

/-- The body of a clause can be cut out. -/
theorem cutOut_extractClause {start : Text} {ends : List Text}
    (h : extractClause start ends s = some part) : CutOut s part := by
  obtain ⟨before, t, ts, inside, after, right, htok, -, -, -, -, -, rfl⟩ :=
    exists_of_extractClause h
  have hcut : tokenize s = (before ++ t :: ts) ++ (inside ++ after) := by simpa using htok
  exact CutOut.of_append hcut

/-- What stands in the parentheses around a text can be cut out. -/
theorem cutOut_stripOuterParens? (h : stripOuterParens? s = some part) : CutOut s.trim part := by
  obtain ⟨o, inside, c, htok, -, -, -, rfl⟩ := stripOuterParens?_eq_some_iff.1 h
  have hcut : tokenize s.trim = [o] ++ (inside ++ [c]) := htok
  exact CutOut.of_append hcut

theorem cutOut_subqueryBody? (h : subqueryBody? s = some part) : CutOut s.trim part := by
  rw [subqueryBody?, Option.filter_eq_some_iff] at h
  exact cutOut_stripOuterParens? h.1

end Cut

/-- The text before the start of a token has the tokens before it. -/
theorem located_before {s g rest : Text} {ts us : List Token} (h : tokenize s = ts ++ us)
    (hs : s = render ts ++ (g ++ rest)) (hg : ∀ c ∈ g, Text.isGap c = true) :
    located (render ts ++ g) = (located s).take ts.length := by
  rw [Scanner.located_eq, Scanner.located_eq, h, tokenize_render_gap h hs hg,
    Scanner.place_append, List.take_left' (Scanner.length_place 0 ts)]

/-- The text from the start of a token on has the tokens from there on, with their spans counted
from the cut. -/
theorem located_behind {s rest : Text} {ts : List Token} {t : Token}
    (h : tokenize s = ts ++ t :: tokenize rest) (ht : t.Reads rest) :
    (located (t.text ++ rest)).map (movedOn (render ts ++ t.gap).byteSize) =
      ((located s).drop ts.length).map (movedOn 0) := by
  have hright : tokenize (t.text ++ rest) = { t with gap := [] } :: tokenize rest := by
    have := tokenize_written_append (ht.with_gap (g := []) (by simp))
    rwa [written, List.nil_append] at this
  rw [Scanner.located_eq, Scanner.located_eq, h, hright, Scanner.place_append,
    List.drop_left' (Scanner.length_place 0 ts), map_movedOn_place, Scanner.place_cons,
    Scanner.place_cons]
  simp [movedOn, written, Nat.add_assoc]

/-- A text can be cut at the start of any of its tokens: each side is read as it was in the whole
text. Every clause, item and condition, and the text of every group, is cut out of a text between
two places among its tokens. -/
theorem located_cut (s : Text) :
    (∀ (k : Nat) (p : Token × Span), (located s)[k]? = some p → ∃ left right,
      s.takeBytes? p.2.start = some left ∧ s.dropBytes? p.2.start = some right ∧
        located left = (located s).take k ∧
        (located right).map (movedOn p.2.start) = ((located s).drop k).map (movedOn 0)) ∧
    (∀ (start : Text) (ends : List Text), ∀ body ∈ extractClause start ends s, CutOut s body) ∧
    (∀ item ∈ splitItems s, CutOut s item) ∧
    (∀ condition ∈ splitConditions s, CutOut s condition) ∧
    (∀ inside ∈ stripOuterParens? s, CutOut s.trim inside) ∧
    ∀ query ∈ subqueryBody? s, CutOut s.trim query := by
  refine ⟨fun k p hp => ?_, fun _ _ _ => cutOut_extractClause,
    fun _ h => cutOut_of_mem_splitParts Kind.isComma rfl h,
    fun _ h => cutOut_of_mem_splitParts Kind.isConnective rfl h,
    fun _ => cutOut_stripOuterParens?, fun _ => cutOut_subqueryBody?⟩
  obtain ⟨hk, hget⟩ := List.getElem?_eq_some_iff.1 hp
  have hsplit : located s = (located s).take k ++ p :: (located s).drop (k + 1) := by
    rw [← hget, ← List.drop_eq_getElem_cons hk, List.take_append_drop]
  obtain ⟨ts, us, rest, hbefore, -, htok, hs, hreads, rfl, hstart, -⟩ := exists_of_located hsplit
  have hlength : ts.length = k := by
    rw [← hbefore, List.length_map, List.length_take_of_le (Nat.le_of_lt hk)]
  rw [List.append_assoc] at hs
  have hcut : s = render ts ++ (p.1.gap ++ (p.1.text ++ rest)) := by rw [hs, List.append_assoc]
  refine ⟨render ts ++ p.1.gap, p.1.text ++ rest, ?_, ?_, ?_, ?_⟩
  · rw [hstart, hs, Text.takeBytes?_append]
  · rw [hstart, hs, Text.dropBytes?_append]
  · rw [located_before htok hcut hreads.gap, hlength]
  · rw [hstart, located_behind htok hreads, hlength]

/-- An open quote before a line break, an operator of two characters, and a number before a dot. -/
def openQuoteLine : Text :=
  "'a\\\n <=12.x".toList

/-- A line with a quote that is left open is cut before the dot in it. -/
theorem located_cut_openQuoteLine :
    (located openQuoteLine)[4]? = some (⟨[], .dot, ['.']⟩, ⟨9, 10⟩) ∧ ∃ left right,
      openQuoteLine.takeBytes? 9 = some left ∧ openQuoteLine.dropBytes? 9 = some right ∧
        located left = (located openQuoteLine).take 4 ∧
        (located right).map (movedOn 9) = ((located openQuoteLine).drop 4).map (movedOn 0) := by
  have hdot : (located openQuoteLine)[4]? = some (⟨[], .dot, ['.']⟩, ⟨9, 10⟩) := by decide +kernel
  exact ⟨hdot, (located_cut openQuoteLine).1 4 _ hdot⟩

end Soql
