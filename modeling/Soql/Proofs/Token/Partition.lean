import Soql.Proofs.Token.Join
import Soql.Proofs.Token.Place

/-!
# Taking a text apart

The parts of a list or of a chain of conditions lie in their text one behind the other, and only
blanks and separators outside parentheses lie between them (`Laid`). No separator stands outside
parentheses in a part, also when the part is read again without its neighbours, so it is its own
only part. And the parts, joined again, are the parts of what results, unless a quoted text is open.
-/

namespace Soql

open Kind Token

/-- The tokens are a single separator. -/
def Token.IsSeparator (sep : Kind → Bool) (ts : List Token) : Prop :=
  ∃ t : Token, ts = [t] ∧ sep t.kind = true

/-- The parts lie in a text in order, with nothing between them but blanks and separators at top
level. The text is cut in two: what follows `left` is laid out. -/
inductive Laid (sep : Kind → Bool) : Text → Text → List Text → Prop
  | done {left : Text} : Laid sep left [] []
  | blank {left g rest : Text} {parts : List Text} (isBlank : ∀ c ∈ g, Text.isBlank c = true)
      (laid : Laid sep (left ++ g) rest parts) : Laid sep left (g ++ rest) parts
  | separator {left text rest : Text} {parts : List Text}
      (stands : StandsTop (IsSeparator sep) left text rest)
      (laid : Laid sep (left ++ text) rest parts) : Laid sep left (text ++ rest) parts
  | part {left text rest : Text} {parts : List Text}
      (laid : Laid sep (left ++ text) rest parts) : Laid sep left (text ++ rest) (text :: parts)

/-- What it means that a text is taken apart at all of its separators, without loss, and stays so:
its parts lie in it one behind the other, they are not blank at their ends, none of them has a
separator at top level or can be taken apart further, and joined they are the parts again. -/
structure Partition (sep : Kind → Bool) (glue : Text) (split : Text → List Text) (s : Text) :
    Prop where
  laid : Laid sep [] s (split s)
  tight : ∀ part ∈ split s, part ≠ [] ∧ part.Tight
  whole : ∀ part ∈ split s, Clear (headIs sep) 0 (kindsOf part) []
  again : ∀ part ∈ split s, split part = [part]
  joined : Closed s → split (Text.join glue (split s)) = split s

section Laid

variable {sep : Kind → Bool}

/-- A stretch of text is its trimmed text with blanks around it, or is blank. -/
theorem Laid.stretch {left text rest : Text} {parts : List Text}
    (h : Laid sep (left ++ text) rest parts) :
    Laid sep left (text ++ rest) ([text.trim].filter (!·.isEmpty) ++ parts) := by
  by_cases hnil : text.trim = []
  · simpa [hnil] using h.blank (Text.trim_eq_nil_iff.1 hnil)
  · obtain ⟨g, g', htext, hg, hg'⟩ := Text.exists_eq_append_trim text
    have hpart : Laid sep (left ++ g) (text.trim ++ (g' ++ rest)) (text.trim :: parts) := by
      refine .part (.blank hg' ?_)
      rw [List.append_assoc left, List.append_assoc left, ← htext]
      exact h
    have := hpart.blank hg
    rw [← List.append_assoc, ← List.append_assoc, ← htext] at this
    simpa [hnil] using this

/-- The texts of parts, without blanks at their ends and without the empty ones. -/
def Token.partTexts (parts : List (List Token)) : List Text :=
  (parts.map fun ts => (render ts).trim).filter (!·.isEmpty)

theorem Token.partTexts_cons (part : List Token) (parts : List (List Token)) :
    partTexts (part :: parts) = [(render part).trim].filter (!·.isEmpty) ++ partTexts parts := by
  rw [partTexts, partTexts, ← List.filter_append]
  rfl

/-- The parts that separators leave lie where their tokens stand. -/
theorem Token.Splits.laid (hopen : sep .openParen = false) {ts part : List Token}
    {parts : List (List Token)} (h : Splits sep 0 ts part parts) {before : List Token}
    {behind : Text} (htok : tokenize (render before ++ (render ts ++ behind)) = before ++ ts)
    (htop : depth 0 (kinds before) = 0) (hbehind : ∀ c ∈ behind, Text.isBlank c = true) :
    Laid sep (render before) (render ts ++ behind) (partTexts (part :: parts)) := by
  generalize hd : 0 = d at h
  induction h generalizing before with
  | @last d ts clear =>
    have hend : Laid sep (render before ++ render ts) (behind ++ []) [] := .blank hbehind .done
    rw [List.append_nil] at hend
    rw [partTexts_cons]
    exact hend.stretch
  | @more d part t ts next parts clear top isSep rest ih =>
    subst hd
    have ht : t.kind.depthAfter 0 = 0 := by
      cases hk : t.kind <;> first | rfl | (rw [hk, hopen] at isSep; cases isSep)
    have hbefore : depth 0 (kinds (before ++ part)) = 0 := by
      rw [kinds_append, depth_append, htop, top]
    replace htok : tokenize (render before ++ (render (part ++ t :: ts) ++ behind)) =
        before ++ part ++ t :: ([] ++ ts) := by
      rw [htok, List.append_assoc, List.nil_append]
    have hsep : IsSeparator sep [t] := ⟨t, rfl, isSep⟩
    obtain ⟨right, hs, hright, hstands⟩ := exists_standsTop htok hbefore hsep
    obtain ⟨_, -, hreads, -⟩ := exists_reads_of_append htok
    obtain rfl : right = render ts ++ behind := by simpa [written] using hs.symm
    have hnext : Laid sep (render (before ++ part ++ [t])) (render ts ++ behind)
        (partTexts (next :: parts)) := by
      refine ih ?_ ?_ rfl
      · simpa [written] using htok
      · rw [kinds_append, depth_append, hbefore]
        exact ht
    have hpart : Laid sep (render before ++ (render part ++ t.gap))
        (t.text ++ (render ts ++ behind)) (partTexts (next :: parts)) := by
      refine .separator ?_ ?_
      · simpa using hstands
      · simpa [written] using hnext
    have htrim : (render part ++ t.gap).trim = (render part).trim :=
      Text.trim_append_of_blank _ (isBlank_of_gap hreads)
    have := hpart.stretch
    rw [htrim, ← partTexts_cons] at this
    simpa [written] using this

/-- The parts of a text are laid out in it, with separators between them. -/
theorem laid_splitParts (hopen : sep .openParen = false) (s : Text) :
    Laid sep [] s (splitParts (fun t => sep t.kind) s) := by
  obtain ⟨part, parts, hsplit⟩ := exists_splits sep hopen (tokenize s)
  obtain ⟨g, hs, hg⟩ := exists_eq_render_append s
  have hlaid : Laid sep (render []) (render (tokenize s) ++ g) (partTexts (part :: parts)) := by
    refine hsplit.laid hopen ?_ rfl fun c hc => Text.isBlank_of_isGap (hg c hc)
    rw [render_nil, List.nil_append, ← hs, List.nil_append]
  rw [← hs] at hlaid
  rw [splitParts_of_splits hopen hsplit]
  exact hlaid

end Laid

section Again

variable {sep : Kind → Bool} (hopen : sep .openParen = false)
  (hinert : ∀ k : Kind, k.isInert = true → sep k = false)

include hinert

/-- A search for a separator that is not inert is firm. -/
theorem firm_headIs : Firm fun ts => headIs sep (kinds ts) := by
  refine ⟨rfl, fun {ts us} hshows hfound rest => ?_⟩
  cases hshows with
  | inert inert =>
    cases us with
    | nil => cases hfound
    | cons u us =>
      rw [kinds_cons, headIs_cons, hinert _ (inert u (by simp))] at hfound
      cases hfound
  | cons kind _ _ =>
    rw [kinds_cons, headIs_cons] at hfound
    rw [List.cons_append, kinds_cons, headIs_cons, kind, hfound]

include hopen

/-- No separator appears in a part that is read again. -/
theorem clear_of_mem_splitParts {s part : Text} (h : part ∈ splitParts (fun t => sep t.kind) s) :
    part ≠ [] ∧ part.Tight ∧ Clear (headIs sep) 0 (kindsOf part) [] := by
  obtain ⟨first, parts, hsplit⟩ := exists_splits sep hopen (tokenize s)
  rw [splitParts_of_splits hopen hsplit] at h
  obtain ⟨hmem, hne⟩ := List.mem_filter.1 h
  obtain ⟨ts, hts, rfl⟩ := List.mem_map.1 hmem
  obtain ⟨before, after, htok, -, hclear, -⟩ := hsplit.exists_of_mem hopen hts
  obtain ⟨rest, -, hrest⟩ := exists_of_tokenize_append htok
  refine ⟨by simpa using hne, Text.tight_trim _, ?_⟩
  have habsent : Absent (fun us => headIs sep (kinds us)) 0 (tokenize (render ts)) [] := by
    rw [tokenize_render_of_append hrest]
    exact absent_kinds_iff.2 hclear
  exact absent_kinds_iff.1 ((firm_headIs hinert).absent_trim habsent)

/-- A part is not taken apart further. -/
theorem splitParts_of_mem_splitParts {s part : Text}
    (h : part ∈ splitParts (fun t => sep t.kind) s) :
    splitParts (fun t => sep t.kind) part = [part] := by
  obtain ⟨hne, htight, hclear⟩ := clear_of_mem_splitParts hopen hinert h
  exact splitParts_of_clear hopen htight hne hclear

end Again

section Join

variable {glue : Text} {sep : Kind → Bool}

theorem sublist_dropLast {α : Type} {xs ys : List α} (h : xs.Sublist ys) :
    xs.dropLast.Sublist ys.dropLast := by
  have := (List.reverse_sublist.2 h).tail
  rwa [List.tail_reverse, List.tail_reverse, List.reverse_sublist] at this

/-- Only the last part may leave a parenthesis open. -/
theorem Token.Splits.depth_of_mem_dropLast {ts part : List Token} {parts : List (List Token)}
    (h : Splits sep 0 ts part parts) :
    ∀ p ∈ (part :: parts).dropLast, depth 0 (kinds p) = 0 := by
  generalize hd : 0 = d at h
  induction h with
  | last clear => simp
  | more clear top isSep rest ih =>
    subst hd
    intro p hp
    rw [List.dropLast_cons_cons, List.mem_cons] at hp
    rcases hp with rfl | hp
    · exact top
    · exact ih rfl p hp

/-- The blanks around some tokens have no depth. -/
theorem Token.Stretch.depth_trimmed {ts : List Token} (h : Stretch ts) :
    depth 0 (kinds (Token.trimmed ts)) = depth 0 (kinds ts) := by
  obtain ⟨ks, ls, hts, hks, hls⟩ := h.exists_kinds_trimmed
  rw [hts, depth_append, depth_append, depth_of_all hks, depth_of_all hls]

/-- The parts of a text, joined by a separator, are the parts of what results. -/
theorem Separator.splitParts_join_splitParts (hsep : Separator glue sep)
    (hinert : ∀ k : Kind, k.isInert = true → sep k = false) {s : Text} (hs : Closed s) :
    splitParts (fun t => sep t.kind) (Text.join glue (splitParts (fun t => sep t.kind) s)) =
      splitParts (fun t => sep t.kind) s := by
  have hparts (part : Text) (h : part ∈ splitParts (fun t => sep t.kind) s) :=
    clear_of_mem_splitParts hsep.not_open hinert h
  obtain ⟨first, parts, hsplit⟩ := exists_splits sep hsep.not_open (tokenize s)
  have hstretch := hsplit.stretch (stretch_tokenize hs)
  have heq := splitParts_of_splits hsep.not_open hsplit
  rw [hsep.splitParts_join]
  · rw [List.map_congr_left fun part h => (hparts part h).2.1.trim_eq, List.map_id',
      List.filter_eq_self]
    exact fun part h => by simpa using (hparts part h).1
  · intro part h
    rw [heq] at h
    obtain ⟨ts, hts, rfl⟩ := List.mem_map.1 (List.mem_filter.1 h).1
    exact (Piece.of_stretch (hstretch ts hts)).closed
  · exact fun part h => (hparts part h).2.2
  · intro part h
    rw [heq] at h
    have h := (sublist_dropLast List.filter_sublist).subset h
    rw [← List.map_dropLast] at h
    obtain ⟨ts, hts, rfl⟩ := List.mem_map.1 h
    have hts' := hstretch ts (List.dropLast_subset _ hts)
    rw [kindsOf, hts'.tokenize_trim, hts'.depth_trimmed]
    exact hsplit.depth_of_mem_dropLast ts hts

/-- Splitting at a separator that is no blank leaves a partition. -/
theorem Separator.partition (hsep : Separator glue sep)
    (hinert : ∀ k : Kind, k.isInert = true → sep k = false) (s : Text) :
    Partition sep glue (splitParts fun t => sep t.kind) s where
  laid := laid_splitParts hsep.not_open s
  tight part h := by
    obtain ⟨hne, htight, -⟩ := clear_of_mem_splitParts hsep.not_open hinert h
    exact ⟨hne, htight⟩
  whole _ h := (clear_of_mem_splitParts hsep.not_open hinert h).2.2
  again _ := splitParts_of_mem_splitParts hsep.not_open hinert
  joined := hsep.splitParts_join_splitParts hinert

end Join

/-- Every text is taken apart without loss at all of its separators, as a list and as a chain of
conditions. -/
theorem partition_splitItems_splitConditions (s : Text) :
    Partition Kind.isComma ", ".toList splitItems s ∧
      Partition Kind.isConnective " AND ".toList splitConditions s := by
  constructor
  · exact separator_comma.partition (fun k hk => by cases k <;> first | rfl | cases hk) s
  · exact separator_and.partition (fun k hk => by cases k <;> first | rfl | cases hk) s

/-- A list with an empty item, whose last parenthesis is left open. -/
def openList : Text :=
  "Id ,, COUNT(a, 'b, c') , (d, e".toList

/-- A chain of conditions with connectives in parentheses and in quotes. -/
def nestedChain : Text :=
  "A = 1 and\n(B = 2 OR C = 3) OR D = 'x AND y' AND (E = 5 OR F".toList

/-- A list and a chain of conditions are each taken apart, and joined again they have the same
parts. -/
theorem partition_openList :
    (Closed openList ∧
      splitItems openList = ["Id".toList, "COUNT(a, 'b, c')".toList, "(d, e".toList] ∧
      (∀ part ∈ splitItems openList, Clear (headIs Kind.isComma) 0 (kindsOf part) []) ∧
      splitItems (Text.join ", ".toList (splitItems openList)) = splitItems openList) ∧
    Closed nestedChain ∧
    splitConditions nestedChain = ["A = 1".toList, "(B = 2 OR C = 3)".toList,
      "D = 'x AND y'".toList, "(E = 5 OR F".toList] ∧
    (∀ part ∈ splitConditions nestedChain,
      Clear (headIs Kind.isConnective) 0 (kindsOf part) []) ∧
    splitConditions (Text.join " AND ".toList (splitConditions nestedChain)) =
      splitConditions nestedChain := by
  have hlist : Closed openList := by decide +kernel
  have hchain : Closed nestedChain := by decide +kernel
  obtain ⟨hitems, -⟩ := partition_splitItems_splitConditions openList
  obtain ⟨-, hconditions⟩ := partition_splitItems_splitConditions nestedChain
  exact ⟨⟨hlist, by decide +kernel, hitems.whole, hitems.joined hlist⟩, hchain,
    by decide +kernel, hconditions.whole, hconditions.joined hchain⟩

end Soql
