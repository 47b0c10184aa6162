import Mathlib.Data.List.Forall2
import Soql.Proofs.Token.Parts
import Soql.Proofs.Token.Single

/-!
# Texts that are written one behind the other

A query is written by putting texts behind each other with a blank, a comma or a connective
between them. Where every quoted text is closed, the tokens of the whole are those of its parts;
blanks at the ends of a part go to the token behind it. So the parts can be found again: in a query
by the keywords between them, in a list or a chain of conditions by splitting.
-/

namespace Soql

open Kind Token List

/-- The kinds of the tokens of a text. -/
def kindsOf (s : Text) : List Kind :=
  kinds (tokenize s)

@[simp] theorem kindsOf_nil : kindsOf [] = [] := by
  rw [kindsOf, tokenize_nil, kinds_nil]

theorem ne_nil_of_kindsOf {s : Text} {k : Kind} {ks : List Kind} (h : kindsOf s = k :: ks) :
    s ≠ [] := by
  rintro rfl
  rw [kindsOf_nil] at h
  cases h

theorem Text.join_ne_nil (sep : Text) {x : Text} (hx : x ≠ []) (xs : List Text) :
    Text.join sep (x :: xs) ≠ [] := by
  cases xs with
  | nil => exact hx
  | cons y xs =>
    rw [Text.join, List.append_assoc]
    exact fun hnil => hx (List.append_eq_nil_iff.1 hnil).1

theorem Text.tight_join {sep : Text} {xs : List Text} (h : ∀ x ∈ xs, x.Tight ∧ x ≠ []) :
    (Text.join sep xs).Tight := by
  match xs with
  | [] => exact Piece.nil.tight
  | [x] => exact (h x (by simp)).1
  | x :: y :: xs =>
    obtain ⟨hx, hne⟩ := h x (by simp)
    have hrest : (Text.join sep (y :: xs)).Tight := Text.tight_join fun z hz => h z (by simp [hz])
    have hne' : Text.join sep (y :: xs) ≠ [] := Text.join_ne_nil sep (h y (by simp)).2 xs
    constructor
    · intro c hc
      rw [Text.join, List.append_assoc, List.head?_append_of_ne_nil _ hne] at hc
      exact hx.first c hc
    · intro c hc
      rw [Text.join, List.getLast?_append_of_ne_nil _ hne'] at hc
      exact hrest.last c hc

/-- The tokens are those of a text, with further blanks before the first one. -/
def Written (s : Text) (ts : List Token) : Prop :=
  ∃ g : Text, (∀ c ∈ g, Text.isGap c = true) ∧ ts = indent g (tokenize s)

theorem written_tokenize (s : Text) : Written s (tokenize s) :=
  ⟨[], by simp, (indent_nil _).symm⟩

/-- Blanks before the first token are of no kind. -/
theorem Written.kinds_eq {s : Text} {ts : List Token} (h : Written s ts) :
    kinds ts = kindsOf s := by
  obtain ⟨g, -, rfl⟩ := h
  exact kinds_indent g _

theorem Written.hasUnclosed_eq {s : Text} {ts : List Token} (h : Written s ts) :
    hasUnclosed ts = hasUnclosed (tokenize s) := by
  obtain ⟨g, -, rfl⟩ := h
  exact hasUnclosed_indent g _

/-- They are lost when the text of the tokens is trimmed. -/
theorem Written.trim_render {s : Text} {ts : List Token} (h : Written s ts) :
    (render ts).trim = s.trim := by
  obtain ⟨g, hg, rfl⟩ := h
  obtain ⟨g', hs, hg'⟩ := exists_eq_render_append s
  have htrim : (render (tokenize s)).trim = s.trim := by
    conv => rhs; rw [hs]
    exact (Text.trim_append_of_blank _ fun c hc => Text.isBlank_of_isGap (hg' c hc)).symm
  rw [← htrim]
  cases tokenize s with
  | nil => rfl
  | cons t ts =>
    simp only [indent, render_cons, Token.written, List.append_assoc]
    exact Text.trim_append_blank_left (fun c hc => Text.isBlank_of_isGap (hg c hc)) _

/-- More of them can be put in front. -/
theorem Written.indent {s g : Text} {ts : List Token} (hg : ∀ c ∈ g, Text.isGap c = true)
    (h : Written s ts) : Written s (indent g ts) := by
  obtain ⟨g', hg', rfl⟩ := h
  refine ⟨g ++ g', fun c hc => ?_, ?_⟩
  · rcases List.mem_append.1 hc with hc | hc
    · exact hg c hc
    · exact hg' c hc
  · cases tokenize s with
    | nil => rfl
    | cons t ts => simp [Token.indent]

section Space

variable {x : Text} (hx : Closed x) (y : Text)

include hx

/-- Behind a blank a text is read as it is by itself. -/
theorem exists_tokenize_space :
    ∃ ts, Written y ts ∧ tokenize (x ++ ' ' :: y) = tokenize x ++ ts := by
  obtain ⟨g, -, hg, htok⟩ := tokenize_append hx (y := ' ' :: y) (by rfl)
  refine ⟨_, ?_, htok⟩
  rw [tokenize_gap_append hg, tokenize_space_cons]
  exact (Written.indent (by simp [Text.isGap]) (written_tokenize y)).indent hg

/-- Two texts with a blank between them have their kinds one after the other. -/
theorem kindsOf_space : kindsOf (x ++ ' ' :: y) = kindsOf x ++ kindsOf y := by
  obtain ⟨ts, hts, htok⟩ := exists_tokenize_space hx y
  rw [kindsOf, htok, kinds_append, hts.kinds_eq]
  rfl

theorem Closed.space (hy : Closed y) : Closed (x ++ ' ' :: y) := by
  obtain ⟨ts, hts, htok⟩ := exists_tokenize_space hx y
  rw [Closed, htok, hasUnclosed_append, hx, hts.hasUnclosed_eq, hy]
  rfl

end Space

theorem Kind.no_group_of_isComma {k : Kind} (h : k.isComma = true) :
    k ≠ .openParen ∧ k ≠ .closeParen := by
  constructor <;> (rintro rfl; cases h)

theorem Kind.no_group_of_isConnective {k : Kind} (h : k.isConnective = true) :
    k ≠ .openParen ∧ k ≠ .closeParen := by
  constructor <;> (rintro rfl; cases h)

theorem tokenize_AND : tokenize "AND".toList = [⟨[], .keyword .AND, "AND".toList⟩] := by
  decide +kernel

/-- A text that is read as a separator between any two texts. -/
structure Separator (text : Text) (sep : Kind → Bool) : Prop where
  not_open : sep .openParen = false
  tokens {x : Text} (hx : Closed x) (y : Text) : ∃ c ts, sep c.kind = true ∧
    c.kind ≠ .unclosed ∧ Written y ts ∧ tokenize (x ++ text ++ y) = tokenize x ++ c :: ts

/-- A comma and a blank separate items. -/
theorem separator_comma : Separator ", ".toList Kind.isComma := by
  refine ⟨rfl, fun {x} hx y => ?_⟩
  obtain ⟨g, -, hg, htok⟩ := tokenize_append hx (y := ',' :: ' ' :: y) (by rfl)
  rw [tokenize_gap_append hg, tokenize_standalone_cons (by simp [standalone]),
    tokenize_space_cons] at htok
  refine ⟨⟨g ++ [], .comma, [',']⟩, Token.indent [' '] (tokenize y), rfl, by simp, ?_, ?_⟩
  · exact (written_tokenize y).indent (g := [' ']) (by simp [Text.isGap])
  · rw [List.append_assoc]
    exact htok

/-- What is a separator is one in a wider sense, too. -/
theorem Separator.mono {text : Text} {sep sep' : Kind → Bool} (h : Separator text sep)
    (hopen : sep' .openParen = false) (hsep : ∀ k, sep k = true → sep' k = true) :
    Separator text sep' := by
  refine ⟨hopen, fun hx y => ?_⟩
  obtain ⟨c, ts, hc, hrest⟩ := h.tokens hx y
  exact ⟨c, ts, hsep _ hc, hrest⟩

/-- The word `AND` between blanks is read as itself, whatever stands around it. -/
theorem separator_and_word : Separator " AND ".toList (· == .keyword .AND) := by
  refine ⟨rfl, fun {x} hx y => ?_⟩
  have hand : Closed "AND".toList := by rw [Closed, tokenize_AND]; rfl
  obtain ⟨us, ⟨g, hg, rfl⟩, htok⟩ := exists_tokenize_space hx ("AND".toList ++ ' ' :: y)
  obtain ⟨ts, hts, htok'⟩ := exists_tokenize_space hand y
  rw [htok', tokenize_AND] at htok
  refine ⟨⟨g ++ [], .keyword .AND, "AND".toList⟩, ts, rfl, by simp, hts, ?_⟩
  rw [List.append_assoc]
  exact htok

/-- An `AND` between blanks separates conditions. -/
theorem separator_and : Separator " AND ".toList Kind.isConnective := by
  refine separator_and_word.mono rfl fun k hk => ?_
  rw [beq_iff_eq.1 hk]
  rfl

section Join

variable {text : Text} {sep : Kind → Bool} (hsep : Separator text sep)

include hsep

/-- Texts that are joined by a separator are its parts, as long as each keeps the separator inside
parentheses and the parentheses of all but the last are closed. -/
theorem Separator.splits_join {x : Text} {xs : List Text} (hclosed : ∀ y ∈ x :: xs, Closed y)
    (hclear : ∀ y ∈ x :: xs, Clear (headIs sep) 0 (kindsOf y) [])
    (htop : ∀ y ∈ (x :: xs).dropLast, depth 0 (kindsOf y) = 0) {ts : List Token}
    (hts : Written (Text.join text (x :: xs)) ts) :
    ∃ part parts, Splits sep 0 ts part parts ∧ Forall₂ Written (x :: xs) (part :: parts) := by
  induction xs generalizing x ts with
  | nil =>
    refine ⟨ts, [], .last ?_, .cons hts .nil⟩
    rw [hts.kinds_eq]
    exact hclear x (by simp)
  | cons y xs ih =>
    obtain ⟨c, us, hc, -, hus, htok⟩ := hsep.tokens (hclosed x (by simp)) (Text.join text (y :: xs))
    obtain ⟨next, parts, hsplit, hwritten⟩ := ih (fun z hz => hclosed z (by simp [hz]))
      (fun z hz => hclear z (by simp [hz])) (fun z hz => htop z (by simp [hz])) hus
    obtain ⟨g, hg, rfl⟩ := hts
    rw [Text.join, htok]
    -- blanks before the first part go to the separator when that part has no tokens
    cases hx : tokenize x with
    | nil =>
      refine ⟨[], next :: parts, ?_, .cons ?_ hwritten⟩
      · exact Splits.more (show Clear (headIs sep) 0 (kinds []) [] from trivial) rfl hc hsplit
      · exact ⟨[], by simp, by rw [hx]; rfl⟩
    | cons t vs =>
      have hwx : Written x (indent g (t :: vs)) := ⟨g, hg, by rw [hx]⟩
      refine ⟨indent g (t :: vs), next :: parts, ?_, .cons hwx hwritten⟩
      have hx' : Clear (headIs sep) 0 (kinds (indent g (t :: vs))) [] := by
        rw [hwx.kinds_eq]
        exact hclear x (by simp)
      refine .more hx' ?_ hc hsplit
      rw [hwx.kinds_eq]
      exact htop x (by simp)

/-- Joined texts that hold no separator and close what they open are told apart again. -/
theorem Separator.splitParts_join {xs : List Text} (hclosed : ∀ y ∈ xs, Closed y)
    (hclear : ∀ y ∈ xs, Clear (headIs sep) 0 (kindsOf y) [])
    (htop : ∀ y ∈ xs.dropLast, depth 0 (kindsOf y) = 0) :
    splitParts (fun t => sep t.kind) (Text.join text xs) =
      (xs.map Text.trim).filter (!·.isEmpty) := by
  cases xs with
  | nil =>
    have hnil : Splits sep 0 (tokenize (Text.join text [])) [] [] := by
      rw [Text.join, tokenize_nil]
      exact .last trivial
    rw [splitParts_of_splits hsep.not_open hnil]
    rfl
  | cons x xs =>
    obtain ⟨part, parts, hsplit, hwritten⟩ :=
      hsep.splits_join hclosed hclear htop (written_tokenize _)
    rw [splitParts_of_splits hsep.not_open hsplit]
    congr 1
    have hmap := hwritten.imp fun _ _ h => h.trim_render
    clear hsplit hclosed hclear htop
    generalize x :: xs = ys at hwritten hmap ⊢
    generalize part :: parts = us at hwritten hmap ⊢
    clear hwritten
    induction hmap with
    | nil => rfl
    | cons h _ ih => rw [List.map_cons, List.map_cons, h, ih]

/-- No quote is left open by closed texts. -/
theorem Separator.closed_join {xs : List Text} (hclosed : ∀ y ∈ xs, Closed y) :
    Closed (Text.join text xs) := by
  match xs with
  | [] => exact Piece.nil.closed
  | [x] => exact hclosed x (by simp)
  | x :: y :: xs =>
    obtain ⟨c, us, -, hc, hus, htok⟩ := hsep.tokens (hclosed x (by simp)) (Text.join text (y :: xs))
    have hrest : Closed (Text.join text (y :: xs)) :=
      Separator.closed_join fun z hz => hclosed z (by simp [hz])
    rw [Closed, Text.join, htok, hasUnclosed_append, hasUnclosed_cons, hus.hasUnclosed_eq, hrest,
      hclosed x (by simp)]
    simpa using hc

/-- No parenthesis is left open by balanced texts. -/
theorem Separator.balanced_join (hgroup : ∀ k, sep k = true → k ≠ .openParen ∧ k ≠ .closeParen)
    {xs : List Text} (hclosed : ∀ y ∈ xs, Closed y) (h : ∀ y ∈ xs, Balanced (kindsOf y)) :
    Balanced (kindsOf (Text.join text xs)) := by
  match xs with
  | [] =>
    rw [Text.join, kindsOf_nil]
    rfl
  | [x] => exact h x (by simp)
  | x :: y :: xs =>
    obtain ⟨c, us, hc, -, hus, htok⟩ := hsep.tokens (hclosed x (by simp)) (Text.join text (y :: xs))
    have hrest : Balanced (kindsOf (Text.join text (y :: xs))) :=
      Separator.balanced_join hgroup (fun z hz => hclosed z (by simp [hz])) fun z hz =>
        h z (by simp [hz])
    obtain ⟨hopen, hclose⟩ := hgroup c.kind hc
    rw [kindsOf, Text.join, htok, kinds_append, kinds_cons, hus.kinds_eq]
    exact .append (h x (by simp)) (.cons hopen hclose hrest)

/-- A search that stops at no separator passes over joined texts if it passes over each. -/
theorem Separator.passes_join {f : List Kind → Bool}
    (hf : ∀ k ks, sep k = true → f (k :: ks) = false ∧ k.depthAfter 0 = 0 ∧ k ≠ .keyword .BY)
    {xs : List Text} (hclosed : ∀ y ∈ xs, Closed y) (h : ∀ y ∈ xs, Passes f (kindsOf y)) :
    Passes f (kindsOf (Text.join text xs)) := by
  match xs with
  | [] =>
    rw [Text.join, kindsOf_nil]
    exact passes_nil
  | [x] => exact h x (by simp)
  | x :: y :: xs =>
    obtain ⟨c, us, hc, -, hus, htok⟩ := hsep.tokens (hclosed x (by simp)) (Text.join text (y :: xs))
    have hrest : Passes f (kindsOf (Text.join text (y :: xs))) :=
      Separator.passes_join hf (fun z hz => hclosed z (by simp [hz])) fun z hz => h z (by simp [hz])
    obtain ⟨-, hdepth, hby⟩ := hf c.kind [] hc
    rw [kindsOf, Text.join, htok, kinds_append, kinds_cons, hus.kinds_eq]
    refine (h x (by simp)).append (.cons (fun ls => (hf c.kind ls hc).1) hdepth hrest) ?_
    simpa using hby

/-- A token other than a separator stands in joined texts if it stands in one of them. -/
theorem Separator.mem_kindsOf_join {k : Kind} (hk : sep k = false) {xs : List Text}
    (hclosed : ∀ y ∈ xs, Closed y) :
    k ∈ kindsOf (Text.join text xs) ↔ ∃ y ∈ xs, k ∈ kindsOf y := by
  match xs with
  | [] => simp [Text.join]
  | [x] => simp [Text.join]
  | x :: y :: xs =>
    obtain ⟨c, us, hc, -, hus, htok⟩ := hsep.tokens (hclosed x (by simp)) (Text.join text (y :: xs))
    have hrest : k ∈ kindsOf (Text.join text (y :: xs)) ↔ ∃ z ∈ y :: xs, k ∈ kindsOf z :=
      Separator.mem_kindsOf_join hk fun z hz => hclosed z (by simp [hz])
    have hne : k ≠ c.kind := by
      rintro rfl
      rw [hk] at hc
      cases hc
    rw [kindsOf, Text.join, htok, kinds_append, kinds_cons, hus.kinds_eq, List.mem_append,
      List.mem_cons, or_iff_right hne, hrest, List.exists_mem_cons_iff (a := x)]
    rfl

end Join

/-- A list is taken apart into the items that it is made of. -/
theorem splitItems_join {xs : List Text} (h : ∀ x ∈ xs, Piece x ∧ x ≠ [])
    (hclear : ∀ x ∈ xs, Clear (headIs Kind.isComma) 0 (kindsOf x) [])
    (htop : ∀ x ∈ xs.dropLast, depth 0 (kindsOf x) = 0) :
    splitItems (Text.join ", ".toList xs) = xs := by
  have hmap : xs.map Text.trim = xs :=
    (List.map_congr_left fun x hx => (h x hx).1.tight.trim_eq).trans (List.map_id' xs)
  rw [splitItems_eq, separator_comma.splitParts_join (fun x hx => (h x hx).1.closed) hclear htop,
    hmap, List.filter_eq_self]
  intro x hx
  simpa using (h x hx).2

/-- Texts with single blanks between them are read one after the other. -/
theorem exists_flatten_of_join_space {xs : List Text} (hclosed : ∀ y ∈ xs, Closed y)
    {ts : List Token} (hts : Written (Text.join [' '] xs) ts) :
    ∃ tss, Forall₂ Written xs tss ∧ ts = tss.flatten := by
  match xs with
  | [] =>
    obtain ⟨g, -, rfl⟩ := hts
    exact ⟨[], .nil, by rw [Text.join, tokenize_nil]; rfl⟩
  | [x] => exact ⟨[ts], .cons hts .nil, by simp⟩
  | x :: y :: xs =>
    obtain ⟨us, hus, htok⟩ :=
      exists_tokenize_space (hclosed x (by simp)) (Text.join [' '] (y :: xs))
    have hrest : ∀ z ∈ y :: xs, Closed z := fun z hz => hclosed z (by simp [hz])
    have htext : Text.join [' '] (x :: y :: xs) = x ++ ' ' :: Text.join [' '] (y :: xs) := by
      simp [Text.join]
    obtain ⟨g, hg, rfl⟩ := hts
    rw [htext, htok]
    -- blanks before the first text go to the next one when the first has no tokens
    cases hx : tokenize x with
    | nil =>
      obtain ⟨tss, htss, hflat⟩ := exists_flatten_of_join_space hrest (hus.indent hg)
      exact ⟨[] :: tss, .cons ⟨[], by simp, by rw [hx]; rfl⟩ htss, hflat⟩
    | cons t vs =>
      obtain ⟨tss, htss, rfl⟩ := exists_flatten_of_join_space hrest hus
      exact ⟨Token.indent g (t :: vs) :: tss, .cons ⟨g, hg, by rw [hx]⟩ htss, rfl⟩

theorem closed_join_space {xs : List Text} (h : ∀ y ∈ xs, Closed y) :
    Closed (Text.join [' '] xs) := by
  match xs with
  | [] => exact Piece.nil.closed
  | [x] => exact h x (by simp)
  | x :: y :: xs =>
    have htext : Text.join [' '] (x :: y :: xs) = x ++ ' ' :: Text.join [' '] (y :: xs) := by
      simp [Text.join]
    rw [htext]
    exact Closed.space (h x (by simp)) _ (closed_join_space fun z hz => h z (by simp [hz]))

end Soql
