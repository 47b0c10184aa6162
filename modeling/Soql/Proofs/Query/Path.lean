import Soql.Proofs.Token.Characters
import Soql.Proofs.Token.Join
import Soql.Query.SelectItem

/-!
# Paths

The tokens of a path are told by their kinds: words with points between them. `Path.length?` finds
the longest path at the front. A plain name is one identifier, and a plain path is plain names
joined by points; other paths may have keywords for words and blanks around the points.
-/

namespace Soql

open Kind Token

/-- Words with points between them. -/
inductive Kind.IsPath : List Kind → Prop
  | word {k : Kind} (isWord : k.isWord = true) : IsPath [k]
  | cons {k : Kind} {ks : List Kind} (isWord : k.isWord = true) (rest : IsPath ks) :
      IsPath (k :: .dot :: ks)

namespace Kind.IsPath

variable {ks : List Kind}

/-- A path starts with a name. -/
theorem isWord_head (h : IsPath ks) : ∃ k ls, ks = k :: ls ∧ k.isWord = true := by
  cases h with
  | word isWord => exact ⟨_, [], rfl, isWord⟩
  | cons isWord rest => exact ⟨_, _, rfl, isWord⟩

/-- A path ends with a name. -/
theorem isWord_last (h : IsPath ks) : ∃ k, ks.getLast? = some k ∧ k.isWord = true := by
  induction h with
  | word isWord => exact ⟨_, rfl, isWord⟩
  | cons isWord rest ih =>
    obtain ⟨k, hk, hword⟩ := ih
    obtain ⟨l, ls, rfl, -⟩ := rest.isWord_head
    exact ⟨k, by simpa [List.getLast?_cons_cons] using hk, hword⟩

/-- A path has nothing but names and points. -/
theorem isWord_or_dot (h : IsPath ks) : ∀ k ∈ ks, k.isWord = true ∨ k = .dot := by
  induction h with
  | word isWord =>
    intro k hk
    rw [List.mem_singleton] at hk
    exact .inl (hk ▸ isWord)
  | cons isWord rest ih =>
    rintro k (_ | ⟨_, _ | ⟨_, hk⟩⟩)
    · exact .inl isWord
    · exact .inr rfl
    · exact ih k hk

/-- So it has no parentheses. -/
theorem no_group (h : IsPath ks) : ∀ k ∈ ks, k ≠ .openParen ∧ k ≠ .closeParen := by
  intro k hk
  rcases h.isWord_or_dot k hk with hword | rfl
  · constructor <;> (rintro rfl; cases hword)
  · simp

/-- A path starts with a word, and is no call. -/
theorem exists_tokenize {s : Text} (h : IsPath (kindsOf s)) : ∃ t ts, tokenize s = t :: ts ∧
    t.kind.isWord = true ∧ headIs (· == .openParen) (kinds ts) = false := by
  obtain ⟨k, ks, hk, hword⟩ := h.isWord_head
  obtain ⟨t, ts, htok, rfl, rfl⟩ := List.map_eq_cons_iff.1 hk
  refine ⟨t, ts, htok, hword, ?_⟩
  have hgroup := h.no_group
  rw [kindsOf, htok, kinds_cons] at hgroup
  cases ts with
  | nil => rfl
  | cons u ts => simpa using (hgroup u.kind (by simp)).1

end Kind.IsPath

namespace Path

/-- The path at the front is followed by nothing that it could go on with. -/
def Stops (ks : List Kind) : Prop :=
  ∀ k ls, ks = .dot :: k :: ls → k.isWord = false

theorem stops_of_headIs {ks : List Kind} (h : headIs (· == .dot) ks = false) : Stops ks := by
  rintro k ls rfl
  cases h

/-- Where no point follows, no further name does. -/
theorem tailLength_eq_zero {ts : List Token} (h : Stops (kinds ts)) : tailLength ts = 0 := by
  unfold tailLength
  split
  · next point word ts =>
    rw [if_neg]
    simp only [Bool.and_eq_true, beq_iff_eq, not_and, Bool.not_eq_true]
    intro hpoint
    exact h word.kind (kinds ts) (by rw [kinds_cons, kinds_cons, hpoint])
  · rfl

/-- A path is as long as it goes. -/
theorem length?_of_isPath {path rest : List Token} (h : Kind.IsPath (kinds path))
    (hrest : Stops (kinds rest)) : length? (path ++ rest) = some path.length := by
  generalize hks : kinds path = ks at h
  induction h generalizing path with
  | word isWord =>
    obtain ⟨t, rfl, rfl⟩ := List.map_eq_singleton_iff.1 hks
    rw [List.singleton_append, length?, if_pos isWord, tailLength_eq_zero hrest]
    rfl
  | cons isWord rest' ih =>
    obtain ⟨t, us, rfl, rfl, hus⟩ := List.map_eq_cons_iff.1 hks
    obtain ⟨point, vs, rfl, hpoint, hvs⟩ := List.map_eq_cons_iff.1 hus
    have := ih hvs
    obtain ⟨l, ls, rfl, hl⟩ := rest'.isWord_head
    obtain ⟨w, ws, rfl, rfl, -⟩ := List.map_eq_cons_iff.1 hvs
    rw [List.cons_append, length?, if_pos hl, Option.some.injEq] at this
    rw [List.cons_append, length?, if_pos isWord, List.cons_append, List.cons_append, tailLength,
      if_pos (by simp [hpoint, hl]), Option.some.injEq]
    simp only [List.length_cons] at this ⊢
    omega

/-- What is measured is a path that does not go on. -/
theorem exists_of_length? {ts : List Token} {n : Nat} (h : length? ts = some n) :
    ∃ path rest, ts = path ++ rest ∧ path.length = n ∧ Kind.IsPath (kinds path) ∧
      Stops (kinds rest) := by
  cases ts with
  | nil => cases h
  | cons t ts =>
    rw [length?] at h
    split at h
    · next hword =>
      simp only [Option.some.injEq] at h
      subst h
      fun_induction tailLength ts generalizing t with
      | case1 point word ts hpoint ih =>
        rw [Bool.and_eq_true, beq_iff_eq] at hpoint
        obtain ⟨path, rest, hts, hlength, hpath, hstops⟩ := ih word hpoint.2
        obtain ⟨k, ls, hk, -⟩ := hpath.isWord_head
        refine ⟨t :: point :: path, rest, by rw [hts]; rfl, by simp [hlength], ?_, hstops⟩
        rw [kinds_cons, kinds_cons, hpoint.1]
        exact .cons hword hpath
      | case2 point word ts hpoint =>
        refine ⟨[t], point :: word :: ts, rfl, rfl, .word hword, ?_⟩
        intro k ls heq
        simp only [kinds_cons, List.cons.injEq] at heq
        simpa [heq.1, heq.2.1] using hpoint
      | case3 ts hts =>
        refine ⟨[t], ts, rfl, rfl, .word hword, ?_⟩
        intro k ls heq
        obtain ⟨point, us, rfl, -, hus⟩ := List.map_eq_cons_iff.1 heq
        obtain ⟨word, vs, rfl, -, -⟩ := List.map_eq_cons_iff.1 hus
        exact absurd rfl (hts point word vs)
    · cases h

/-- Tokens that are measured to their end are a path. -/
theorem length?_eq_length_iff {ts : List Token} :
    length? ts = some ts.length ↔ Kind.IsPath (kinds ts) := by
  constructor
  · intro h
    obtain ⟨path, rest, hts, hlength, hpath, -⟩ := exists_of_length? h
    have hnil : rest = [] := by
      have := congrArg List.length hts
      rw [List.length_append, hlength] at this
      exact List.eq_nil_of_length_eq_zero (by omega)
    rwa [hts, hnil, List.append_nil]
  · intro h
    have := length?_of_isPath h (show Stops (kinds []) by rintro k ls heq; cases heq)
    rwa [List.append_nil] at this

end Path

namespace SelectItem

/-- A path of one name is a field, and a longer one is a lookup. -/
theorem ofPath_of_isPath {ts : List Token} (h : Kind.IsPath (kinds ts)) :
    ofPath ts = if ts.length == 1 then .field else .lookup := by
  rw [ofPath, Path.length?_eq_length_iff.2 h]
  simp

/-- Fields and lookups are paths. -/
theorem isPath_of_ofPath {ts : List Token} (h : ofPath ts = .field ∨ ofPath ts = .lookup) :
    Kind.IsPath (kinds ts) := by
  rw [← Path.length?_eq_length_iff]
  rw [ofPath] at h
  split at h
  · next n hn =>
    split at h
    · next heq => rw [hn, beq_iff_eq.1 heq]
    · rcases h with h | h <;> cases h
  · rcases h with h | h <;> cases h

section Shape

variable {s : Text} (htight : s.Tight) {t : Token} {ts : List Token} (htok : tokenize s = t :: ts)
  (hword : t.kind.isWord = true)

include htight htok hword

theorem subqueryBody?_of_isWord : (subqueryBody? s).isSome = false := by
  have hopen : t.kind ≠ .openParen := by
    intro hk
    rw [hk] at hword
    cases hword
  have hparens : stripOuterParens? s = none := by
    rw [stripOuterParens?, htight.trim_eq, htok]
    simp [hopen]
  rw [subqueryBody?, hparens]
  rfl

/-- A word with a parenthesis behind it is a call. -/
theorem ofText_of_call (hopen : headIs (· == .openParen) (kinds ts) = true) :
    ofText s = ofCall t.text := by
  rw [ofText, subqueryBody?_of_isWord htight htok hword, htok]
  cases ts with
  | nil => cases hopen
  | cons u ts =>
    have hu : (u.kind == .openParen) = true := hopen
    simp [hword, hu]

/-- Without a parenthesis behind its first word, an item is judged as a path. -/
theorem ofText_of_no_call (hopen : headIs (· == .openParen) (kinds ts) = false) :
    ofText s = ofPath (tokenize s) := by
  rw [ofText, subqueryBody?_of_isWord htight htok hword, htok]
  cases ts with
  | nil => rfl
  | cons u ts =>
    have hu : (u.kind == .openParen) = false := hopen
    simp [hu]

end Shape

/-- A path of one word is a field, a longer one leads through a relationship. -/
theorem ofText_of_isPath {s : Text} (htight : s.Tight) (h : Kind.IsPath (kindsOf s)) :
    ofText s = if (tokenize s).length == 1 then .field else .lookup := by
  obtain ⟨t, ts, htok, hword, hopen⟩ := h.exists_tokenize
  rw [ofText_of_no_call htight htok hword hopen]
  exact ofPath_of_isPath h

/-- An item that is a field or a lookup is a path. -/
theorem isPath_of_ofText {s : Text} (h : ofText s = .field ∨ ofText s = .lookup) :
    Kind.IsPath (kindsOf s) := by
  have hcall : ∀ name, ¬(ofCall name = .field ∨ ofCall name = .lookup) := by
    intro name
    rw [ofCall]
    split
    · simp
    · split <;> simp
  rw [ofText] at h
  split at h
  · rcases h with h | h <;> cases h
  · split at h
    · next t paren ts htok =>
      split at h
      · exact absurd h (hcall _)
      · rw [kindsOf, htok]
        exact isPath_of_ofPath h
    · exact isPath_of_ofPath h

end SelectItem

/-- One identifier. -/
def PlainName (s : Text) : Prop :=
  tokenize s = [⟨[], .identifier, s⟩]

instance (s : Text) : Decidable (PlainName s) :=
  inferInstanceAs (Decidable (tokenize s = [⟨[], .identifier, s⟩]))

/-- Plain names with points between them. -/
def PlainPath (s : Text) : Prop :=
  ∃ names, names ≠ [] ∧ (∀ n ∈ names, PlainName n) ∧ s = Text.join ['.'] names

/-- A name is a path. -/
theorem PlainName.plainPath {s : Text} (h : PlainName s) : PlainPath s :=
  ⟨[s], by simp, by simpa using h, rfl⟩

theorem plainPath_id : PlainPath "Id".toList :=
  PlainName.plainPath (show tokenize "Id".toList = [⟨[], .identifier, "Id".toList⟩] by
    decide +kernel)

/-- A plain name is spelled as a word that is no keyword. -/
theorem PlainName.exists_cons {s : Text} (h : PlainName s) : ∃ c t, s = c :: t ∧
    isWordStart c = true ∧ (∀ x ∈ t, isWordPart x = true) ∧ Kind.ofWord s = .identifier := by
  have hshape : Shape ⟨[], .identifier, s⟩ := by
    refine shape_of_mem (s := s) ?_ (by simp)
    rw [show tokenize s = _ from h]
    simp
  obtain ⟨c, t, htext, start, part, hkind⟩ := hshape.of_isWord rfl
  exact ⟨c, t, htext, start, part, hkind.symm⟩

theorem PlainName.isWordPart {s : Text} (h : PlainName s) : ∀ c ∈ s, isWordPart c = true := by
  obtain ⟨c, t, rfl, start, part, -⟩ := h.exists_cons
  rintro x (_ | ⟨_, hx⟩)
  · exact isWordPart_of_isWordStart start
  · exact part x hx

/-- The tokens of a plain path are identifiers and points. -/
theorem kindsOf_join_point {names : List Text} (hne : names ≠ [])
    (h : ∀ n ∈ names, PlainName n) : Kind.IsPath (kindsOf (Text.join ['.'] names)) ∧
      (∀ k ∈ kindsOf (Text.join ['.'] names), k = .identifier ∨ k = .dot) ∧
      (kindsOf (Text.join ['.'] names)).length + 1 = 2 * names.length := by
  match names with
  | [] => exact absurd rfl hne
  | [n] =>
    have hn : kindsOf n = [.identifier] := by rw [kindsOf, h n (by simp)]; rfl
    rw [Text.join, hn]
    exact ⟨.word rfl, by simp, rfl⟩
  | n :: m :: names =>
    obtain ⟨c, t, rfl, start, part, hkind⟩ := (h n (by simp)).exists_cons
    obtain ⟨hpath, hkinds, hlength⟩ := kindsOf_join_point (List.cons_ne_nil m names)
      fun x hx => h x (by simp [hx])
    have htok : kindsOf (Text.join ['.'] ((c :: t) :: m :: names)) =
        .identifier :: .dot :: kindsOf (Text.join ['.'] (m :: names)) := by
      rw [kindsOf, Text.join, List.append_assoc, List.singleton_append,
        tokenize_word_append start part _ (by rintro _ ⟨⟩; decide),
        tokenize_standalone_cons (by simp [standalone]), hkind]
      rfl
    rw [htok]
    refine ⟨.cons rfl hpath, ?_, ?_⟩
    · rintro k (_ | ⟨_, _ | ⟨_, hk⟩⟩)
      · exact .inl rfl
      · exact .inr rfl
      · exact hkinds k hk
    · simp only [List.length_cons] at hlength ⊢
      omega

/-- A path is spelled with the characters of names, and points. -/
theorem chars_of_join_point {names : List Text} (h : ∀ n ∈ names, PlainName n) :
    ∀ c ∈ Text.join ['.'] names, isWordPart c = true ∨ c = '.' := by
  intro c hc
  match names with
  | [] => cases hc
  | [n] => exact .inl ((h n (by simp)).isWordPart c hc)
  | n :: m :: names =>
    rw [Text.join, List.append_assoc, List.mem_append, List.mem_append, List.mem_singleton] at hc
    rcases hc with hc | hc | hc
    · exact .inl ((h n (by simp)).isWordPart c hc)
    · exact .inr hc
    · exact chars_of_join_point (fun x hx => h x (by simp [hx])) c hc

namespace PlainPath

variable {s : Text} (h : PlainPath s)

include h

theorem isPath : Kind.IsPath (kindsOf s) := by
  obtain ⟨names, hne, hnames, rfl⟩ := h
  exact (kindsOf_join_point hne hnames).1

/-- So is every plain path. -/
theorem chars : ∀ c ∈ s, isWordPart c = true ∨ c = '.' := by
  obtain ⟨names, -, hnames, rfl⟩ := h
  exact chars_of_join_point hnames

/-- A plain path can be a piece of a query. -/
theorem piece : Piece s := by
  refine piece_of_chars (fun c hc => ?_) fun c hc hexc => ?_
  · rcases h.chars c hc with hword | rfl
    · exact not_isBlank_of_isWordPart hword
    · rfl
  · have hfacts : ∀ d ∈ flatExceptions, isWordPart d = false ∧ d ≠ '.' := by decide
    rcases h.chars c hc with hword | hpoint
    · rw [(hfacts c hexc).1] at hword
      cases hword
    · exact (hfacts c hexc).2 hpoint

theorem kinds_eq : ∀ k ∈ kindsOf s, k = .identifier ∨ k = .dot := by
  obtain ⟨names, hne, hnames, rfl⟩ := h
  exact (kindsOf_join_point hne hnames).2.1

end PlainPath

/-- A plain name is the item of a field. -/
theorem PlainName.ofText_eq {x : Text} (h : PlainName x) : SelectItem.ofText x = .field := by
  rw [SelectItem.ofText_of_isPath h.plainPath.piece.tight h.plainPath.isPath,
    show tokenize x = _ from h]
  rfl

/-- Several names are the item of a lookup. -/
theorem ofText_join_point {names : List Text} (hlength : 2 ≤ names.length)
    (h : ∀ n ∈ names, PlainName n) : SelectItem.ofText (Text.join ['.'] names) = .lookup := by
  have hne : names ≠ [] := by
    rintro rfl
    cases hlength
  have hpath : PlainPath (Text.join ['.'] names) := ⟨names, hne, h, rfl⟩
  have hcount := (kindsOf_join_point hne h).2.2
  have htokens : ((tokenize (Text.join ['.'] names)).length == 1) = false := by
    rw [kindsOf, kinds, List.length_map] at hcount
    rw [beq_eq_false_iff_ne]
    omega
  rw [SelectItem.ofText_of_isPath hpath.piece.tight hpath.isPath, htokens]
  rfl

end Soql
