import Soql.Proofs.Query.Path
import Soql.Query.Condition

/-!
# Conditions, read and written

A condition is read as three stretches of tokens: a field, an operator and a value. The field is
a path with a closed group behind it if it is a call, so what is written as field, operator and
value is read as these three again.
-/

namespace Soql

open Kind Token

/-- A path, with a closed group in parentheses behind it if it is a call. -/
inductive Kind.IsField : List Kind → Prop
  | path {ks : List Kind} (path : IsPath ks) (first : ks.head? ≠ some (.keyword .NOT)) : IsField ks
  | call {ks inner : List Kind} (path : IsPath ks) (first : ks.head? ≠ some (.keyword .NOT))
      (group : Balanced inner) :
      IsField (ks ++ .openParen :: (inner ++ [.closeParen]))

/-- A field closes what it opens. -/
theorem Kind.IsField.balanced {ks : List Kind} (h : IsField ks) : Balanced ks := by
  cases h with
  | path path first => exact level?_of_no_group path.no_group 0
  | call path first group => exact .append (level?_of_no_group path.no_group 0) (.group group)

/-- A field starts with a word, which is not the negation. -/
theorem Kind.IsField.isWord_head {ks : List Kind} (h : IsField ks) :
    ∃ k ls, ks = k :: ls ∧ k.isWord = true ∧ k ≠ .keyword .NOT := by
  cases h with
  | path path first =>
    obtain ⟨k, ls, rfl, hk⟩ := path.isWord_head
    exact ⟨k, ls, rfl, hk, by simpa using first⟩
  | call path first group =>
    obtain ⟨k, ls, rfl, hk⟩ := path.isWord_head
    exact ⟨k, _, rfl, hk, by simpa using first⟩

/-- A field ends with a word or with the parenthesis of a call. -/
theorem Kind.IsField.word_or_close_last {ks : List Kind} (h : IsField ks) :
    ∀ k ∈ ks.getLast?, k.isWord = true ∨ k = .closeParen := by
  intro k hk
  cases h with
  | path path first =>
    obtain ⟨l, hl, hword⟩ := path.isWord_last
    rw [hl, Option.mem_some_iff] at hk
    exact .inl (hk ▸ hword)
  | call path first group =>
    rw [← List.cons_append, ← List.append_assoc, List.getLast?_concat, Option.mem_some_iff] at hk
    exact .inr hk.symm

theorem Kind.IsField.last {ks : List Kind} (h : IsField ks) :
    ∀ k ∈ ks.getLast?, k ≠ .unknown := by
  rintro k hk rfl
  rcases h.word_or_close_last _ hk with hword | hclose
  · cases hword
  · cases hclose

namespace Operator

/-- The tokens of an operator as it is written. -/
def tokens : Operator → List Token
  | .equal => [⟨[], .equal, "=".toList⟩]
  | .notEqual => [⟨[], .bangEqual, "!=".toList⟩]
  | .less => [⟨[], .less, "<".toList⟩]
  | .lessEqual => [⟨[], .lessEqual, "<=".toList⟩]
  | .greater => [⟨[], .greater, ">".toList⟩]
  | .greaterEqual => [⟨[], .greaterEqual, ">=".toList⟩]
  | .like => [⟨[], .keyword .LIKE, "LIKE".toList⟩]
  | .notLike => [⟨[], .keyword .NOT, "NOT".toList⟩, ⟨[' '], .keyword .LIKE, "LIKE".toList⟩]
  | .isIn => [⟨[], .keyword .IN, "IN".toList⟩]
  | .notIn => [⟨[], .keyword .NOT, "NOT".toList⟩, ⟨[' '], .keyword .IN, "IN".toList⟩]
  | .includes => [⟨[], .keyword .INCLUDES, "INCLUDES".toList⟩]
  | .excludes => [⟨[], .keyword .EXCLUDES, "EXCLUDES".toList⟩]

/-- The spelling of an operator is read as the operator's tokens. -/
theorem tokenize_spelling (op : Operator) : tokenize op.spelling = op.tokens := by
  cases op <;> decide +kernel

theorem closed_spelling (op : Operator) : Closed op.spelling := by
  rw [Closed, tokenize_spelling]
  cases op <;> rfl

theorem spelling_ne_nil (op : Operator) : kindsOf op.spelling ≠ [] := by
  rw [kindsOf, tokenize_spelling]
  cases op <;> decide

/-- An operator is recognised as it is written, whatever follows. -/
theorem matchAt?_append {op : Operator} {us : List Token} (h : Written op.spelling us)
    (rest : List Token) : matchAt? (us ++ rest) = some (op, us.length) := by
  obtain ⟨g, -, rfl⟩ := h
  rw [tokenize_spelling]
  cases op <;> rfl

/-- The tokens are the parts of a spelling, in any case. -/
def Spells (parts : Phrase) (ts : List Token) : Prop :=
  List.Forall₂ (fun part t => Text.eqIgnoreCase t.text part = true) parts ts

/-- Each token of an operator spells one of its words. -/
theorem Spells.exists_part {parts : Phrase} {ts : List Token} (h : Spells parts ts) :
    ∀ t ∈ ts, ∃ part ∈ parts, Text.eqIgnoreCase t.text part = true := by
  induction h with
  | nil => simp
  | cons heq _ ih =>
    refine List.forall_mem_cons.2 ⟨⟨_, List.mem_cons_self, heq⟩, fun t ht => ?_⟩
    obtain ⟨part, hpart, hsame⟩ := ih t ht
    exact ⟨part, List.mem_cons_of_mem _ hpart, hsame⟩

/-- An operator is spelled by the first tokens. -/
theorem exists_of_spelledBy {parts : Phrase} {ts : List Token} (h : spelledBy parts ts = true) :
    ∃ us vs, ts = us ++ vs ∧ Spells parts us := by
  induction parts generalizing ts with
  | nil => exact ⟨[], ts, rfl, .nil⟩
  | cons part parts ih =>
    cases ts with
    | nil => cases h
    | cons t ts =>
      rw [spelledBy, Bool.and_eq_true] at h
      obtain ⟨us, vs, rfl, hspells⟩ := ih h.2
      exact ⟨t :: us, vs, rfl, .cons h.1 hspells⟩

/-- The tokens of an operator that is found are one of its spellings. -/
theorem exists_spells_of_matchAt? {ts : List Token} {op : Operator} {n : Nat}
    (h : matchAt? ts = some (op, n)) : ∃ parts us vs, (parts, op) ∈ spellings ∧
      ts = us ++ vs ∧ us.length = n ∧ Spells parts us := by
  obtain ⟨⟨parts, op'⟩, hentry, hfound⟩ := List.exists_of_findSome?_eq_some h
  simp only at hfound
  split at hfound
  · next hspelled =>
    obtain ⟨rfl, rfl⟩ := Prod.mk.inj (Option.some.inj hfound)
    obtain ⟨us, vs, rfl, hspells⟩ := exists_of_spelledBy hspelled
    exact ⟨parts, us, vs, hentry, rfl, hspells.length_eq.symm, hspells⟩
  · cases hfound

/-- A token that spells a part of an operator is no parenthesis, and not the word `BY`. -/
theorem ne_of_eqIgnoreCase {t : Token} (h : Shape t) {entry : Phrase × Operator}
    (hentry : entry ∈ spellings) {part : Text} (hpart : part ∈ entry.1)
    (heq : Text.eqIgnoreCase t.text part = true) :
    t.kind ≠ .openParen ∧ t.kind ≠ .closeParen ∧ t.kind ≠ .keyword .BY := by
  have hall : ∀ e ∈ spellings, ∀ p ∈ e.1, Text.eqIgnoreCase "(".toList p = false ∧
      Text.eqIgnoreCase ")".toList p = false ∧ Text.foldCase "BY".toList ≠ Text.foldCase p := by
    decide
  obtain ⟨hopen, hclose, hby⟩ := hall entry hentry part hpart
  refine ⟨fun hk => ?_, fun hk => ?_, fun hk => ?_⟩
  · rw [h.text_of_symbol (by rw [hk]; rfl), hopen] at heq
    cases heq
  · rw [h.text_of_symbol (by rw [hk]; rfl), hclose] at heq
    cases heq
  · have := (wording_iff h).2 hk
    rw [Bool.and_eq_true, Text.eqIgnoreCase_iff] at this
    rw [Text.eqIgnoreCase_iff, this.2] at heq
    exact hby heq

/-- What the tokens of an operator are not. -/
theorem exists_of_matchAt? {ts : List Token} (h : Stretch ts) {op : Operator} {n : Nat}
    (hop : matchAt? ts = some (op, n)) : ∃ us vs, ts = us ++ vs ∧ us.length = n ∧ us ≠ [] ∧
      ∀ k ∈ kinds us, k ≠ .openParen ∧ k ≠ .closeParen ∧ k ≠ .keyword .BY := by
  have hne : ∀ e ∈ spellings, e.1 ≠ [] := by decide
  obtain ⟨parts, us, vs, hentry, rfl, hlength, hspells⟩ := exists_spells_of_matchAt? hop
  refine ⟨us, vs, rfl, hlength, ?_, ?_⟩
  · rintro rfl
    cases hspells
    exact hne _ hentry rfl
  · intro k hk
    obtain ⟨u, hu, rfl⟩ := List.mem_map.1 hk
    obtain ⟨part, hpart, heq⟩ := hspells.exists_part u hu
    exact ne_of_eqIgnoreCase (h.shape (by simp [hu])) hentry hpart heq

end Operator

namespace Token

theorem groupLength_eq_zero {ts : List Token} (h : headIs (· == .openParen) (kinds ts) = false) :
    groupLength ts = 0 := by
  cases ts with
  | nil => rfl
  | cons t ts =>
    rw [kinds_cons, headIs_cons] at h
    simp [groupLength, h]

/-- The arguments of a call are as long as their parentheses tell. -/
theorem groupLength_group {o c : Token} {inner : List Token} (ho : o.kind = .openParen)
    (hc : c.kind = .closeParen) (h : level? 0 (kinds inner) = some 0) (rest : List Token) :
    groupLength (o :: (inner ++ c :: rest)) = inner.length + 2 := by
  have hclose : closeGroup? 0 (inner ++ c :: rest) = some (inner, rest) :=
    closeGroup?_eq_some_iff.2 ⟨c, rfl, hc, h⟩
  simp [groupLength, ho, hclose]

/-- The group at the front, when something follows it. -/
theorem exists_of_groupLength {ts : List Token} (h : ts.drop (groupLength ts) ≠ []) :
    ∃ group rest, ts = group ++ rest ∧ group.length = groupLength ts ∧
      (group = [] ∨ ∃ inner, kinds group = .openParen :: (inner ++ [.closeParen]) ∧
        level? 0 inner = some 0) := by
  cases ts with
  | nil => exact ⟨[], [], rfl, rfl, .inl rfl⟩
  | cons t ts =>
    rw [groupLength] at h ⊢
    split
    · next hopen =>
      rw [if_pos hopen] at h
      split
      · next inside rest hclose =>
        obtain ⟨c, rfl, hc, hlevel⟩ := closeGroup?_eq_some_iff.1 hclose
        refine ⟨t :: (inside ++ [c]), rest, by simp, by simp, .inr ⟨kinds inside, ?_, hlevel⟩⟩
        simp [hc, beq_iff_eq.1 hopen]
      · next hclose => simp [hclose] at h
    · exact ⟨[], t :: ts, rfl, rfl, .inl rfl⟩

end Token

namespace Condition

/-- A field is recognised by its first tokens. -/
theorem startsField_of_isField {field rest : List Token} (h : IsField (kinds field)) :
    startsField (field ++ rest) = true := by
  obtain ⟨k, ls, hk, hword, hnot⟩ := h.isWord_head
  obtain ⟨t, ts, rfl, rfl, -⟩ := List.map_eq_cons_iff.1 hk
  simp [startsField, hword, hnot]

theorem ofText?_nil : ofText? [] = none := by
  rw [ofText?, tokenize_nil]
  rfl

/-- The field of a condition ends where the operator starts. -/
theorem exists_length_of_isField {field rest : List Token} (h : IsField (kinds field))
    (hrest : headIs (fun k => k == .dot || k == .openParen) (kinds rest) = false) :
    ∃ n, Path.length? (field ++ rest) = some n ∧
      n + groupLength ((field ++ rest).drop n) = field.length := by
  generalize hks : kinds field = ks at h
  cases h with
  | path path first =>
    refine ⟨field.length, ?_, ?_⟩
    · refine Path.length?_of_isPath (hks ▸ path) (Path.stops_of_headIs ?_)
      cases rest with
      | nil => rfl
      | cons t rest =>
        rw [kinds_cons, headIs_cons, Bool.or_eq_false_iff] at hrest
        exact hrest.1
    · rw [List.drop_left, groupLength_eq_zero, Nat.add_zero]
      cases rest with
      | nil => rfl
      | cons t rest =>
        rw [kinds_cons, headIs_cons, Bool.or_eq_false_iff] at hrest
        exact hrest.2
  | call path first group =>
    obtain ⟨pts, gts, rfl, hpts, hgts⟩ := List.map_eq_append_iff.1 hks
    obtain ⟨o, us, rfl, ho, hus⟩ := List.map_eq_cons_iff.1 hgts
    obtain ⟨inner, cs, rfl, hinner, hcs⟩ := List.map_eq_append_iff.1 hus
    obtain ⟨c, rfl, hc⟩ := List.map_eq_singleton_iff.1 hcs
    have hopen : headIs (· == .dot) (kinds (o :: (inner ++ [c]) ++ rest)) = false := by
      rw [List.cons_append, kinds_cons, headIs_cons, ho]
      rfl
    refine ⟨pts.length, ?_, ?_⟩
    · rw [List.append_assoc]
      exact Path.length?_of_isPath (by rw [kinds, hpts]; exact path) (Path.stops_of_headIs hopen)
    · rw [List.append_assoc, List.drop_left, List.cons_append, List.append_assoc,
        List.singleton_append, groupLength_group ho hc (by rw [kinds, hinner]; exact group)]
      simp

/-- A condition as it is written. -/
def write (c : Condition) : Text :=
  c.field ++ ' ' :: c.operator.spelling ++ ' ' :: c.rawValue

/-- A condition opens no quote that its parts do not. -/
theorem closed_write {c : Condition} (hfield : Closed c.field) (hvalue : Closed c.rawValue) :
    Closed c.write :=
  (hfield.space _ c.operator.closed_spelling).space _ hvalue

/-- The tokens of a field, of an operator as it is written and of a value make up a condition. -/
theorem ofText?_of_tokens {s : Text} {field us vs : List Token} {op : Operator}
    (htok : tokenize s = field ++ (us ++ vs)) (hfield : IsField (kinds field))
    (hus : Written op.spelling us) :
    ofText? s = some ⟨(render field).trim, op, (render vs).trim⟩ := by
  have hstop : headIs (fun k => k == .dot || k == .openParen) (kinds (us ++ vs)) = false := by
    rw [kinds_append, hus.kinds_eq, kindsOf, Operator.tokenize_spelling]
    cases op <;> rfl
  obtain ⟨n, hn, hlength⟩ := exists_length_of_isField hfield hstop
  have hdrop : (field ++ (us ++ vs)).drop (field.length + us.length) = vs := by
    rw [← List.append_assoc, ← List.length_append, List.drop_left]
  simp only [ofText?, htok, startsField_of_isField hfield, if_true, hn, Option.bind_eq_bind,
    Option.bind_some, hlength, List.drop_left, Operator.matchAt?_append hus, List.take_left, hdrop,
    Option.pure_def]

/-- A blank before an operator changes nothing. -/
theorem written_indent_spelling (op : Operator) :
    Written op.spelling (indent [' '] (tokenize op.spelling)) :=
  (written_tokenize _).indent (by simp [Text.isGap])

/-- A condition is read as it is written. -/
theorem ofText?_write {c : Condition} (hfield : Piece c.field) (hkinds : IsField (kindsOf c.field)) :
    ofText? c.write = some { c with rawValue := c.rawValue.trim } := by
  obtain ⟨field, op, value⟩ := c
  obtain ⟨vs, hvs, htok⟩ :=
    exists_tokenize_space (hfield.closed.space _ op.closed_spelling) value
  have hall : tokenize (field ++ ' ' :: op.spelling ++ ' ' :: value) =
      tokenize field ++ (indent [' '] (tokenize op.spelling) ++ vs) := by
    rw [htok, hfield.tokenize_space, List.append_assoc]
  have hread := ofText?_of_tokens hall hkinds (written_indent_spelling op)
  rw [hfield.render, hfield.tight.trim_eq, hvs.trim_render] at hread
  exact hread

/-- The stretches of tokens that a condition is read from. -/
structure Parts (c : Condition) (ts field op value : List Token) : Prop where
  eq : ts = field ++ (op ++ value)
  isField : IsField (kinds field)
  op_ne_nil : op ≠ []
  op_kinds : ∀ k ∈ kinds op, k ≠ .openParen ∧ k ≠ .closeParen ∧ k ≠ .keyword .BY
  field_eq : c.field = (render field).trim
  value_eq : c.rawValue = (render value).trim

/-- What a condition is read from: a field, behind it an operator, and the rest. -/
theorem exists_of_ofText? {fragment : Text} {c : Condition} (hc : ofText? fragment = some c) :
    ∃ field rest n, tokenize fragment = field ++ rest ∧ IsField (kinds field) ∧
      Operator.matchAt? rest = some (c.operator, n) ∧ c.field = (render field).trim ∧
        c.rawValue = (render (rest.drop n)).trim := by
  simp only [ofText?] at hc
  generalize tokenize fragment = ts at hc ⊢
  split at hc
  · next hstart =>
    simp only [Option.bind_eq_bind, Option.bind_eq_some_iff, Option.pure_def, Option.some.injEq,
      Prod.exists] at hc
    obtain ⟨n, hn, op, m, hop, rfl⟩ := hc
    obtain ⟨path, rest, rfl, rfl, hpath, -⟩ := Path.exists_of_length? hn
    have hfirst : (kinds path).head? ≠ some (.keyword .NOT) := by
      obtain ⟨k, ls, hk, -⟩ := hpath.isWord_head
      obtain ⟨t, us, rfl, rfl, -⟩ := List.map_eq_cons_iff.1 hk
      simp only [List.cons_append, startsField, Bool.and_eq_true, bne_iff_ne] at hstart
      simpa using hstart.2
    rw [List.drop_left, List.drop_append, List.drop_of_length_le (by omega), List.nil_append,
      Nat.add_sub_cancel_left] at hop
    have hne : rest.drop (groupLength rest) ≠ [] := by
      intro hnil
      rw [hnil] at hop
      cases hop
    obtain ⟨group, rest', rfl, hlength, hgroup⟩ := exists_of_groupLength hne
    rw [← hlength, List.drop_left] at hop
    have hfield : IsField (kinds (path ++ group)) := by
      rw [kinds_append]
      rcases hgroup with rfl | ⟨inner, hinner, hlevel⟩
      · rw [kinds_nil, List.append_nil]
        exact .path hpath hfirst
      · rw [hinner]
        exact .call hpath hfirst hlevel
    refine ⟨path ++ group, rest', m, by rw [List.append_assoc], hfield, hop, ?_, ?_⟩
    · simp only [List.drop_left]
      rw [← hlength, ← List.length_append, ← List.append_assoc, List.take_left]
    · simp only [List.drop_left]
      rw [← hlength, ← List.length_append, ← List.append_assoc, ← List.drop_drop, List.drop_left]
  · cases hc

/-- A fragment that is a condition falls into its three parts. -/
theorem exists_parts {fragment : Text} (h : Closed fragment) {c : Condition}
    (hc : ofText? fragment = some c) : ∃ field op value, c.Parts (tokenize fragment) field op value := by
  obtain ⟨field, rest, n, htok, hfield, hop, hfield_eq, hvalue_eq⟩ := exists_of_ofText? hc
  have hstretch := stretch_tokenize h
  rw [htok] at hstretch
  obtain ⟨us, vs, rfl, rfl, hop_ne, hop_kinds⟩ := Operator.exists_of_matchAt? hstretch.right hop
  rw [List.drop_left] at hvalue_eq
  exact ⟨field, us, vs, htok, hfield, hop_ne, hop_kinds, hfield_eq, hvalue_eq⟩

end Condition

end Soql
