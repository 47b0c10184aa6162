import Soql.Proofs.Query.Comparison
import Soql.Proofs.Token.Parts
import Soql.Query.Model

/-!
# Parts of a clause that was read

The parts of a clause are cut out of a query by the words around the clause and by separators, so
no part has a separator or an end of the clause outside parentheses, and the parts of a balanced
query are balanced. The same goes for the field and the value of a condition; a value therefore
holds no word that ends a condition.
-/

namespace Soql

open Kind Token

/-- A part that separators leave of a clause. -/
structure Clause.Part (c : Clause) (sep : Kind → Bool) (s : Text) : Prop where
  piece : Piece s
  ne_nil : s ≠ []
  separators : Clear (headIs sep) 0 (kindsOf s) []
  closes : ∃ rest, Clear c.closes 0 (kindsOf s) rest

/-- What is known of the tokens of a clause. -/
theorem Clause.of_body? {c : Clause} {ts : List Token} (h : Stretch ts) {body : Text}
    (hbody : c.body? ts = some body) : Stretch (tokenize body) ∧
      (∃ rest, Clear c.closes 0 (kindsOf body) rest) ∧
        (Balanced (kinds ts) → Balanced (kindsOf body)) := by
  obtain ⟨before, opening, bts, after, hplace, rfl⟩ := (body?_eq_some_iff h).1 hbody
  have hstretch := hplace.stretch_body h
  rw [kindsOf, hstretch.tokenize_trim]
  refine ⟨hstretch.trimmed, hstretch.exists_clear_trimmed hplace.inner, fun hbal => ?_⟩
  rw [Kind.Balanced, hstretch.level?_trimmed]
  exact hplace.balanced_body hbal

/-- What a search does not find in a query it does not find in the text of a clause. -/
theorem Clause.exists_clear_body? {c : Clause} {ts : List Token} (h : Stretch ts) {body : Text}
    (hbody : c.body? ts = some body) {f : List Kind → Bool} {rest : List Kind}
    (hclear : Clear f 0 (kinds ts) rest) : ∃ rest', Clear f 0 (kindsOf body) rest' := by
  obtain ⟨before, opening, bts, after, hplace, rfl⟩ := (body?_eq_some_iff h).1 hbody
  have hstretch := hplace.stretch_body h
  rw [hplace.eq, ← List.append_assoc, kinds_append, kinds_append, kinds_append] at hclear
  obtain ⟨_, hinner⟩ := hclear.exists_of_append hplace.top_body
  rw [kindsOf, hstretch.tokenize_trim]
  exact hstretch.exists_clear_trimmed hinner

/-- What a search does not find in a text it does not find in the parts of the text. -/
theorem exists_clear_of_mem_splitParts {sep : Kind → Bool} (hsep : sep .openParen = false)
    {body s : Text} (h : Stretch (tokenize body)) (hs : s ∈ splitParts (fun t => sep t.kind) body)
    {f : List Kind → Bool} {rest : List Kind} (hclear : Clear f 0 (kindsOf body) rest) :
    ∃ rest', Clear f 0 (kindsOf s) rest' := by
  obtain ⟨part, parts, hsplit⟩ := exists_splits sep hsep (tokenize body)
  rw [splitParts_of_splits hsep hsplit] at hs
  obtain ⟨p, hp, rfl⟩ := List.mem_map.1 (List.mem_filter.1 hs).1
  have hpart : Stretch p := hsplit.stretch h p hp
  obtain ⟨as, bs, hbody, htop, -, -⟩ := hsplit.exists_of_mem hsep hp
  rw [kindsOf, hbody, kinds_append, kinds_append] at hclear
  obtain ⟨_, hinner⟩ := hclear.exists_of_append htop
  rw [kindsOf, hpart.tokenize_trim]
  exact hpart.exists_clear_trimmed hinner

/-- The parts of a clause close what they open if the query does. -/
theorem Clause.part_of_mem {c : Clause} {sep : Kind → Bool} (hsep : sep .openParen = false)
    {ts : List Token} (h : Stretch ts) {body s : Text} (hbody : c.body? ts = some body)
    (hs : s ∈ splitParts (fun t => sep t.kind) body) :
    c.Part sep s ∧ (Balanced (kinds ts) → Balanced (kindsOf s)) := by
  obtain ⟨hstretch, ⟨rest, hcloses⟩, hbal⟩ := Clause.of_body? h hbody
  obtain ⟨part, parts, hsplit⟩ := exists_splits sep hsep (tokenize body)
  rw [splitParts_of_splits hsep hsplit] at hs
  obtain ⟨hmem, hne⟩ := List.mem_filter.1 hs
  obtain ⟨p, hp, rfl⟩ := List.mem_map.1 hmem
  have hpart : Stretch p := hsplit.stretch hstretch p hp
  obtain ⟨as, bs, hbody', htop, hclear, hstop⟩ := hsplit.exists_of_mem hsep hp
  rw [kindsOf, hbody', kinds_append, kinds_append] at hcloses hbal
  obtain ⟨rest', hcloses'⟩ := hcloses.exists_of_append htop
  obtain ⟨rest'', hseps⟩ := hpart.exists_clear_trimmed hclear
  refine ⟨⟨.of_stretch hpart, by simpa using hne, ?_, ?_⟩, fun hts => ?_⟩
  · rw [kindsOf, hpart.tokenize_trim]
    exact hseps.head []
  · rw [kindsOf, hpart.tokenize_trim]
    exact hpart.exists_clear_trimmed hcloses'
  · rw [Kind.Balanced, kindsOf, hpart.tokenize_trim, hpart.level?_trimmed]
    refine balanced_of_append (hbal hts) htop (hstop.imp ?_ id)
    rintro rfl
    rfl

/-- The field and the value of a condition that was read from a query. -/
structure Condition.Read (c : Condition) : Prop where
  field : Piece c.field
  isField : IsField (kindsOf c.field)
  field_alone : ReadsAlone c.field
  value : Piece c.rawValue
  connects : Clear (headIs Kind.isConnective) 0 (kindsOf c.rawValue) []
  closes : ∃ rest, Clear Clause.condition.closes 0 (kindsOf c.rawValue) rest

/-- A field has no blanks at its ends that would be tokens. -/
theorem Kind.IsField.kinds_trimmed {ts : List Token} (h : IsField (kinds ts)) (hts : Stretch ts) :
    kinds (trimmed ts) = kinds ts := by
  obtain ⟨ks, ls, heq, hks, hls⟩ := hts.exists_kinds_trimmed
  obtain ⟨k, rest, hhead, hword, -⟩ := h.isWord_head
  have hnil : ks = [] := by
    cases ks with
    | nil => rfl
    | cons l ks =>
      rw [heq, List.cons_append, List.cons_append, List.cons.injEq] at hhead
      rw [← hhead.1, hks l (by simp)] at hword
      cases hword
  have hnil' : ls = [] := by
    by_contra hne
    obtain ⟨l, hl⟩ := Option.isSome_iff_exists.1 (List.getLast?_isSome.2 hne)
    refine h.last l ?_ (hls l (List.mem_of_getLast? hl))
    rw [heq, List.getLast?_append_of_ne_nil _ hne, hl]
    rfl
  rw [heq, hnil, hnil']
  simp

/-- A condition that is read of a part has the parts of a condition. -/
theorem Condition.read_of_part {s : Text} (h : Clause.condition.Part Kind.isConnective s)
    {c : Condition} (hc : Condition.ofText? s = some c) :
    c.Read ∧ (Balanced (kindsOf s) → Balanced (kindsOf c.rawValue)) := by
  obtain ⟨field, op, value, hparts⟩ := exists_parts h.piece.closed hc
  have hstretch := h.piece.stretch
  rw [hparts.eq] at hstretch
  have hfield : Stretch field := hstretch.left
  have hvalue : Stretch value := hstretch.right.right
  have hopbal : Balanced (kinds op) :=
    level?_of_no_group (fun k hk => ⟨(hparts.op_kinds k hk).1, (hparts.op_kinds k hk).2.1⟩) 0
  have hkinds : kindsOf s = kinds field ++ (kinds op ++ kinds value) := by
    rw [kindsOf, hparts.eq, kinds_append, kinds_append]
  have hfield_kinds : kindsOf c.field = kinds field := by
    rw [kindsOf, hparts.field_eq, hfield.tokenize_trim, hparts.isField.kinds_trimmed hfield]
  have hvalue_kinds : kindsOf c.rawValue = kinds (trimmed value) := by
    rw [kindsOf, hparts.value_eq, hvalue.tokenize_trim]
  have hpiece : Piece c.field := hparts.field_eq ▸ .of_stretch hfield
  have hseps := h.separators
  obtain ⟨rest, hcloses⟩ := h.closes
  rw [hkinds, clear_append_iff, clear_append_iff, depth_of_level? hparts.isField.balanced,
    depth_of_level? hopbal] at hseps hcloses
  obtain ⟨rest', hseps'⟩ := hvalue.exists_clear_trimmed hseps.2.2
  refine ⟨⟨hpiece, hfield_kinds ▸ hparts.isField, ⟨hpiece.closed, ?_, ?_, ?_⟩,
    hparts.value_eq ▸ .of_stretch hvalue, ?_, ?_⟩, fun hbal => ?_⟩
  · rw [hfield_kinds]
    exact hparts.isField.balanced
  · rw [hfield_kinds]
    exact hseps.1.head []
  · rw [hfield_kinds]
    exact passes_of_clear (Clause.near_closes _) (depth_of_level? hparts.isField.balanced) hcloses.1
  · rw [hvalue_kinds]
    exact hseps'.head []
  · rw [hvalue_kinds]
    exact hvalue.exists_clear_trimmed hcloses.2.2
  · rw [hvalue_kinds, Kind.Balanced, hvalue.level?_trimmed]
    rw [hkinds, ← List.append_assoc] at hbal
    have htop : depth 0 (kinds field ++ kinds op) = 0 :=
      depth_of_level? (hparts.isField.balanced.append hopbal)
    rw [← List.append_nil (kinds value)] at hbal
    exact balanced_of_append hbal htop (.inl rfl)

/-- So have all conditions of a query. -/
theorem Condition.read_of_mem {ts : List Token} (h : Stretch ts) {c : Condition}
    (hc : c ∈ (Query.ofTokens ts).conditions) : c.Read := by
  change c ∈ ((Clause.condition.body? ts).map fun body =>
    (splitConditions body).filterMap Condition.ofText?).getD [] at hc
  cases hbody : Clause.condition.body? ts with
  | none => simp [hbody] at hc
  | some body =>
    rw [hbody, Option.map_some, Option.getD_some, List.mem_filterMap] at hc
    obtain ⟨s, hs, hc⟩ := hc
    have hsep : Kind.isConnective .openParen = false := rfl
    rw [splitConditions_eq] at hs
    exact (read_of_part (Clause.part_of_mem hsep h hbody hs).1 hc).1

namespace Condition.Read

variable {c : Condition} (h : c.Read)

include h

/-- No word that ends conditions stands in a value outside parentheses. -/
theorem clear_endsCondition : Clear (headIs Kind.endsCondition) 0 (kindsOf c.rawValue) [] := by
  obtain ⟨rest, hcloses⟩ := h.closes
  have hconnects := h.connects
  generalize kindsOf c.rawValue = ks at hcloses hconnects
  generalize 0 = d at hcloses hconnects
  induction ks generalizing d with
  | nil => trivial
  | cons k ks ih =>
    refine ⟨fun hd => ?_, ih _ hcloses.2 hconnects.2⟩
    by_contra hk
    have := Clause.condition_closes (by simpa using hk) (hconnects.1 hd) (ks ++ rest)
    rw [hcloses.1 hd] at this
    cases this

/-- The value of a condition that was read can be read alone. -/
theorem readsAlone (hbal : Balanced (kindsOf c.rawValue)) : ReadsAlone c.rawValue := by
  obtain ⟨rest, hcloses⟩ := h.closes
  exact ⟨h.value.closed, hbal, h.connects, passes_of_clear (Clause.near_closes _) (depth_of_level? hbal) hcloses⟩

end Condition.Read

end Soql
