import Soql.Builder.Import
import Soql.Proofs.Query.Value

/-!
# Values, imported and written

The value of a condition is imported as the text that a literal denotes, unless that text would be
taken for something else when it is written again; then it is kept as a literal. What is written of
an imported value is what is written of the text that the literal denotes.
-/

namespace Soql.Builder

open Kind Token Literal

/-- A text stands for itself: it does not look quoted, has no blanks at its ends, and as an item of
a list it does not fall apart. -/
def isPlainValue (inList : Bool) (s : Text) : Bool :=
  !isQuoted s && s.trim == s && (!inList || (!s.isEmpty && s.head? != some '(' &&
    !s.any fun c => c == ',' || c == '\'' || c == '"'))

theorem literalValue_eq (inList : Bool) (raw : Text) : literalValue inList raw =
    if isPlainValue inList (unquote raw) then unquote raw else quoteText (unquote raw) := rfl

section Plain

variable {inList : Bool} {s : Text}

/-- A text without blanks and the characters of groups, lists and quotes stands for itself. -/
theorem isPlainValue_of_chars (hne : s ≠ []) (hblank : ∀ c ∈ s, Text.isBlank c = false)
    (h : ∀ c ∈ s, c ∉ flatExceptions) : isPlainValue inList s = true := by
  have hquoted : isQuoted s = false := by
    rw [isQuoted, inside?_of_not_mem ⟨fun hc => h _ hc (by simp [flatExceptions]),
      fun hc => h _ hc (by simp [flatExceptions])⟩]
    rfl
  have hhead : s.head? ≠ some '(' := fun hc =>
    h _ (List.mem_of_mem_head? hc) (by simp [flatExceptions])
  have hany : (s.any fun c => c == ',' || c == '\'' || c == '"') = false := by
    rw [List.any_eq_false]
    intro c hc hexc
    refine h c hc ?_
    simp only [Bool.or_eq_true, beq_iff_eq] at hexc
    rcases hexc with (rfl | rfl) | rfl <;> simp [flatExceptions]
  have htrim : s.trim = s := (piece_of_chars hblank h).tight.trim_eq
  simp [isPlainValue, hquoted, htrim, hne, hhead, hany]

/-- Outside a list a text stands for itself if it is tight and has no quotes around it. -/
theorem isPlainValue_iff_tight : isPlainValue false s = true ↔ isQuoted s = false ∧ s.Tight := by
  simp [isPlainValue, Text.trim_eq_self_iff]

/-- So does a word in any case. -/
theorem isPlainValue_of_foldCase {w : Text} (h : Text.foldCase s = w) (hne : w ≠ [])
    (hw : ∀ c ∈ w, isWordPart c = true) : isPlainValue inList s = true := by
  have hword : ∀ c ∈ s, isWordPart c = true := by
    intro c hc
    rw [← isWordPart_toLower]
    exact hw _ (h ▸ List.mem_map_of_mem hc)
  have hexc : ∀ c ∈ flatExceptions, isWordPart c = false := by decide
  refine isPlainValue_of_chars (by rintro rfl; exact hne h.symm)
    (fun c hc => not_isBlank_of_isWordPart (hword c hc)) fun c hc hmem => ?_
  have := hword c hc
  rw [hexc c hmem] at this
  cases this

/-- A text that does not stand for itself is put in quotes. -/
theorem quoteText_of_not_plain (h : isPlainValue inList s = false) :
    quoteText s = Json.Quoted.encode s := by
  have hbool : ∀ w : Text, w ≠ [] → (∀ c ∈ Text.foldCase w, isWordPart c = true) →
      Text.eqIgnoreCase s w = false := by
    intro w hne hw
    by_contra heq
    rw [Bool.not_eq_false, Text.eqIgnoreCase_iff] at heq
    rw [isPlainValue_of_foldCase heq (by simpa [Text.foldCase] using hne) hw] at h
    cases h
  have hnumber : isCanonicalNumber s = false := by
    by_contra hnumber
    rw [Bool.not_eq_false] at hnumber
    rw [isPlainValue_of_chars (chars_of_isCanonicalNumber hnumber).1
      (not_isBlank_of_number hnumber) (not_mem_of_number hnumber)] at h
    cases h
  rw [quoteText, hbool _ (by decide) (by decide), hbool _ (by decide) (by decide), hnumber]
  rfl

end Plain

/-- The value that is imported denotes the same text as the literal. -/
theorem unquote_literalValue (inList : Bool) (raw : Text) :
    unquote (literalValue inList raw) = unquote raw := by
  rw [literalValue_eq]
  split
  · next hplain =>
    simp only [isPlainValue, Bool.and_eq_true, Bool.not_eq_true', isQuoted, Option.isSome_eq_false_iff,
      Option.isNone_iff_eq_none, beq_iff_eq] at hplain
    obtain ⟨⟨hquoted, htrim⟩, -⟩ := hplain
    rw [← htrim] at hquoted
    rw [unquote_of_not_quoted hquoted, htrim]
  · next hplain => rw [quoteText_of_not_plain (by simpa using hplain), unquote_encode]

/-- What is imported is written as the text that the literal denotes. -/
theorem writeValue_literalValue (inList : Bool) (raw : Text) :
    writeValue (literalValue inList raw) = writeText (unquote raw) := by
  rw [writeValue_eq, unquote_literalValue]

/-- An item of a list that is read back from the list. -/
structure ListItem (v : Text) : Prop where
  piece : Piece v
  ne_nil : v ≠ []
  commas : Clear (headIs Kind.isComma) 0 (kindsOf v) []
  head : v.head? ≠ some '('

/-- A text in quotes can stand in a list. -/
theorem listItem_encode (s : Text) : ListItem (Json.Quoted.encode s) where
  piece := piece_encode s
  ne_nil := by simp [Json.Quoted.encode]
  commas := by
    rw [kindsOf, tokenize_encode]
    exact clear_of_forall (by simp [Kind.isComma])
  head := by simp [Json.Quoted.encode]

/-- So can a text that stands for itself there. -/
theorem listItem_of_plain {s : Text} (h : isPlainValue true s = true) : ListItem s := by
  simp only [isPlainValue, Bool.not_true, Bool.false_or, Bool.and_eq_true, Bool.not_eq_true', beq_iff_eq,
    bne_iff_ne, List.isEmpty_eq_false_iff, List.any_eq_false, Bool.or_eq_true, not_or] at h
  obtain ⟨⟨-, htrim⟩, ⟨hne, hhead⟩, hchars⟩ := h
  refine ⟨⟨Text.trim_eq_self_iff.1 htrim, closed_of_not_mem ⟨fun hc => (hchars _ hc).1.2 rfl,
    fun hc => (hchars _ hc).2 rfl⟩⟩, hne, clear_of_forall fun k hk _ => ?_, hhead⟩
  by_contra hcomma
  obtain ⟨t, ht, rfl⟩ := List.mem_map.1 hk
  have hkind : t.kind = .comma := by simpa [Kind.isComma] using hcomma
  have hmem : ',' ∈ s := mem_of_symbol ht (show symbolText t.kind = some [','] by rw [hkind]; rfl)
  exact (hchars _ hmem).1.1 rfl

/-- Imported items are read back from a list. -/
theorem listItem_literalValue (raw : Text) : ListItem (literalValue true raw) := by
  rw [literalValue_eq]
  split
  · next hplain => exact listItem_of_plain hplain
  · next hplain =>
    rw [quoteText_of_not_plain (by simpa using hplain)]
    exact listItem_encode _

/-- An imported item closes what it opens if the text that it denotes does, should that text stand
for itself. -/
theorem depth_literalValue {s w : Text} (h : Form s w)
    (hs : isPlainValue true s = true → depth 0 (kindsOf s) = 0) :
    depth 0 (kindsOf (literalValue true w)) = 0 := by
  rw [literalValue_eq]
  split
  · next hplain =>
    rcases h.encode_or_flat with rfl | hflat
    · rw [unquote_encode] at hplain ⊢
      exact hs hplain
    · rw [unquote_of_chars hflat]
      refine depth_of_level? (level?_of_no_group (fun k hk => ?_) 0)
      obtain ⟨g, g', hw, -⟩ := Text.exists_eq_append_trim w
      have := isFlat_of_chars (fun c hc => hflat c (by rw [hw]; simp [hc])) k hk
      simp only [Kind.isFlat, Bool.and_eq_true, bne_iff_ne] at this
      exact ⟨this.1.1.1.1, this.1.1.1.2⟩
  · next hplain =>
    rw [quoteText_of_not_plain (by simpa using hplain), kindsOf, tokenize_encode]
    rfl

section Lists

/-- A value that starts with a parenthesis is taken for a list already. -/
theorem writeList_of_group {value : Text} (h : value.trim.head? = some '(') :
    writeList value = value.trim := by
  rw [writeList]
  simp [h]

/-- Any other value is taken apart and written item by item. -/
theorem writeList_of_items {value : Text} (h : value.trim.head? ≠ some '(') :
    writeList value = group (Text.join ", ".toList ((splitItems value.trim).map writeValue)) := by
  rw [writeList]
  simp [h, group]

/-- Items that close what they open are told apart again. -/
theorem splitItems_listItems {vs : List Text} (h : ∀ v ∈ vs, ListItem v)
    (htop : ∀ v ∈ vs.dropLast, depth 0 (kindsOf v) = 0) :
    splitItems (Text.join ", ".toList vs) = vs :=
  splitItems_join (fun v hv => ⟨(h v hv).piece, (h v hv).ne_nil⟩) (fun v hv => (h v hv).commas) htop

/-- A list of items is not taken for a group. -/
theorem head?_join_listItems {vs : List Text} (h : ∀ v ∈ vs, ListItem v) :
    (Text.join ", ".toList vs).head? ≠ some '(' := by
  match vs with
  | [] => simp [Text.join]
  | [v] => exact (h v (by simp)).head
  | v :: w :: vs =>
    have hv := h v (by simp)
    rw [Text.join, List.append_assoc, List.head?_append_of_ne_nil _ hv.ne_nil]
    exact hv.head

/-- A list of items is written item by item. -/
theorem writeList_join {vs : List Text} (h : ∀ v ∈ vs, ListItem v)
    (htop : ∀ v ∈ vs.dropLast, depth 0 (kindsOf v) = 0) : writeList (Text.join ", ".toList vs) =
      group (Text.join ", ".toList (vs.map writeValue)) := by
  have htight : (Text.join ", ".toList vs).trim = Text.join ", ".toList vs :=
    (Text.tight_join fun v hv => ⟨(h v hv).piece.tight, (h v hv).ne_nil⟩).trim_eq
  rw [writeList_of_items (by rw [htight]; exact head?_join_listItems h), htight,
    splitItems_listItems h htop]

/-- Texts that are written as values. -/
def AreWritten (ws : List Text) : Prop :=
  ∀ w ∈ ws, ∃ u, Form u w

/-- Texts are written in one of the forms. -/
theorem areWritten_writeText (us : List Text) : AreWritten (us.map writeText) := by
  intro w hw
  obtain ⟨u, -, rfl⟩ := List.mem_map.1 hw
  exact ⟨u, form u⟩

/-- Texts in quotes have the form of texts. -/
theorem areWritten_encode (us : List Text) : AreWritten (us.map Json.Quoted.encode) := by
  intro w hw
  obtain ⟨u, -, rfl⟩ := List.mem_map.1 hw
  exact ⟨u, .text⟩

namespace AreWritten

variable {ws : List Text} (h : AreWritten ws)

include h

/-- Written texts have no parentheses and commas outside quotes. -/
theorem no_group {w : Text} (hw : w ∈ ws) : ∀ k ∈ kindsOf w,
    k ≠ .openParen ∧ k ≠ .closeParen ∧ k ≠ .comma :=
  (h w hw).elim fun _ hform => hform.no_group

theorem no_comma {w : Text} (hw : w ∈ ws) : Clear (headIs Kind.isComma) 0 (kindsOf w) [] :=
  clear_of_forall fun k hk _ => by simpa [Kind.isComma] using (h.no_group hw k hk).2.2

theorem level {w : Text} (hw : w ∈ ws) : Balanced (kindsOf w) :=
  level?_of_no_group (fun k hk => (h.no_group hw k hk).imp_right And.left) 0

theorem closed {w : Text} (hw : w ∈ ws) : Closed w :=
  (h w hw).elim fun _ hform => hform.closed

theorem ne_nil {w : Text} (hw : w ∈ ws) : w.trim ≠ [] :=
  (h w hw).elim fun _ hform => hform.trim_ne_nil

/-- A written list is no query. -/
theorem not_opensQuery_join : ¬ OpensQuery (Text.join ", ".toList ws) := by
  rw [OpensQuery]
  rcases ws with _ | ⟨w, _ | ⟨v, ws⟩⟩
  · simp [Text.join]
  · exact (h w (by simp)).elim fun _ hform => hform.first
  · obtain ⟨u, hform⟩ := h w (by simp)
    obtain ⟨c, ts, -, -, -, htok⟩ := separator_comma.tokens hform.closed
      (Text.join ", ".toList (v :: ws))
    have hkinds : kindsOf (Text.join ", ".toList (w :: v :: ws)) = kindsOf w ++ kinds (c :: ts) := by
      rw [Text.join, kindsOf, htok, kinds_append]
      rfl
    rw [hkinds, List.head?_append_of_ne_nil _ hform.kindsOf_ne_nil]
    exact hform.first

theorem closed_join : Closed (Text.join ", ".toList ws) :=
  separator_comma.closed_join fun _ hw => h.closed hw

theorem balanced_join : Balanced (kindsOf (Text.join ", ".toList ws)) := by
  exact separator_comma.balanced_join (fun _ => no_group_of_isComma) (fun w hw => h.closed hw)
    fun w hw => h.level hw

variable (htight : ∀ w ∈ ws, w.Tight)

include htight

/-- A written list is taken apart into the items that were written. -/
theorem splitItems_join : Piece (Text.join ", ".toList ws) ∧
    splitItems (Text.join ", ".toList ws) = ws := by
  have hne : ∀ w ∈ ws, w ≠ [] := fun w hw hnil => h.ne_nil hw (by rw [hnil]; rfl)
  refine ⟨⟨Text.tight_join fun w hw => ⟨htight w hw, hne w hw⟩, h.closed_join⟩,
    Soql.splitItems_join (fun w hw => ⟨⟨htight w hw, h.closed hw⟩, hne w hw⟩)
      (fun w hw => h.no_comma hw) fun w hw => depth_of_level? (h.level (List.dropLast_subset _ hw))⟩

/-- A written list is read item by item. -/
theorem filterValue_group {operator : Operator} (hop : operator.takesList = true) :
    filterValue operator (group (Text.join ", ".toList ws)) =
      Text.join ", ".toList (ws.map (literalValue true)) := by
  obtain ⟨hpiece, hitems⟩ := h.splitItems_join htight
  have hstrip : stripOuterParens? (group (Text.join ", ".toList ws)) =
      some (Text.join ", ".toList ws) := by
    rw [stripOuterParens?_group hpiece.closed h.balanced_join, hpiece.tight.trim_eq]
  have hquery : ¬ (subqueryBody? (group (Text.join ", ".toList ws))).isSome = true := by
    rw [subqueryBody?_group hpiece h.balanced_join]
    exact h.not_opensQuery_join
  rw [filterValue, if_pos hop, if_neg hquery, hstrip]
  simp only [hitems]

end AreWritten

variable {us : List Text}

theorem closed_join_writeText : Closed (Text.join ", ".toList (us.map writeText)) :=
  (areWritten_writeText us).closed_join

theorem balanced_join_writeText :
    Balanced (kindsOf (Text.join ", ".toList (us.map writeText))) :=
  (areWritten_writeText us).balanced_join

/-- A list is read as it is written, unless blanks stand around its dates. -/
theorem filterValue_group {operator : Operator} (hop : operator.takesList = true)
    (hdate : ∀ u ∈ us, Date.isLiteral u = true → u.Tight) :
    filterValue operator (group (Text.join ", ".toList (us.map writeText))) =
      Text.join ", ".toList (us.map fun u => literalValue true (writeText u)) := by
  rw [(areWritten_writeText us).filterValue_group ?_ hop, List.map_map]
  · rfl
  · simp only [List.mem_map, forall_exists_index, and_imp, forall_apply_eq_imp_iff₂]
    exact fun u hu => (form u).tight (hdate u hu)

end Lists

end Soql.Builder
