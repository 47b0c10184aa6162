import Soql.Proofs.Query.Condition
import Soql.Proofs.Token.Ahead

/-!
# Conditions, printed and read again

A condition that was read from a fragment is written in one form: its field as it stands, the
operator in its usual spelling, and its value, with single blanks between them. Read again this is
the same condition, whatever the fragment was. Quotes may be open in the group of a call and in the
value, and the value may be empty or go on with further operators: the field ends in a word or a
parenthesis, so a blank behind it leaves its tokens as they are, and behind the operator the value
is not looked at.
-/

namespace Soql

open Kind Token

/-- A field without the blanks in front is read again, and so is what stands behind it. -/
theorem Kind.IsField.exists_trim_render {s : Text} {field rest : List Token}
    (h : IsField (kinds field)) (htok : tokenize s = field ++ rest) :
    ∃ us, kinds us = kinds field ∧ (render field).trim = render us ∧ tokenize (render us) = us ∧
      ∀ u ∈ us.getLast?, u.kind.isSettled = true := by
  obtain ⟨k, ls, hk, hword, -⟩ := h.isWord_head
  obtain ⟨t, ts, rfl, rfl, -⟩ := List.map_eq_cons_iff.1 hk
  obtain ⟨tail, htail, ht, hts⟩ := exists_of_tokenize_cons (tokenize_render_of_append htok)
  obtain rfl : render ts = tail := List.append_cancel_left htail
  have hreads : ∀ u ∈ t :: ts, u.Reads [] := fun u hu =>
    reads_nil_of_mem (s := s) (by rw [htok]; exact List.mem_append_left rest hu)
  have hfirst : t.kind.isSettled = true := Kind.isSettled_of_isWord hword
  have hlast : ∀ u ∈ (t :: ts).getLast?, u.kind.isSettled = true := by
    intro u hu
    have hkind : u.kind ∈ (kinds (t :: ts)).getLast? := by
      rw [kinds, List.getLast?_map, Option.mem_def.1 hu]
      rfl
    rcases h.word_or_close_last u.kind hkind with hword | hclose
    · exact Kind.isSettled_of_isWord hword
    · rw [hclose]
      rfl
  refine ⟨{ t with gap := [] } :: ts, rfl, ?_, ?_, ?_⟩
  · rw [render_cons, written, List.append_assoc,
      Text.trim_append_blank_left (isBlank_of_gap (hreads t (by simp))),
      (tight_render hreads hfirst hlast).trim_eq]
    rfl
  · have hread := tokenize_written_append (ht.with_gap (g := []) (by simp))
    rw [hts] at hread
    exact hread
  · cases ts with
    | nil =>
      rintro u hu
      obtain rfl : _ = u := by simpa using hu
      exact hfirst
    | cons v vs => exact fun u hu => hlast u (by simpa [List.getLast?_cons_cons] using hu)

namespace Condition

/-- A condition that was read is read again as it is written. -/
theorem ofText?_write_of_ofText? {fragment : Text} {c : Condition}
    (h : ofText? fragment = some c) : ofText? c.write = some c := by
  obtain ⟨field, rest, n, htok, hfield, -, hname, hvalue⟩ := exists_of_ofText? h
  obtain ⟨us, hkinds, htrim, hus, hlast⟩ := hfield.exists_trim_render htok
  obtain ⟨name, op, value⟩ := c
  obtain rfl : name = render us := hname.trans htrim
  obtain ⟨vs, hvs, hspell⟩ := exists_tokenize_space op.closed_spelling value
  have hop : indent [' '] (tokenize op.spelling ++ vs) =
      indent [' '] (tokenize op.spelling) ++ vs := by
    rw [Operator.tokenize_spelling]
    cases op <;> rfl
  have hall : tokenize (write ⟨render us, op, value⟩) =
      us ++ (indent [' '] (tokenize op.spelling) ++ vs) := by
    rw [write, List.append_assoc, tokenize_render_append hus hlast (by rfl), List.cons_append,
      tokenize_space_cons, hspell, hop]
  have hread := ofText?_of_tokens hall (hkinds ▸ hfield) (written_indent_spelling op)
  have hfield_trim : (render us).trim = render us := by rw [← htrim, Text.trim_trim]
  have hvalue_trim : value.trim = value := by
    rw [show value = _ from hvalue, Text.trim_trim]
  rw [hread, hfield_trim, hvs.trim_render, hvalue_trim]

/-- An open quote in the group of a call, another one in the value, and operators in it. -/
theorem ofText?_write_of_ofText?_openQuotes :
    ofText? " Convert( '\\\n ) <> = 'TODAY  ".toList =
        some ⟨"Convert( '\\\n )".toList, .notEqual, "= 'TODAY".toList⟩ ∧
      ofText? "Convert( '\\\n ) != = 'TODAY".toList =
        some ⟨"Convert( '\\\n )".toList, .notEqual, "= 'TODAY".toList⟩ := by
  have h : ofText? " Convert( '\\\n ) <> = 'TODAY  ".toList =
      some ⟨"Convert( '\\\n )".toList, .notEqual, "= 'TODAY".toList⟩ := by decide +kernel
  exact ⟨h, ofText?_write_of_ofText? h⟩

end Condition

end Soql
