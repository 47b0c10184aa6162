import Soql.Proofs.Token.Single
import Soql.Json.Quoted

/-!
# Quoting and reading back

A character is written in one of three ways between quotes; each of them is read back as that
character, and none of them ends the quoted text early. So `Quoted.encode` is undone by
`Quoted.decode?`, and in a query it is a single token, whatever the text is.
-/

namespace Soql

namespace Json.Quoted

/-- The three ways to write a character between quotes. -/
inductive Escaped (c : Char) : Text → Prop
  | letter (e : Char) (reads : ofLetter? e = some c) (not_code : e ≠ 'u') (not_feed : e ≠ '\n') :
      Escaped c ['\\', e]
  | code (control : c.toNat < 0x20) :
      Escaped c ['\\', 'u', '0', '0', Nat.digitChar (c.toNat / 16), Nat.digitChar (c.toNat % 16)]
  | plain (visible : ¬c.toNat < 0x20) (not_quote : c ≠ '"') (not_slash : c ≠ '\\') : Escaped c [c]

/-- Every character has an escaped form. -/
theorem escaped (c : Char) : Escaped c (escape c) := by
  have hletters : ∀ entry ∈ letterEscapes, letterEscapes.lookup entry.1 = some entry.2 ∧
      ofLetter? entry.2 = some entry.1 ∧ entry.2 ≠ 'u' ∧ entry.2 ≠ '\n' := by decide
  by_cases hmem : c ∈ letterEscapes.map Prod.fst
  · obtain ⟨⟨c, e⟩, hentry, rfl⟩ := List.mem_map.1 hmem
    obtain ⟨hlookup, hread, hcode, hfeed⟩ := hletters _ hentry
    rw [escape, hlookup]
    exact .letter e hread hcode hfeed
  · have hlookup : letterEscapes.lookup c = none := by
      rw [List.lookup_eq_none_iff]
      rintro ⟨d, e⟩ hentry
      rw [bne_iff_ne]
      rintro rfl
      exact hmem (List.mem_map_of_mem hentry)
    simp only [letterEscapes, List.map_cons, List.mem_cons, not_or] at hmem
    simp only [escape, hlookup]
    split
    · next hcontrol => exact .code hcontrol
    · next hvisible => exact .plain hvisible hmem.1 hmem.2.1

theorem hexCode?_control {n : Nat} (h : n < 0x20) :
    hexCode? '0' '0' (Nat.digitChar (n / 16)) (Nat.digitChar (n % 16)) = some n := by
  have hall : ∀ n < 0x20,
      hexCode? '0' '0' (Nat.digitChar (n / 16)) (Nat.digitChar (n % 16)) = some n := by
    decide +kernel
  exact hall n h

/-- A character as it is written is read as one piece that stands for it. -/
theorem exists_piece (c : Char) : ∃ p : Piece, (∀ ps, text? (p :: ps) = (text? ps).map (c :: ·)) ∧
    ∀ s, pieces? (escape c ++ s) = (pieces? s).map fun (ps, rest) => (p :: ps, rest) := by
  have hescaped := escaped c
  generalize escape c = written at hescaped
  cases hescaped with
  | letter e reads not_code not_feed =>
    refine ⟨.char c, fun ps => rfl, fun s => ?_⟩
    rw [List.cons_append, List.cons_append, List.nil_append, pieces?]
    · rw [reads]
      cases pieces? s <;> rfl
    · rintro a b c d s rfl
      exact absurd rfl not_code
  | code control =>
    refine ⟨.code c.toNat, fun ps => ?_, fun s => ?_⟩
    · have hhigh : isHighSurrogate c.toNat = false := by
        rw [isHighSurrogate, Bool.and_eq_false_iff, decide_eq_false_iff_not]
        omega
      have hlow : isLowSurrogate c.toNat = false := by
        rw [isLowSurrogate, Bool.and_eq_false_iff, decide_eq_false_iff_not]
        omega
      rw [text?.eq_def]
      simp [hhigh, hlow]
    · simp only [List.cons_append, List.nil_append]
      rw [pieces?, hexCode?_control control]
      cases pieces? s <;> rfl
  | plain visible not_quote not_slash =>
    refine ⟨.char c, fun ps => rfl, fun s => ?_⟩
    rw [List.cons_append, List.nil_append, pieces?.eq_def]
    split
    · next h => cases h
    · next h => simp only [List.cons.injEq] at h; exact absurd h.1 not_quote
    · next h => simp only [List.cons.injEq] at h; exact absurd h.1 not_slash
    · next h => simp only [List.cons.injEq] at h; exact absurd h.1 not_slash
    · next h =>
      simp only [List.cons.injEq] at h
      obtain ⟨rfl, rfl⟩ := h
      have hplain : ¬(decide (c.toNat < 0x20) || c == '\\') = true := by simp [visible, not_slash]
      rw [if_neg hplain]
      cases pieces? s <;> rfl

/-- What is written between quotes is read up to the closing quote. -/
theorem exists_pieces (s : Text) : ∃ ps, text? ps = some s ∧
    ∀ rest, pieces? (s.flatMap escape ++ '"' :: rest) = some (ps, rest) := by
  induction s with
  | nil => exact ⟨[], rfl, fun _ => rfl⟩
  | cons c s ih =>
    obtain ⟨ps, htext, hread⟩ := ih
    obtain ⟨p, hp, hpieces⟩ := exists_piece c
    refine ⟨p :: ps, by rw [hp, htext]; rfl, fun rest => ?_⟩
    rw [List.flatMap_cons, List.append_assoc, hpieces, hread]
    rfl

/-- A text comes back from between its quotes. -/
theorem decode?_encode (s : Text) : decode? (encode s) = some s := by
  obtain ⟨ps, htext, hread⟩ := exists_pieces s
  rw [encode, List.cons_append, decode?, hread]
  exact htext

end Json.Quoted

open Json.Quoted

namespace Token

/-- A character as it is written does not end the quoted text. -/
theorem quotedLength_jsonEscape (c : Char) (s : Text) : quotedLength '"' (escape c ++ s) =
    ((quotedLength '"' s).1 + (escape c).length, (quotedLength '"' s).2) := by
  have hdigit : ∀ n < 0x10, Nat.digitChar n ≠ '"' ∧ Nat.digitChar n ≠ '\\' := by decide +kernel
  have hescaped := escaped c
  generalize escape c = written at hescaped
  cases hescaped with
  | letter e reads not_code not_feed => exact quotedLength_escape not_feed s
  | code control =>
    have hhigh := hdigit (c.toNat / 16) (by omega)
    have hlow := hdigit (c.toNat % 16) (by omega)
    simp only [List.cons_append, List.nil_append]
    rw [quotedLength_escape (by decide), quotedLength_other (by decide) (by decide),
      quotedLength_other (by decide) (by decide), quotedLength_other hhigh.1 hhigh.2,
      quotedLength_other hlow.1 hlow.2]
    rfl
  | plain visible not_quote not_slash => exact quotedLength_other not_quote not_slash s

/-- A text whose characters are written so that none ends the quoted text is closed by the quote
behind it. -/
theorem quotedLength_flatMap {quote : Char} (hquote : quote ≠ '\\') {write : Char → Text}
    (hwrite : ∀ c s, quotedLength quote (write c ++ s) =
      ((quotedLength quote s).1 + (write c).length, (quotedLength quote s).2)) (s : Text) :
    quotedLength quote (s.flatMap write ++ [quote]) = ((s.flatMap write).length + 1, true) := by
  induction s with
  | nil => simp [quotedLength_cons hquote]
  | cons c s ih =>
    rw [List.flatMap_cons, List.append_assoc, hwrite, ih, List.length_append]
    ext
    · simp only
      omega
    · rfl

end Token

open Token

/-- What is written between quotes so that nothing in it ends the quoted text is one token. -/
theorem tokenize_quoted {quote : Char} (hquote : quote = '\'' ∨ quote = '"') {body : Text}
    (h : quotedLength quote (body ++ [quote]) = (body.length + 1, true)) :
    tokenize (quote :: body ++ [quote]) = [⟨[], .quoted, quote :: body ++ [quote]⟩] := by
  have hstart : isWordStart quote = false ∧ quote.isDigit = false ∧ Text.isGap quote = false ∧
      (quote == '\'' || quote == '"') = true := by
    rcases hquote with rfl | rfl <;> decide
  obtain ⟨hword, hdigit, hgap, heq⟩ := hstart
  refine Token.Reads.tokenize_written (t := ⟨[], .quoted, quote :: body ++ [quote]⟩)
    ⟨by simp, quote, body ++ [quote], rfl, hgap, ?_⟩
  rw [List.append_nil, lexeme_quote _ hword hdigit heq, h]
  simp

/-- A JSON string is one quoted token. -/
theorem tokenize_encode (s : Text) : tokenize (encode s) = [⟨[], .quoted, encode s⟩] :=
  tokenize_quoted (.inr rfl) (quotedLength_flatMap (by decide) quotedLength_jsonEscape s)

theorem piece_encode (s : Text) : Piece (encode s) :=
  .of_tokenize (tokenize_encode s) (by simp) (by simp)

end Soql
