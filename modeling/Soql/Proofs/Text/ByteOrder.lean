import Soql.Proofs.Text.Slice

/-!
# Code points and bytes have one order

`Text.le` compares code points. The UTF-8 forms of two characters differ first at a byte that is
smaller for the smaller character, so that comparing the bytes of two texts has the same result
(`le_iff_bytes_le`). In particular `Text.le` is a linear order.
-/

namespace Soql.Text

/-- A longer form starts with a larger byte. In forms of one length the first byte that differs
holds the first digit to base 64 that differs. -/
theorem utf8EncodeChar_append_lt {c d : Char} (h : c.toNat < d.toNat) (x y : List UInt8) :
    String.utf8EncodeChar c ++ x < String.utf8EncodeChar d ++ y := by
  have hlt : c.val.toNat < d.val.toNat := h
  have hmax : d.val.toNat < 0x110000 := by
    have hvalid := d.valid
    simp only [UInt32.isValidChar, Nat.isValidChar] at hvalid
    omega
  have hlead : ∀ k, (k % 8 + 240) % 2 ^ 8 = k % 8 + 240 := by omega
  have hfollow : ∀ k, (k % 64 + 128) % 2 ^ 8 = k % 64 + 128 := by omega
  unfold String.utf8EncodeChar
  generalize c.val.toNat = m at hlt
  generalize d.val.toNat = n at hlt hmax
  have hm : m / 4096 = m / 64 / 64 ∧ m / 262144 = m / 64 / 64 / 64 := by omega
  have hn : n / 4096 = n / 64 / 64 ∧ n / 262144 = n / 64 / 64 / 64 := by omega
  clear h
  simp only
  split_ifs <;> try omega
  all_goals
    simp only [List.cons_append, List.nil_append, List.cons_lt_cons_iff, UInt8.lt_iff_toNat_lt,
      ← UInt8.toNat_inj, UInt8.toNat_ofNat', hfollow, hlead, hm, hn]
    clear hlead hfollow hm hn
    rcases (show m / 64 < n / 64 ∨ m / 64 = n / 64 by omega) with hdigits | hdigits
    · have htail : m / 64 / 64 < n / 64 / 64 ∨ m / 64 / 64 = n / 64 / 64 := by omega
      omega
    · omega

/-- The first character in which two texts differ decides for their bytes as well. -/
theorem bytes_lt_of_le {s t : Text} (h : le s t = true) (hne : s ≠ t) : bytes s < bytes t := by
  fun_induction le s t with
  | case1 t =>
    cases t with
    | nil => exact absurd rfl hne
    | cons d t =>
      obtain ⟨b, bs, hbytes⟩ : ∃ b bs, bytes (d :: t) = b :: bs := by
        rw [← List.ne_nil_iff_exists_cons, ← List.length_pos_iff, length_bytes]
        exact Nat.pos_of_ne_zero fun h => List.cons_ne_nil d t (byteSize_eq_zero_iff.1 h)
      rw [hbytes]
      exact List.nil_lt_cons b bs
  | case2 => cases h
  | case3 c s d t ih =>
    rw [bytes_cons, bytes_cons]
    simp only [Bool.or_eq_true, decide_eq_true_eq, Bool.and_eq_true, beq_iff_eq] at h
    rcases h with hlt | ⟨rfl, hle⟩
    · exact utf8EncodeChar_append_lt hlt (bytes s) (bytes t)
    · exact List.append_left_lt (ih hle fun heq => hne (congrArg (c :: ·) heq))

theorem le_self (s : Text) : le s s = true := by
  induction s with
  | nil => rfl
  | cons c s ih => simp [le, ih]

/-- Any two texts can be compared, which is what sorting needs. -/
theorem le_or_le (s t : Text) : (le s t || le t s) = true := by
  fun_induction le s t with
  | case1 => rfl
  | case2 => rfl
  | case3 c s d t ih =>
    rw [le]
    rcases Nat.lt_trichotomy c.toNat d.toNat with hlt | heq | hgt
    · simp [hlt]
    · obtain rfl : c = d := Char.toNat_inj.1 heq
      simpa using ih
    · simp [hgt]

/-- Comparing two texts character by character is comparing their bytes. -/
theorem le_iff_bytes_le {s t : Text} : le s t = true ↔ bytes s ≤ bytes t := by
  constructor
  · intro h
    by_cases heq : s = t
    · exact heq ▸ List.le_refl _
    · exact List.le_of_lt (bytes_lt_of_le h heq)
  · intro h
    by_contra hnot
    have hle : le t s = true := by
      have := le_or_le s t
      simpa [hnot] using this
    have hne : t ≠ s := fun heq => hnot (heq ▸ le_self t)
    exact h (bytes_lt_of_le hle hne)

theorem le_of_le_of_le {s t u : Text} (hst : le s t = true) (htu : le t u = true) :
    le s u = true := by
  rw [le_iff_bytes_le] at *
  exact List.le_trans hst htu

end Soql.Text
