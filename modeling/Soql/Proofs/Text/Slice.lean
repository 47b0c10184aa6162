import Soql.Proofs.Token.Lexeme
import Soql.Text.Slice

/-!
# Which slices there are

A slice exists exactly when the text falls into three parts whose sizes are the two offsets
(`slice?_eq_some_iff`). In the bytes of a text an ASCII byte is always a character of its own:
bytes that belong to characters beyond ASCII are not ASCII.
-/

namespace Soql.Text

/-- Every character takes at least one byte, so offsets tell places apart. -/
theorem utf8Size_ne_zero (c : Char) : c.utf8Size ≠ 0 := by
  have := c.utf8Size_pos
  omega

theorem byteSize_eq_zero_iff {s : Text} : byteSize s = 0 ↔ s = [] := by
  cases s with
  | nil => simp
  | cons c s => simp [utf8Size_ne_zero]

/-- Bytes can be dropped exactly where a character ends. -/
theorem dropBytes?_eq_some_iff {n : Nat} {s z : Text} :
    dropBytes? n s = some z ↔ ∃ x, s = x ++ z ∧ byteSize x = n := by
  induction s generalizing n with
  | nil =>
    rw [dropBytes?]
    constructor
    · intro h
      split at h
      · next hn => exact ⟨[], by simpa using h, hn.symm⟩
      · cases h
    · rintro ⟨x, hx, rfl⟩
      obtain ⟨rfl, rfl⟩ := List.nil_eq_append_iff.1 hx
      rfl
  | cons c s ih =>
    rw [dropBytes?]
    constructor
    · intro h
      split at h
      · next hn => exact ⟨[], by simpa using h, hn.symm⟩
      · split at h
        · next hle =>
          obtain ⟨x, rfl, hx⟩ := ih.1 h
          exact ⟨c :: x, rfl, by rw [byteSize_cons]; omega⟩
        · cases h
    · rintro ⟨x, hx, rfl⟩
      cases x with
      | nil => simp_all
      | cons d x =>
        obtain ⟨rfl, rfl⟩ := List.cons.inj hx
        have := utf8Size_ne_zero c
        rw [byteSize_cons, if_neg (by omega), if_pos (by omega), ih]
        exact ⟨x, rfl, by omega⟩

/-- Bytes can be taken exactly where a character ends. -/
theorem takeBytes?_eq_some_iff {n : Nat} {s y : Text} :
    takeBytes? n s = some y ↔ ∃ z, s = y ++ z ∧ byteSize y = n := by
  induction s generalizing n y with
  | nil =>
    rw [takeBytes?]
    constructor
    · intro h
      split at h
      · next hn =>
        obtain rfl : [] = y := by simpa using h
        exact ⟨[], rfl, hn.symm⟩
      · cases h
    · rintro ⟨z, hz, rfl⟩
      obtain ⟨rfl, rfl⟩ := List.nil_eq_append_iff.1 hz
      rfl
  | cons c s ih =>
    rw [takeBytes?]
    constructor
    · intro h
      split at h
      · next hn =>
        obtain rfl : [] = y := by simpa using h
        exact ⟨c :: s, rfl, hn.symm⟩
      · split at h
        · next hle =>
          obtain ⟨x, hx, rfl⟩ := Option.map_eq_some_iff.1 h
          obtain ⟨z, rfl, hsize⟩ := ih.1 hx
          exact ⟨z, rfl, by rw [byteSize_cons]; omega⟩
        · cases h
    · rintro ⟨z, hz, rfl⟩
      cases y with
      | nil => simp
      | cons d y =>
        obtain ⟨rfl, rfl⟩ := List.cons.inj hz
        have := utf8Size_ne_zero c
        rw [byteSize_cons, if_neg (by omega), if_pos (by omega), Option.map_eq_some_iff]
        exact ⟨y, ih.2 ⟨z, rfl, by omega⟩, rfl⟩

@[simp] theorem dropBytes?_append (x z : Text) : dropBytes? (byteSize x) (x ++ z) = some z :=
  dropBytes?_eq_some_iff.2 ⟨x, rfl, rfl⟩

@[simp] theorem takeBytes?_append (y z : Text) : takeBytes? (byteSize y) (y ++ z) = some y :=
  takeBytes?_eq_some_iff.2 ⟨z, rfl, rfl⟩

/-- A slice is the middle of three parts, whose sizes are the offsets. -/
theorem slice?_eq_some_iff {s y : Text} {start stop : Nat} : slice? s start stop = some y ↔
    ∃ x z, s = x ++ y ++ z ∧ byteSize x = start ∧ byteSize (x ++ y) = stop := by
  rw [slice?]
  constructor
  · intro h
    split at h
    · next hle =>
      obtain ⟨w, hdrop, htake⟩ := Option.bind_eq_some_iff.1 h
      obtain ⟨x, rfl, hx⟩ := dropBytes?_eq_some_iff.1 hdrop
      obtain ⟨z, rfl, hy⟩ := takeBytes?_eq_some_iff.1 htake
      exact ⟨x, z, by rw [List.append_assoc], hx, by rw [byteSize_append]; omega⟩
    · cases h
  · rintro ⟨x, z, rfl, rfl, rfl⟩
    rw [byteSize_append, if_pos (by omega), Option.bind_eq_some_iff]
    exact ⟨y ++ z, dropBytes?_eq_some_iff.2 ⟨x, by rw [List.append_assoc], rfl⟩,
      takeBytes?_eq_some_iff.2 ⟨z, rfl, by omega⟩⟩

/-- A slice that runs up to the end. -/
theorem slice?_append_end (x y : Text) :
    slice? (x ++ y) (byteSize x) (byteSize (x ++ y)) = some y :=
  slice?_eq_some_iff.2 ⟨x, [], by simp, rfl, rfl⟩

/-- A slice that starts at the start. -/
theorem slice?_append_start (y z : Text) : slice? (y ++ z) 0 (byteSize y) = some y :=
  slice?_eq_some_iff.2 ⟨[], z, rfl, rfl, rfl⟩

/-- An offset is a boundary if it is the length of a part in front. -/
theorem isBoundary_iff {s : Text} {offset : Nat} :
    isBoundary s offset = true ↔ ∃ x z, s = x ++ z ∧ byteSize x = offset := by
  rw [isBoundary, Option.isSome_iff_exists]
  simp only [dropBytes?_eq_some_iff]
  exact exists_comm

/-- There is a slice between two offsets exactly when they are in order, within the text and
between characters. -/
theorem isSome_slice?_iff {s : Text} {start stop : Nat} : (slice? s start stop).isSome = true ↔
    start ≤ stop ∧ stop ≤ byteSize s ∧ isBoundary s start = true ∧ isBoundary s stop = true := by
  rw [Option.isSome_iff_exists]
  constructor
  · rintro ⟨y, h⟩
    obtain ⟨x, z, rfl, rfl, rfl⟩ := slice?_eq_some_iff.1 h
    refine ⟨by simp, by simp, isBoundary_iff.2 ⟨x, y ++ z, by simp, rfl⟩,
      isBoundary_iff.2 ⟨x ++ y, z, rfl, rfl⟩⟩
  · rintro ⟨hle, -, hstart, hstop⟩
    obtain ⟨x, z, rfl, rfl⟩ := isBoundary_iff.1 hstart
    obtain ⟨x', z', hs, rfl⟩ := isBoundary_iff.1 hstop
    have hfront : x <+: x ++ z := List.prefix_append x z
    have hfront' : x' <+: x ++ z := hs ▸ List.prefix_append x' z'
    rcases List.prefix_or_prefix_of_prefix hfront hfront' with ⟨y, rfl⟩ | ⟨y, rfl⟩
    · exact ⟨y, slice?_eq_some_iff.2 ⟨x, z', hs, rfl, rfl⟩⟩
    · -- the offsets are in order, so nothing lies between them
      have hy : y = [] := by
        rw [byteSize_append] at hle
        exact byteSize_eq_zero_iff.1 (by omega)
      exact ⟨[], slice?_eq_some_iff.2 ⟨x', z', by simpa using hs, by simp [hy], by simp⟩⟩

example : slice? "né".toList 0 2 = none := by decide

section Bytes

@[simp] theorem bytes_nil : bytes [] = [] := rfl

@[simp] theorem bytes_cons (c : Char) (s : Text) :
    bytes (c :: s) = String.utf8EncodeChar c ++ bytes s := rfl

@[simp] theorem bytes_append (s t : Text) : bytes (s ++ t) = bytes s ++ bytes t := by
  simp [bytes]

/-- The size of a text counts its bytes. -/
@[simp] theorem length_bytes (s : Text) : (bytes s).length = byteSize s := by
  induction s with
  | nil => rfl
  | cons c s ih => simp [ih]

/-- An ASCII character is one byte, its code point. -/
theorem utf8EncodeChar_of_lt {c : Char} (h : c.toNat < 128) :
    String.utf8EncodeChar c = [UInt8.ofNat c.toNat] := by
  have hle : c.val.toNat ≤ 127 := by
    have : c.val.toNat < 128 := h
    omega
  rw [String.utf8EncodeChar, if_pos hle]
  rfl

/-- No byte of another character is an ASCII character. -/
theorem utf8EncodeChar_ge {c : Char} (h : 128 ≤ c.toNat) :
    ∀ b ∈ String.utf8EncodeChar c, 128 ≤ b.toNat := by
  have hge : ¬c.val.toNat ≤ 127 := by
    have : 128 ≤ c.val.toNat := h
    omega
  intro b hb
  rw [String.utf8EncodeChar, if_neg hge] at hb
  split at hb
  · simp only [List.mem_cons, List.not_mem_nil, or_false] at hb
    rcases hb with rfl | rfl <;> rw [UInt8.toNat_ofNat'] <;> omega
  · split at hb
    · simp only [List.mem_cons, List.not_mem_nil, or_false] at hb
      rcases hb with rfl | rfl | rfl <;> rw [UInt8.toNat_ofNat'] <;> omega
    · simp only [List.mem_cons, List.not_mem_nil, or_false] at hb
      rcases hb with rfl | rfl | rfl | rfl <;> rw [UInt8.toNat_ofNat'] <;> omega

end Bytes

end Soql.Text
