import Soql.Proofs.Scanner.Literal
import Soql.Proofs.Text.Pattern

/-!
# Fixed dates by their format

ISO 8601 gives the form of dates and of points in time as a pattern. The recognisers accept just
the texts of these patterns (`isoDates_exact`), although one compares bytes at fixed places and the
other splits at the first `T`, cuts off eight bytes and takes as many digits of a fraction as there
are: a date holds no `T`, a text of eight bytes that is a time of day ends where a character ends,
and no time zone starts with a digit or a point. No text is a date in two ways.
-/

namespace Soql

open Text
open scoped Computability

namespace Pattern

/-- A calendar date: `YYYY-MM-DD`. -/
def date : Language Char :=
  digit ^ 4 * fixed ['-'] * digit ^ 2 * fixed ['-'] * digit ^ 2

/-- A time of day: `hh:mm:ss`. -/
def clock : Language Char :=
  digit ^ 2 * fixed [':'] * digit ^ 2 * fixed [':'] * digit ^ 2

/-- A fraction of a second. -/
def fraction : Language Char :=
  fixed ['.'] * several digit

/-- The offset of a time zone: `+hh:mm` or `-hh:mm`. -/
def offset : Language Char :=
  (fixed ['+'] + fixed ['-']) * digit ^ 2 * fixed [':'] * digit ^ 2

/-- A time zone. -/
def zone : Language Char :=
  fixed ['Z'] + fixed ['z'] + offset

/-- A point in time. -/
def dateTime : Language Char :=
  date * (fixed ['T'] + fixed ['t']) * clock * maybe fraction * zone

/-- The texts whose characters are in the given classes, one by one. -/
def shaped (ps : List (Char → Bool)) : Language Char :=
  (ps.map fun p => one fun c => p c = true).prod

/-- A product of classes is matched place by place. -/
theorem mem_shaped {ps : List (Char → Bool)} {s : Text} :
    s ∈ shaped ps ↔ fits ps s = true := by
  induction ps generalizing s with
  | nil =>
    change s ∈ (1 : Language Char) ↔ _
    cases s <;> simp [Language.mem_one, fits]
  | cons p ps ih =>
    change s ∈ one (fun c => p c = true) * shaped ps ↔ _
    cases s with
    | nil => simp [mem_one_mul, fits]
    | cons c s => rw [cons_mem_one_mul, ih, fits, Bool.and_eq_true]

/-- The pattern of dates is the shape that the recogniser asks for. -/
theorem date_eq : date = shaped Date.dateShape := by
  simp [date, shaped, Date.dateShape, digit_eq, fixed_singleton, pow_succ, mul_assoc]

theorem clock_eq : clock = shaped Date.clockShape := by
  simp [clock, shaped, Date.clockShape, digit_eq, fixed_singleton, pow_succ, mul_assoc]

theorem offset_eq : offset = shaped Date.zoneShape := by
  simp only [offset, fixed_singleton, one_add_one]
  simp [shaped, Date.zoneShape, digit_eq, pow_succ, mul_assoc]

/-- A zone is a letter or an offset. -/
theorem mem_zone {s : Text} : s ∈ zone ↔ s = ['Z'] ∨ s = ['z'] ∨ fits Date.zoneShape s = true := by
  rw [zone, Language.mem_add, Language.mem_add, offset_eq, mem_shaped, mem_fixed, mem_fixed,
    or_assoc]

theorem mem_fraction {s : Text} :
    s ∈ fraction ↔ ∃ digits, s = '.' :: digits ∧ digits ≠ [] ∧ ∀ c ∈ digits, c.isDigit = true := by
  rw [fraction, mem_fixed_mul]
  simp only [digit_eq, mem_several_one]
  exact exists_congr fun digits => and_comm

/-- A date with time is divided at its letter. -/
theorem mem_dateTime {s : Text} : s ∈ dateTime ↔ ∃ d ∈ date, ∃ c time, s = d ++ c :: time ∧
    (c = 'T' ∨ c = 't') ∧ time ∈ clock * (maybe fraction * zone) := by
  have hassoc : dateTime = date * (one (fun c => c = 'T' ∨ c = 't') *
      (clock * (maybe fraction * zone))) := by
    simp only [dateTime, fixed_singleton, one_add_one, mul_assoc]
  rw [hassoc, Language.mem_mul]
  simp only [mem_one_mul]
  constructor
  · rintro ⟨d, hd, _, ⟨c, time, rfl, hc, htime⟩, rfl⟩
    exact ⟨d, hd, c, time, rfl, hc, htime⟩
  · rintro ⟨d, hd, c, time, rfl, hc, htime⟩
    exact ⟨d, hd, _, ⟨c, time, rfl, hc, htime⟩, rfl⟩

/-- No time zone goes on with what stands before it. -/
theorem head?_of_mem_zone {s : Text} (h : s ∈ zone) :
    ∃ c t, s = c :: t ∧ c ≠ '.' ∧ c.isDigit = false := by
  rcases mem_zone.1 h with rfl | rfl | h
  · exact ⟨_, _, rfl, by decide, by decide⟩
  · exact ⟨_, _, rfl, by decide, by decide⟩
  · cases s with
    | nil => cases h
    | cons c t =>
      simp only [Date.zoneShape, fits, Bool.and_eq_true, Bool.or_eq_true, beq_iff_eq] at h
      refine ⟨c, t, rfl, ?_⟩
      rcases h.1 with rfl | rfl <;> decide

end Pattern

/-- A text is cut at the first character of a class. -/
theorem Text.cutAt_eq_some_iff {p : Char → Bool} {s a b : Text} : cutAt p s = some (a, b) ↔
    ∃ c, s = a ++ c :: b ∧ p c = true ∧ ∀ x ∈ a, p x = false := by
  induction s generalizing a with
  | nil => simp [cutAt]
  | cons c s ih =>
    rw [cutAt]
    cases hc : p c with
    | true =>
      constructor
      · intro h
        obtain ⟨rfl, rfl⟩ := Prod.mk.inj (Option.some.inj h)
        exact ⟨c, rfl, hc, by simp⟩
      · rintro ⟨d, hs, hd, ha⟩
        cases a with
        | nil => simp_all
        | cons x a =>
          obtain ⟨rfl, -⟩ := List.cons.inj hs
          rw [ha c (by simp)] at hc
          cases hc
    | false =>
      constructor
      · intro h
        obtain ⟨⟨a', b'⟩, hcut, hpair⟩ := Option.map_eq_some_iff.1 h
        obtain ⟨rfl, rfl⟩ := Prod.mk.inj hpair
        obtain ⟨d, rfl, hd, ha⟩ := ih.1 hcut
        exact ⟨d, rfl, hd, List.forall_mem_cons.2 ⟨hc, ha⟩⟩
      · rintro ⟨d, hs, hd, ha⟩
        cases a with
        | nil =>
          obtain ⟨rfl, -⟩ := List.cons.inj hs
          rw [hc] at hd
          cases hd
        | cons x a =>
          rw [List.cons_append, List.cons.injEq] at hs
          obtain ⟨rfl, hs⟩ := hs
          have := ih.2 ⟨d, hs, hd, (List.forall_mem_cons.1 ha).2⟩
          simp [this]

namespace Date

variable {s : Text}

/-- The recogniser accepts the dates of the pattern. -/
theorem isIsoDate_iff : isIsoDate s = true ↔ s ∈ Pattern.date := by
  rw [isIsoDate_eq_fits, Pattern.date_eq, Pattern.mem_shaped]

theorem isZone_iff : isZone s = true ↔ s ∈ Pattern.zone := by
  rw [isZone_eq_fits, Pattern.mem_zone]
  simp [or_assoc]

/-- A clock time is taken off the front of a text. -/
theorem afterClock?_iff {rest : Text} :
    afterClock? s = some rest ↔ ∃ clock ∈ Pattern.clock, s = clock ++ rest := by
  rw [afterClock?_eq_some_iff, Pattern.clock_eq]
  simp only [Pattern.mem_shaped]

/-- The digits of a fraction are all taken, and a time zone is left. -/
theorem isZone_afterFraction?_iff :
    (afterFraction? s).any isZone = true ↔ s ∈ Pattern.maybe Pattern.fraction * Pattern.zone := by
  rw [Language.mem_mul]
  constructor
  · intro h
    unfold afterFraction? at h
    split at h
    · next t =>
      split at h
      · cases h
      · next digits hdigits =>
        have hall : ∀ c ∈ t.takeWhile Char.isDigit, c.isDigit = true :=
          fun c hc => List.mem_takeWhile_imp hc
        refine ⟨_, Pattern.mem_maybe.2 (.inr (Pattern.mem_fraction.2 ⟨_, rfl, hdigits, hall⟩)),
          _, isZone_iff.1 (by simpa using h), ?_⟩
        rw [List.cons_append, List.takeWhile_append_dropWhile]
    · exact ⟨[], Pattern.mem_maybe.2 (.inl rfl), s, isZone_iff.1 (by simpa using h), rfl⟩
  · rintro ⟨f, hf, z, hz, rfl⟩
    obtain ⟨c, t, rfl, hpoint, hdigit⟩ := Pattern.head?_of_mem_zone hz
    rw [← isZone_iff] at hz
    rcases Pattern.mem_maybe.1 hf with rfl | hf
    · rw [List.nil_append, afterFraction?]
      · simpa using hz
      · simpa using hpoint
    · obtain ⟨digits, rfl, hne, hall⟩ := Pattern.mem_fraction.1 hf
      have htake : (digits ++ c :: t).takeWhile Char.isDigit = digits := by
        rw [List.takeWhile_append_of_pos hall, List.takeWhile_cons_of_neg (by simp [hdigit]),
          List.append_nil]
      have hdrop : (digits ++ c :: t).dropWhile Char.isDigit = c :: t := by
        rw [List.dropWhile_append_of_pos hall, List.dropWhile_cons_of_neg (by simp [hdigit])]
      rw [List.cons_append, afterFraction?, htake, hdrop]
      split
      · contradiction
      · simpa using hz

/-- A date holds neither form of the letter before a time of day. -/
theorem not_mem_of_isIsoDate (h : isIsoDate s = true) :
    ∀ c ∈ s, (c == 'T' || c == 't') = false := by
  have hshape : ∀ p ∈ dateShape, p 'T' = false ∧ p 't' = false := by decide
  rw [isIsoDate_eq_fits] at h
  intro c hc
  obtain ⟨p, hp, hpc⟩ := exists_of_fits h c hc
  rw [Bool.eq_false_iff, ne_eq, Bool.or_eq_true, beq_iff_eq, beq_iff_eq]
  rintro (rfl | rfl)
  · rw [(hshape p hp).1] at hpc
    cases hpc
  · rw [(hshape p hp).2] at hpc
    cases hpc

/-- The recogniser accepts the dates with time of the pattern. -/
theorem isIsoDateTime_iff : isIsoDateTime s = true ↔ s ∈ Pattern.dateTime := by
  rw [Pattern.mem_dateTime, isIsoDateTime]
  constructor
  · intro h
    split at h
    · next d time hcut =>
      obtain ⟨c, rfl, hc, -⟩ := Text.cutAt_eq_some_iff.1 hcut
      rw [Bool.and_eq_true] at h
      cases hclock : afterClock? time with
      | none => simp [hclock] at h
      | some rest =>
        rw [hclock, Option.bind_some, isZone_afterFraction?_iff] at h
        obtain ⟨clock, hmem, rfl⟩ := afterClock?_iff.1 hclock
        exact ⟨d, isIsoDate_iff.1 h.1, c, _, rfl, by simpa using hc,
          Language.append_mem_mul hmem h.2⟩
    · cases h
  · rintro ⟨d, hd, c, time, rfl, hc, htime⟩
    obtain ⟨clock, hclock, rest, hrest, rfl⟩ := Language.mem_mul.1 htime
    rw [← isIsoDate_iff] at hd
    have hcut : Text.cutAt (fun c => c == 'T' || c == 't') (d ++ c :: (clock ++ rest)) =
        some (d, clock ++ rest) :=
      Text.cutAt_eq_some_iff.2 ⟨c, rfl, by simpa using hc, not_mem_of_isIsoDate hd⟩
    simp only [hcut, hd, afterClock?_iff.2 ⟨clock, hclock, rfl⟩, Option.bind_some,
      isZone_afterFraction?_iff.2 hrest, Bool.and_self]

/-- A date starts with a digit, and so is no relative date. -/
theorem head?_of_isIsoDate (h : isIsoDate s = true) : ∃ c ∈ s.head?, c.isDigit = true := by
  rw [isIsoDate_eq_fits] at h
  cases s with
  | nil => cases h
  | cons c s =>
    rw [dateShape, fits, Bool.and_eq_true] at h
    exact ⟨c, rfl, h.1⟩

/-- A relative date does not start with a digit. -/
theorem head?_of_isLiteral (h : isLiteral s = true) : ¬∃ c ∈ s.head?, c.isDigit = true := by
  rintro ⟨c, hc, hdigit⟩
  have hrange := Token.isDigit_iff.1 hdigit
  have hblank : isBlank c = false := by
    refine Token.not_isBlank_of_isWordPart ?_
    rw [Token.isWordPart_iff]
    omega
  have htrim : (s.trim.map lowerOne).head? = some (lowerOne c) := by
    rw [List.head?_map, head?_trim hc hblank, Option.map_some]
  obtain ⟨word, hword, hs⟩ := exists_of_isLiteral h
  obtain ⟨-, -, hstart, hne, -⟩ := isStem_of_mem word hword
  rw [lowercase_trim_eq_map h] at hs
  have hhead : word.head? = some (lowerOne c) := by
    rcases hs with hs | ⟨count, hs, -⟩
    · rw [← hs, htrim]
    · rwa [hs, List.head?_append_of_ne_nil _ hne] at htrim
  have hword := (hstart _ hhead).1
  rw [lowerOne_of_lt (by omega), Token.isWordStart_toLower,
    Token.isWordStart_of_isDigit hdigit] at hword
  cases hword

/-- Fixed dates are recognised by their format, by bytes as by characters, and no text is a date
in two ways. -/
theorem isoDates_exact (s : Text) :
    Scanner.isIsoDate? s = some (isIsoDate s) ∧ (isIsoDate s = true ↔ s ∈ Pattern.date) ∧
    Scanner.isIsoDateTime? s = some (isIsoDateTime s) ∧
      (isIsoDateTime s = true ↔ s ∈ Pattern.dateTime) ∧
    ¬(isLiteral s = true ∧ isIsoDate s = true) ∧
    ¬(isLiteral s = true ∧ isIsoDateTime s = true) ∧
    ¬(isIsoDate s = true ∧ isIsoDateTime s = true) := by
  refine ⟨Scanner.isIsoDate?_eq s, isIsoDate_iff, Scanner.isIsoDateTime?_eq s, isIsoDateTime_iff,
    fun h => head?_of_isLiteral h.1 (head?_of_isIsoDate h.2), ?_, ?_⟩
  · rintro ⟨hliteral, htime⟩
    obtain ⟨d, hd, c, time, rfl, -⟩ := Pattern.mem_dateTime.1 (isIsoDateTime_iff.1 htime)
    obtain ⟨x, hx, hdigit⟩ := head?_of_isIsoDate (isIsoDate_iff.2 hd)
    exact head?_of_isLiteral hliteral ⟨x, by simp [List.head?_append, Option.mem_def.1 hx], hdigit⟩
  · rintro ⟨hdate, htime⟩
    obtain ⟨d, hd, c, time, rfl, hc, -⟩ := Pattern.mem_dateTime.1 (isIsoDateTime_iff.1 htime)
    have := not_mem_of_isIsoDate hdate c (by simp)
    rcases hc with rfl | rfl <;> cases this

end Date

end Soql
