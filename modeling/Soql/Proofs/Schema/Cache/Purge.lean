import Soql.Proofs.Schema.Cache.History

/-!
# Purging is not seen by readers

A reader is not given an entry that has expired, and while the time does not go back an expired
entry stays expired. So two caches that differ only in such entries (`AgreeAt`) answer every read
alike, and each request leaves two caches behind that again differ only in such entries. A purge
does so even when it is made of one of them only, which is why a session without some of its
purges reads the same. What a purge leaves is what a reader would have been given.
-/

namespace Soql.Schema.Cache

/-- The time of a request that tells one. -/
def Request.time? : Request → Option Nat
  | .insert _ now | .get _ now | .purge now => some now
  | .invalidate _ | .invalidateAll => none

/-- The time of a request, or the time before it. -/
def Request.clock (before : Nat) (r : Request) : Nat :=
  r.time?.getD before

/-- The times of some requests never go back. -/
def Chronological (rs : List Request) : Prop :=
  (rs.filterMap Request.time?).Pairwise (· ≤ ·)

/-- The second requests are the first without some of their purges. -/
inductive LessPurges : List Request → List Request → Prop
  | nil : LessPurges [] []
  | keep (r : Request) {rs ts : List Request} (rest : LessPurges rs ts) :
    LessPurges (r :: rs) (r :: ts)
  | drop (now : Nat) {rs ts : List Request} (rest : LessPurges rs ts) :
    LessPurges (.purge now :: rs) ts

/-- What a reader was given, when the answer is one to a reader. -/
def Answer.found? : Answer → Option (Option Describe)
  | .describe found => some found
  | _ => none

/-- What the readers of a session are given, in order. -/
def reads (c : Cache) (rs : List Request) : List (Option Describe) :=
  (c.run rs).filterMap (·.1.found?)

/-- Two caches differ at most in entries that have expired. -/
structure AgreeAt (now : Nat) (c d : Cache) : Prop where
  lifetime_eq : c.lifetime = d.lifetime
  mem_iff : ∀ key e, c.isExpired now e = false →
    ((key, e) ∈ c.entries.entries ↔ (key, e) ∈ d.entries.entries)

section Reading

variable {c d : Cache} {now : Nat}

theorem isExpired_eq_false_iff {e : CacheEntry} :
    c.isExpired now e = false ↔ ¬ c.lifetime ≤ now - e.storedAt := by
  rw [isExpired, decide_eq_false_iff_not]

/-- An entry that is not expired yet was not expired before. -/
theorem not_isExpired_of_le {before : Nat} {e : CacheEntry} (hle : before ≤ now)
    (he : c.isExpired now e = false) : c.isExpired before e = false := by
  rw [isExpired_eq_false_iff] at he ⊢
  omega

/-- What is found is an entry that is still good. -/
theorem get?_eq_some_iff {name : Text} {describe : Describe} : c.get? name now = some describe ↔
    ∃ e, (Text.lowercase name, e) ∈ c.entries.entries ∧ c.isExpired now e = false ∧
      e.describe = describe := by
  simp only [← NameMap.get?_eq_some_iff]
  unfold get?
  cases c.entries.get? name with
  | none => simp
  | some e => cases hexpired : c.isExpired now e <;> simp [hexpired]

theorem isSome_get?_of_entry {name : Text} {e : CacheEntry} (h : c.entries.get? name = some e) :
    (c.get? name now).isSome = !c.isExpired now e := by
  unfold get?
  rw [h]
  cases hexpired : c.isExpired now e <;> simp [hexpired]

theorem AgreeAt.refl (now : Nat) (c : Cache) : AgreeAt now c c :=
  ⟨rfl, fun _ _ _ => Iff.rfl⟩

theorem AgreeAt.isExpired_eq (h : AgreeAt now c d) (time : Nat) (e : CacheEntry) :
    c.isExpired time e = d.isExpired time e := by
  rw [isExpired, isExpired, h.lifetime_eq]

/-- Caches that agree at a time find the same then. -/
theorem AgreeAt.get?_eq (h : AgreeAt now c d) (name : Text) :
    c.get? name now = d.get? name now := by
  refine Option.ext fun describe => ?_
  rw [get?_eq_some_iff, get?_eq_some_iff]
  refine exists_congr fun e => ?_
  rw [← h.isExpired_eq]
  constructor
  · rintro ⟨hmem, hfresh, hdescribe⟩
    exact ⟨(h.mem_iff _ e hfresh).1 hmem, hfresh, hdescribe⟩
  · rintro ⟨hmem, hfresh, hdescribe⟩
    exact ⟨(h.mem_iff _ e hfresh).2 hmem, hfresh, hdescribe⟩

end Reading

section Step

variable {c d : Cache} {t : Nat}

/-- Both caches are asked the same. -/
theorem AgreeAt.after (h : AgreeAt t c d) {r : Request} (hle : t ≤ r.clock t) :
    AgreeAt (r.clock t) (c.after r) (d.after r) := by
  refine ⟨by rw [lifetime_after, lifetime_after, h.lifetime_eq], ?_⟩
  rintro key ⟨describe, storedAt⟩ hfresh
  rw [isExpired_eq_false_iff, lifetime_after, ← isExpired_eq_false_iff] at hfresh
  rw [mem_after_iff, mem_after_iff, ← h.lifetime_eq,
    h.mem_iff key _ (not_isExpired_of_le hle hfresh)]

/-- Only the first cache is purged. -/
theorem AgreeAt.after_purge (h : AgreeAt t c d) {now : Nat} (hle : t ≤ now) :
    AgreeAt now (c.after (.purge now)) d := by
  refine ⟨h.lifetime_eq, ?_⟩
  rintro key ⟨describe, storedAt⟩ hfresh
  have hkept : ¬ (Request.purge now).Ends c.lifetime key storedAt :=
    isExpired_eq_false_iff.1 hfresh
  rw [mem_after_iff, h.mem_iff key _ (not_isExpired_of_le hle hfresh)]
  simp [hkept]

/-- They answer alike at that time and later. -/
theorem AgreeAt.found?_answer (h : AgreeAt t c d) {r : Request} (hle : t ≤ r.clock t) :
    (c.answer r).found? = (d.answer r).found? := by
  cases r with
  | get name now =>
    have hlater := h.after hle
    exact congrArg some (hlater.get?_eq name)
  | _ => rfl

theorem reads_cons (c : Cache) (r : Request) (rs : List Request) :
    c.reads (r :: rs) = (c.answer r).found?.toList ++ (c.after r).reads rs := by
  unfold reads
  rw [run, List.filterMap_cons]
  cases (c.answer r).found? <;> rfl

/-- Times that do not go back from the time before them. -/
theorem pairwise_clock {r : Request} {rs : List Request}
    (h : (t :: (r :: rs).filterMap Request.time?).Pairwise (· ≤ ·)) :
    t ≤ r.clock t ∧ (r.clock t :: rs.filterMap Request.time?).Pairwise (· ≤ ·) := by
  rw [List.filterMap_cons] at h
  unfold Request.clock
  cases htime : r.time? with
  | none =>
    rw [htime] at h
    exact ⟨le_rfl, h⟩
  | some now =>
    rw [htime] at h
    obtain ⟨hle, hrest⟩ := List.pairwise_cons.1 h
    exact ⟨hle now (List.mem_cons_self ..), hrest⟩

/-- By induction on what is left out: the caches agree at the time reached so far. -/
theorem AgreeAt.reads_eq {rs ts : List Request} (hless : LessPurges rs ts) (h : AgreeAt t c d)
    (htimes : (t :: rs.filterMap Request.time?).Pairwise (· ≤ ·)) : c.reads rs = d.reads ts := by
  induction hless generalizing c d t with
  | nil => rfl
  | keep r _ ih =>
    obtain ⟨hle, hrest⟩ := pairwise_clock htimes
    rw [reads_cons, reads_cons, h.found?_answer hle, ih (h.after hle) hrest]
  | drop now _ ih =>
    obtain ⟨hle, hrest⟩ := pairwise_clock htimes
    rw [reads_cons]
    exact ih (h.after_purge hle) hrest

end Step

section Purge

variable (lifetime : Nat) (history : List Request) (now : Nat)

/-- Entries are found under the names of their objects. -/
theorem get?_of_mem_afterAll {e : Text × CacheEntry}
    (he : e ∈ ((ofLifetime lifetime).afterAll history).entries.entries) :
    ((ofLifetime lifetime).afterAll history).entries.get? e.2.describe.name = some e.2 := by
  obtain ⟨-, -, -, hkey, -⟩ := mem_afterAll_iff.1 he
  rw [NameMap.get?_eq_some_iff, hkey]
  exact he

/-- Purging keeps exactly the entries that are found. -/
theorem entries_purge_afterAll :
    (((ofLifetime lifetime).afterAll history).purge now).entries.entries =
      ((ofLifetime lifetime).afterAll history).entries.entries.filter fun e =>
        (((ofLifetime lifetime).afterAll history).get? e.2.describe.name now).isSome := by
  refine List.filter_congr fun e he => ?_
  exact (isSome_get?_of_entry (get?_of_mem_afterAll lifetime history he)).symm

/-- After purging a name is contained exactly if it is found. -/
theorem contains_purge (c : Cache) (name : Text) :
    (c.purge now).contains name = (c.get? name now).isSome := by
  rw [Bool.eq_iff_iff, contains, NameMap.contains_iff, Option.isSome_iff_exists]
  simp only [purge, NameMap.mem_keep_iff, Bool.not_eq_true', get?_eq_some_iff]
  grind

/-- Readers do not see whether a cache is purged. While the time does not go back, a session
without some of its purges reads the same. After any history a purge leaves the entries, and the
names, for which a reader would have been given a describe. -/
theorem reads_without_purges :
    (∀ thinned, Chronological history → LessPurges history thinned →
      (ofLifetime lifetime).reads thinned = (ofLifetime lifetime).reads history) ∧
    (((ofLifetime lifetime).afterAll history).purge now).entries.entries =
      (((ofLifetime lifetime).afterAll history).entries.entries.filter fun e =>
        (((ofLifetime lifetime).afterAll history).get? e.2.describe.name now).isSome) ∧
    ∀ name, (((ofLifetime lifetime).afterAll history).purge now).contains name =
      (((ofLifetime lifetime).afterAll history).get? name now).isSome := by
  refine ⟨fun thinned hchronological hless => ?_, entries_purge_afterAll lifetime history now,
    contains_purge now _⟩
  have htimes : (0 :: history.filterMap Request.time?).Pairwise (· ≤ ·) :=
    List.pairwise_cons.2 ⟨fun now _ => Nat.zero_le now, hchronological⟩
  exact ((AgreeAt.refl 0 _).reads_eq hless htimes).symm

/-- An object is read, expires, is read and purged, and is stored again. -/
def renewal : List Request :=
  [ .insert (.ofName "Account".toList) 1, .purge 2, .get "account".toList 5,
    .get "ACCOUNT".toList 6, .purge 6, .insert (.ofName "Account".toList) 7, .purge 12,
    .get "Account".toList 12 ]

/-- The second of three purges is left out, and then the last. -/
theorem reads_without_purges_renewal :
    Chronological renewal ∧
    LessPurges renewal (renewal.eraseIdx 6 |>.eraseIdx 4) ∧
    ((ofLifetime 5).reads (renewal.eraseIdx 6 |>.eraseIdx 4)).map (Option.map (·.name)) =
      [some "Account".toList, none, none] := by
  have hchronological : Chronological renewal := by
    unfold Chronological
    decide
  have hless : LessPurges renewal (renewal.eraseIdx 6 |>.eraseIdx 4) :=
    .keep _ <| .keep _ <| .keep _ <| .keep _ <| .drop _ <| .keep _ <| .drop _ <| .keep _ .nil
  refine ⟨hchronological, hless, ?_⟩
  rw [(reads_without_purges 5 renewal 12).1 _ hchronological hless]
  decide +kernel

end Purge

end Soql.Schema.Cache
