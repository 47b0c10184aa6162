import Soql.Proofs.Schema.NameMap
import Soql.Schema.Cache.Request

/-!
# A cache and its history

What is in a cache follows from the requests that were made, whatever their times: a describe is
held from the request that stored it until one that ends it. `mem_afterAll_iff` is the invariant,
one request at a time; answers and sizes of a session are read off it.
-/

namespace Soql.Schema.Cache

/-- A request ends what was stored under a key at a time: it stores something else there, drops the
key or all keys, or purges when the age has reached the lifetime. -/
def Request.Ends (lifetime : Nat) (key : Text) (storedAt : Nat) : Request → Prop
  | .insert describe _ => Text.lowercase describe.name = key
  | .get .. => False
  | .invalidate name => Text.lowercase name = key
  | .invalidateAll => True
  | .purge now => lifetime ≤ now - storedAt

/-- A describe was stored under a key at a time, and no later request has ended that. -/
def Held (lifetime : Nat) (history : List Request) (key : Text) (describe : Describe)
    (storedAt : Nat) : Prop :=
  ∃ before later, history = before ++ .insert describe storedAt :: later ∧
    Text.lowercase describe.name = key ∧ ∀ r ∈ later, ¬ r.Ends lifetime key storedAt

/-- The keys under which some describe is held. -/
def heldKeys (lifetime : Nat) (history : List Request) : Set Text :=
  {key | ∃ describe storedAt, Held lifetime history key describe storedAt}

/-- The answer to a request that a history calls for. -/
def Answer.Fits (lifetime : Nat) (history : List Request) : Request → Answer → Prop
  | .insert .., .done | .invalidateAll, .done => True
  | .get name now, .describe found =>
    ∀ describe, found = some describe ↔ ∃ storedAt,
      Held lifetime history (Text.lowercase name) describe storedAt ∧ now - storedAt < lifetime
  | .invalidate name, .dropped b =>
    b = true ↔ Text.lowercase name ∈
      heldKeys lifetime history \ heldKeys lifetime (history ++ [.invalidate name])
  | .purge now, .purged n =>
    (heldKeys lifetime history \ heldKeys lifetime (history ++ [.purge now])).encard = n
  | _, _ => False

/-- The cache after some requests in order. -/
def afterAll (c : Cache) (rs : List Request) : Cache :=
  rs.foldl after c

/-- The last request acts on what the earlier ones leave. -/
theorem afterAll_concat (c : Cache) (rs : List Request) (r : Request) :
    c.afterAll (rs ++ [r]) = (c.afterAll rs).after r := by
  unfold afterAll
  rw [List.foldl_append]
  rfl

theorem run_concat (c : Cache) (rs : List Request) (r : Request) : c.run (rs ++ [r]) =
    c.run rs ++ [((c.afterAll rs).answer r, (c.afterAll rs).after r)] := by
  induction rs generalizing c with
  | nil => rfl
  | cons s rs ih =>
    rw [List.cons_append, run, ih, run, List.cons_append]
    rfl

section Step

variable {lifetime : Nat} {history : List Request} {key : Text} {describe : Describe}
  {storedAt : Nat}

/-- What is held after one more request: what it does not end, and what it stores. -/
theorem held_concat_iff {r : Request} :
    Held lifetime (history ++ [r]) key describe storedAt ↔
      (Held lifetime history key describe storedAt ∧ ¬ r.Ends lifetime key storedAt) ∨
        (r = .insert describe storedAt ∧ Text.lowercase describe.name = key) := by
  constructor
  · rintro ⟨before, later, heq, hkey, hlater⟩
    rcases List.eq_nil_or_concat later with rfl | ⟨later, x, rfl⟩
    · obtain ⟨-, hr⟩ := List.append_inj' heq rfl
      exact .inr ⟨List.head_eq_of_cons_eq hr, hkey⟩
    · rw [List.concat_eq_append] at heq hlater
      rw [← List.cons_append, ← List.append_assoc] at heq
      obtain ⟨hhistory, hr⟩ := List.append_inj' heq rfl
      obtain rfl : r = x := List.head_eq_of_cons_eq hr
      exact .inl ⟨⟨before, later, hhistory, hkey, fun s hs => hlater s (by simp [hs])⟩,
        hlater r (by simp)⟩
  · rintro (⟨⟨before, later, rfl, hkey, hlater⟩, hr⟩ | ⟨rfl, hkey⟩)
    · refine ⟨before, later ++ [r], by simp, hkey, fun s hs => ?_⟩
      rcases List.mem_append.1 hs with hs | hs
      · exact hlater s hs
      · rw [List.mem_singleton] at hs
        rwa [hs]
    · exact ⟨history, [], rfl, hkey, by simp⟩

/-- A request ends some entries and leaves the others, and an insertion adds one. -/
theorem mem_after_iff (c : Cache) {r : Request} :
    (key, ⟨describe, storedAt⟩) ∈ (c.after r).entries.entries ↔
      ((key, ⟨describe, storedAt⟩) ∈ c.entries.entries ∧ ¬ r.Ends c.lifetime key storedAt) ∨
        (r = .insert describe storedAt ∧ Text.lowercase describe.name = key) := by
  cases r with
  | insert d now =>
    simp only [after, insert, NameMap.mem_insert_iff, Request.Ends, CacheEntry.mk.injEq,
      Request.insert.injEq]
    grind
  | get name now => simp [after, Request.Ends]
  | invalidate name =>
    simp only [after, invalidate, NameMap.mem_erase_iff, Request.Ends, reduceCtorEq, false_and,
      or_false, ne_eq, eq_comm]
  | invalidateAll => simp [after, invalidateAll, NameMap.empty, Request.Ends]
  | purge now =>
    simp only [after, purge, NameMap.mem_keep_iff, isExpired, Request.Ends, Bool.not_eq_true',
      decide_eq_false_iff_not, reduceCtorEq, false_and, or_false]

theorem lifetime_after (c : Cache) (r : Request) : (c.after r).lifetime = c.lifetime := by
  cases r <;> rfl

theorem lifetime_afterAll (c : Cache) (rs : List Request) :
    (c.afterAll rs).lifetime = c.lifetime := by
  induction rs using List.reverseRecOn with
  | nil => rfl
  | append_singleton rs r ih => rw [afterAll_concat, lifetime_after, ih]

/-- The entries of a cache are what its history holds. -/
theorem mem_afterAll_iff :
    (key, ⟨describe, storedAt⟩) ∈ ((ofLifetime lifetime).afterAll history).entries.entries ↔
      Held lifetime history key describe storedAt := by
  induction history using List.reverseRecOn with
  | nil => simp [afterAll, ofLifetime, NameMap.empty, Held]
  | append_singleton history r ih =>
    rw [afterAll_concat, mem_after_iff, ih, lifetime_afterAll, held_concat_iff]
    rfl

end Step

section Session

variable (lifetime : Nat) (history : List Request)

/-- The keys of the cache are those that the history holds. -/
theorem keys_afterAll :
    {key | ∃ e, (key, e) ∈ ((ofLifetime lifetime).afterAll history).entries.entries} =
      heldKeys lifetime history := by
  ext key
  constructor
  · rintro ⟨⟨describe, storedAt⟩, hmem⟩
    exact ⟨describe, storedAt, mem_afterAll_iff.1 hmem⟩
  · rintro ⟨describe, storedAt, hheld⟩
    exact ⟨⟨describe, storedAt⟩, mem_afterAll_iff.2 hheld⟩

/-- The size of the cache counts them. -/
theorem encard_heldKeys :
    (heldKeys lifetime history).encard = ((ofLifetime lifetime).afterAll history).size := by
  rw [← keys_afterAll, NameMap.encard_keys]
  rfl

/-- A description is found if the history holds it and it is young enough. -/
theorem get?_afterAll_iff {name : Text} {now : Nat} {describe : Describe} :
    ((ofLifetime lifetime).afterAll history).get? name now = some describe ↔ ∃ storedAt,
      Held lifetime history (Text.lowercase name) describe storedAt ∧ now - storedAt < lifetime := by
  have hexpired : ∀ e, ((ofLifetime lifetime).afterAll history).isExpired now e = true ↔
      lifetime ≤ now - e.storedAt := by
    intro e
    unfold isExpired
    rw [lifetime_afterAll, decide_eq_true_eq]
    rfl
  simp only [← mem_afterAll_iff, ← NameMap.get?_eq_some_iff]
  unfold get?
  cases ((ofLifetime lifetime).afterAll history).entries.get? name with
  | none => simp
  | some e =>
    simp only [hexpired]
    constructor
    · intro h
      split at h
      · cases h
      · next hfresh =>
        cases h
        exact ⟨e.storedAt, rfl, by omega⟩
    · rintro ⟨storedAt, he, hfresh⟩
      obtain rfl : e = ⟨describe, storedAt⟩ := Option.some.inj he
      rw [if_neg (show ¬ lifetime ≤ now - storedAt by omega)]

/-- A name is contained as long as the history holds it, however old the entry. -/
theorem contains_afterAll_iff {name : Text} :
    ((ofLifetime lifetime).afterAll history).contains name = true ↔
      Text.lowercase name ∈ heldKeys lifetime history := by
  unfold contains
  rw [NameMap.contains_iff, ← keys_afterAll]
  rfl

/-- Nothing is held of a name that was just invalidated. -/
theorem not_mem_heldKeys_invalidate (name : Text) :
    Text.lowercase name ∉ heldKeys lifetime (history ++ [.invalidate name]) := by
  rintro ⟨describe, storedAt, hheld⟩
  rcases held_concat_iff.1 hheld with ⟨-, hends⟩ | ⟨hr, -⟩
  · exact hends rfl
  · cases hr

/-- Purging adds nothing. -/
theorem heldKeys_purge_subset (now : Nat) :
    heldKeys lifetime (history ++ [.purge now]) ⊆ heldKeys lifetime history := by
  rintro key ⟨describe, storedAt, hheld⟩
  rcases held_concat_iff.1 hheld with ⟨hheld, -⟩ | ⟨hr, -⟩
  · exact ⟨describe, storedAt, hheld⟩
  · cases hr

/-- A purge drops as many entries as it says. -/
theorem encard_purged (now : Nat) :
    (heldKeys lifetime history \ heldKeys lifetime (history ++ [.purge now])).encard =
      ((ofLifetime lifetime).afterAll history).expiredCount now := by
  have hafter := encard_heldKeys lifetime (history ++ [.purge now])
  rw [Set.encard_sdiff (heldKeys_purge_subset lifetime history now)
    (Set.finite_of_encard_eq_coe hafter), hafter, encard_heldKeys, afterAll_concat, ← ENat.natCast_sub]
  rfl

/-- Every answer fits the history before it. -/
theorem fits_answer (r : Request) :
    (((ofLifetime lifetime).afterAll history).answer r).Fits lifetime history r := by
  cases r with
  | insert describe now => trivial
  | get name now => exact fun describe => get?_afterAll_iff lifetime history
  | invalidate name =>
    refine (contains_afterAll_iff lifetime history).trans ?_
    exact ⟨fun hheld => ⟨hheld, not_mem_heldKeys_invalidate lifetime history name⟩, And.left⟩
  | invalidateAll => trivial
  | purge now => exact encard_purged lifetime history now

/-- After any history a cache has as many entries as keys are held, and whatever is asked next, the
session goes on with the answer that the history calls for. -/
theorem run_fits_history :
    (heldKeys lifetime history).encard = ((ofLifetime lifetime).afterAll history).size ∧
      ∀ r, ∃ a, (ofLifetime lifetime).run (history ++ [r]) = (ofLifetime lifetime).run history ++
          [(a, (ofLifetime lifetime).afterAll (history ++ [r]))] ∧
        a.Fits lifetime history r := by
  refine ⟨encard_heldKeys lifetime history, fun r => ?_⟩
  refine ⟨((ofLifetime lifetime).afterAll history).answer r, ?_, fits_answer lifetime history r⟩
  rw [run_concat, afterAll_concat]

end Session

end Soql.Schema.Cache
