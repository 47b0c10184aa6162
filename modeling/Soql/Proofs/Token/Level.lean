import Soql.Proofs.Token.Piece

/-!
# Levels and cuts

Where a query is cut depends on the kinds of its tokens only. `Kind.level?` follows the open
parentheses and fails where one closes too much; `Kind.Clear` says that nothing is found in some
tokens at top level, knowing what comes behind them. With these two a cut is described without the
scan that finds it: the tokens before the cut are clear, and behind them the scan finds what it
looks for or there is nothing left.
-/

namespace Soql

namespace Kind

/-- The depth behind a token of the kind that stands at depth `d`. -/
def depthAfter (d : Nat) : Kind → Nat
  | .openParen => d + 1
  | .closeParen => d - 1
  | _ => d

/-- The depth behind tokens that start at depth `d`. -/
def depth (d : Nat) (ks : List Kind) : Nat :=
  ks.foldl depthAfter d

/-- The depth behind tokens that start at depth `d`; none when a parenthesis closes that is not
open. -/
def level? (d : Nat) : List Kind → Option Nat
  | [] => some d
  | k :: ks => if k == .closeParen && d == 0 then none else level? (k.depthAfter d) ks

/-- Nothing is found at top level in tokens that start at depth `d` and are followed by others. -/
def Clear (found : List Kind → Bool) (d : Nat) : List Kind → List Kind → Prop
  | [], _ => True
  | k :: ks, rest =>
    (d = 0 → found (k :: (ks ++ rest)) = false) ∧ Clear found (k.depthAfter d) ks rest

/-- The next token is of a certain kind. -/
def headIs (p : Kind → Bool) (ks : List Kind) : Bool :=
  ks.head?.any p

@[simp] theorem headIs_nil (p : Kind → Bool) : headIs p [] = false := rfl

@[simp] theorem headIs_cons (p : Kind → Bool) (k : Kind) (ks : List Kind) :
    headIs p (k :: ks) = p k := rfl

@[simp] theorem depth_nil (d : Nat) : depth d [] = d := rfl

@[simp] theorem depth_cons (d : Nat) (k : Kind) (ks : List Kind) :
    depth d (k :: ks) = depth (k.depthAfter d) ks := rfl

theorem depth_append (d : Nat) (ks ls : List Kind) :
    depth d (ks ++ ls) = depth (depth d ks) ls :=
  List.foldl_append

@[simp] theorem level?_nil (d : Nat) : level? d [] = some d := rfl

/-- A level that is undefined in the first part stays so. -/
theorem level?_append (d : Nat) (ks ls : List Kind) :
    level? d (ks ++ ls) = (level? d ks).bind (level? · ls) := by
  induction ks generalizing d with
  | nil => rfl
  | cons k ks ih =>
    rw [List.cons_append, level?, level?]
    split
    · rfl
    · exact ih _

/-- Two parts have a level together if the second has one from where the first ends. -/
theorem level?_append_eq_some_iff {d e : Nat} {ks ls : List Kind} :
    level? d (ks ++ ls) = some e ↔ ∃ m, level? d ks = some m ∧ level? m ls = some e := by
  rw [level?_append, Option.bind_eq_some_iff]

/-- The two ways to count agree while nothing closes too much. -/
theorem depth_of_level? {d e : Nat} {ks : List Kind} (h : level? d ks = some e) :
    depth d ks = e := by
  induction ks generalizing d with
  | nil => simpa using h
  | cons k ks ih =>
    rw [level?] at h
    split at h
    · cases h
    · exact ih h

/-- Outer parentheses do not change what a token does. -/
theorem depthAfter_add {k : Kind} {d : Nat} (h : ¬(k == .closeParen && d == 0) = true) (n : Nat) :
    k.depthAfter (d + n) = k.depthAfter d + n := by
  cases k <;> simp only [depthAfter] <;> simp at h <;> omega

/-- What closes what it opens does so inside other parentheses. -/
theorem level?_add {d e : Nat} {ks : List Kind} (h : level? d ks = some e) (n : Nat) :
    level? (d + n) ks = some (e + n) := by
  induction ks generalizing d with
  | nil => simpa using h
  | cons k ks ih =>
    rw [level?] at h
    split at h
    · cases h
    · next hk =>
      have hk' : ¬(k == .closeParen && d + n == 0) = true := by
        simp only [Bool.and_eq_true, beq_iff_eq, not_and] at hk ⊢
        intro hclose
        have := hk hclose
        omega
      rw [level?, if_neg hk', depthAfter_add hk]
      exact ih h

theorem depth_of_all {ks : List Kind} (h : ∀ k ∈ ks, k = .unknown) (d : Nat) : depth d ks = d := by
  induction ks with
  | nil => rfl
  | cons k ks ih =>
    obtain rfl := h k (by simp)
    exact ih fun l hl => h l (by simp [hl])

/-- Unknown tokens, such as blanks, stay on their level. -/
theorem level?_of_all {ks : List Kind} (h : ∀ k ∈ ks, k = .unknown) (d : Nat) :
    level? d ks = some d := by
  induction ks with
  | nil => rfl
  | cons k ks ih =>
    obtain rfl := h k (by simp)
    exact ih fun l hl => h l (by simp [hl])

/-- Without parentheses the level stays as it is. -/
theorem level?_of_no_group {ks : List Kind}
    (h : ∀ k ∈ ks, k ≠ .openParen ∧ k ≠ .closeParen) (d : Nat) : level? d ks = some d := by
  induction ks with
  | nil => rfl
  | cons k ks ih =>
    obtain ⟨hopen, hclose⟩ := h k (by simp)
    have hdepth : k.depthAfter d = d := by
      cases k <;> first | rfl | exact absurd rfl hopen | exact absurd rfl hclose
    rw [level?, if_neg (by simp [hclose]), hdepth]
    exact ih fun l hl => h l (by simp [hl])

/-- Parentheses close exactly as often as they open, none too early. -/
abbrev Balanced (ks : List Kind) : Prop :=
  level? 0 ks = some 0

theorem Balanced.append {ks ls : List Kind} (h : Balanced ks) (h' : Balanced ls) :
    Balanced (ks ++ ls) :=
  level?_append_eq_some_iff.2 ⟨0, h, h'⟩

theorem Balanced.cons {k : Kind} {ks : List Kind} (hopen : k ≠ .openParen)
    (hclose : k ≠ .closeParen) (h : Balanced ks) : Balanced (k :: ks) := by
  have hk : Balanced [k] := level?_of_no_group (by simpa using ⟨hopen, hclose⟩) 0
  exact hk.append h

theorem Balanced.group {ks : List Kind} (h : Balanced ks) :
    Balanced (.openParen :: (ks ++ [.closeParen])) := by
  have hinner : level? 1 ks = some 1 := level?_add h 1
  rw [Balanced, level?, if_neg (by simp)]
  exact level?_append_eq_some_iff.2 ⟨1, hinner, rfl⟩

/-- Tokens between two places at top level are balanced if all of them are. -/
theorem balanced_of_append {as bs cs : List Kind} (h : Balanced (as ++ (bs ++ cs)))
    (htop : depth 0 as = 0) (hstop : cs = [] ∨ depth 0 bs = 0) : Balanced bs := by
  obtain ⟨d, has, hrest⟩ := level?_append_eq_some_iff.1 h
  rw [depth_of_level? has] at htop
  subst htop
  obtain ⟨e, hbs, hcs⟩ := level?_append_eq_some_iff.1 hrest
  rcases hstop with rfl | hstop
  · rw [level?_nil] at hcs
    rw [Balanced, hbs, hcs]
  · rw [depth_of_level? hbs] at hstop
    rw [Balanced, hbs, hstop]

section Clear

variable {f g : List Kind → Bool} {d : Nat} {ks ls rest : List Kind}

@[simp] theorem clear_nil : Clear f d [] rest := trivial

theorem clear_cons_iff {k : Kind} : Clear f d (k :: ks) rest ↔
    (d = 0 → f (k :: (ks ++ rest)) = false) ∧ Clear f (k.depthAfter d) ks rest :=
  Iff.rfl

/-- Nothing is found in two parts if nothing is found in either, with what stands behind it. -/
theorem clear_append_iff :
    Clear f d (ks ++ ls) rest ↔ Clear f d ks (ls ++ rest) ∧ Clear f (depth d ks) ls rest := by
  induction ks generalizing d with
  | nil => simp
  | cons k ks ih =>
    simp only [List.cons_append, Clear, ih, depth_cons, List.append_assoc, and_assoc]

/-- Nothing is found where no token can start it. -/
theorem clear_of_forall (h : ∀ k ∈ ks, ∀ ls, f (k :: ls) = false) : Clear f d ks rest := by
  induction ks generalizing d with
  | nil => trivial
  | cons k ks ih => exact ⟨fun _ => h k (by simp) _, ih fun l hl => h l (by simp [hl])⟩

/-- Where nothing is found, nothing is found that implies it. -/
theorem Clear.imp (h : Clear g d ks rest) (hfg : ∀ ls, f ls = true → g ls = true) :
    Clear f d ks rest := by
  induction ks generalizing d with
  | nil => trivial
  | cons k ks ih =>
    refine ⟨fun hd => ?_, ih h.2⟩
    by_contra hf
    have := hfg _ (by simpa using hf)
    rw [h.1 hd] at this
    cases this

/-- A search for one token does not depend on what follows. -/
theorem Clear.head {p : Kind → Bool} (h : Clear (headIs p) d ks rest) (rest' : List Kind) :
    Clear (headIs p) d ks rest' := by
  induction ks generalizing d with
  | nil => trivial
  | cons k ks ih => exact ⟨h.1, ih h.2⟩

/-- A search that finds nothing finds nothing in a part that starts at top level. -/
theorem Clear.exists_of_append {as bs cs : List Kind} (h : Clear f 0 (as ++ (bs ++ cs)) rest)
    (htop : depth 0 as = 0) : ∃ rest', Clear f 0 bs rest' := by
  have := (clear_append_iff.1 h).2
  rw [htop] at this
  exact ⟨cs ++ rest, (clear_append_iff.1 this).1⟩

/-- Without groups everything is at top level. -/
theorem forall_of_clear {p : Kind → Bool} (h : Clear (headIs p) 0 ks rest)
    (hgroup : ∀ k ∈ ks, k ≠ .openParen ∧ k ≠ .closeParen) : ∀ k ∈ ks, p k = false := by
  induction ks with
  | nil => simp
  | cons k ks ih =>
    obtain ⟨hopen, -⟩ := hgroup k (by simp)
    have hdepth : k.depthAfter 0 = 0 := by
      cases k <;> first | rfl | exact absurd rfl hopen
    rw [clear_cons_iff, hdepth] at h
    rintro l (_ | ⟨_, hl⟩)
    · exact h.1 rfl
    · exact ih h.2 (fun l hl => hgroup l (by simp [hl])) l hl

/-- Nothing inside parentheses is at top level. -/
theorem clear_of_level? {n m : Nat} (h : level? n ks = some m) (d : Nat) :
    Clear f (n + (d + 1)) ks rest := by
  induction ks generalizing n with
  | nil => trivial
  | cons k ks ih =>
    rw [level?] at h
    split at h
    · cases h
    · next hk =>
      refine ⟨fun h0 => by omega, ?_⟩
      rw [depthAfter_add hk]
      exact ih h

/-- The search passes over the tokens, unless a `BY` behind them makes a phrase of the last one. -/
structure Passes (f : List Kind → Bool) (ks : List Kind) : Prop where
  top : depth 0 ks = 0
  clear {rest : List Kind} : headIs (· == .keyword .BY) rest = false → Clear f 0 ks rest

@[simp] theorem passes_nil : Passes f [] :=
  ⟨rfl, fun _ => trivial⟩

/-- Parts that a search passes are passed together, unless the second completes a phrase of the
first. -/
theorem Passes.append (hks : Passes f ks) (hls : Passes f ls)
    (hby : headIs (· == .keyword .BY) ls = false) : Passes f (ks ++ ls) := by
  refine ⟨by rw [depth_append, hks.top, hls.top], fun hrest => clear_append_iff.2 ⟨hks.clear ?_, ?_⟩⟩
  · cases ls with
    | nil => exact hrest
    | cons l ls => exact hby
  · rw [hks.top]
    exact hls.clear hrest

theorem Passes.cons {k : Kind} (hf : ∀ ls, f (k :: ls) = false) (hk : k.depthAfter 0 = 0)
    (hks : Passes f ks) : Passes f (k :: ks) :=
  ⟨by rw [depth_cons, hk, hks.top], fun hrest =>
    clear_cons_iff.2 ⟨fun _ => hf _, by rw [hk]; exact hks.clear hrest⟩⟩

/-- The search passes over a group in parentheses. -/
theorem passes_group (hf : ∀ ls, f (.openParen :: ls) = false) (h : level? 0 ks = some 0) :
    Passes f (.openParen :: (ks ++ [.closeParen])) := by
  have hlevel : level? 1 ks = some 1 := level?_add h 1
  refine ⟨?_, fun hrest => clear_cons_iff.2 ⟨fun _ => hf _, clear_append_iff.2 ⟨?_, ?_⟩⟩⟩
  · rw [depth_cons, depth_append]
    change depth (depth 1 ks) [.closeParen] = 0
    rw [depth_of_level? hlevel]
    rfl
  · exact clear_of_level? h 0
  · change Clear f (depth 1 ks) [.closeParen] _
    rw [depth_of_level? hlevel]
    exact clear_cons_iff.2 ⟨fun h => by omega, trivial⟩

end Clear

end Kind

namespace Token

open Kind

/-- The kinds of tokens. -/
def kinds (ts : List Token) : List Kind :=
  ts.map Token.kind

@[simp] theorem kinds_nil : kinds [] = [] := rfl

@[simp] theorem kinds_cons (t : Token) (ts : List Token) : kinds (t :: ts) = t.kind :: kinds ts := rfl

@[simp] theorem kinds_append (ts us : List Token) : kinds (ts ++ us) = kinds ts ++ kinds us :=
  List.map_append

@[simp] theorem kinds_indent (g : Text) (ts : List Token) : kinds (indent g ts) = kinds ts := by
  cases ts <;> rfl

@[simp] theorem length_kinds (ts : List Token) : (kinds ts).length = ts.length :=
  List.length_map _

theorem kinds_eq_nil_iff {ts : List Token} : kinds ts = [] ↔ ts = [] :=
  List.map_eq_nil_iff

theorem depthAfter_eq (d : Nat) (t : Token) : t.depthAfter d = t.kind.depthAfter d := by
  unfold depthAfter Kind.depthAfter
  split <;> simp_all

/-- Tokens move the depth on as their kinds do, and underflow where the level gives out. -/
theorem foldl_step (n : Nesting) (ts : List Token) : ts.foldl Nesting.step n =
    ⟨depth n.depth (kinds ts), n.underflow || (level? n.depth (kinds ts)).isNone⟩ := by
  induction ts generalizing n with
  | nil => simp
  | cons t ts ih =>
    rw [List.foldl_cons, ih, depth_step, depthAfter_eq, kinds_cons, depth_cons, Nesting.mk.injEq]
    refine ⟨rfl, ?_⟩
    unfold Nesting.step
    split
    · next hopen => simp [level?, hopen]
    · next hclose =>
      cases hdepth : n.depth with
      | zero => simp [level?, hclose]
      | succ d => simp [level?, hclose]
    · next hopen hclose =>
      have hkind : ¬(t.kind == .closeParen && n.depth == 0) = true := by
        simp only [Bool.and_eq_true, beq_iff_eq]
        exact fun h => hclose h.1
      rw [level?, if_neg hkind]

/-- The nesting that the reader keeps is the depth and whether a level is undefined. -/
theorem nesting_after (ts : List Token) :
    Nesting.after ts = ⟨depth 0 (kinds ts), (level? 0 (kinds ts)).isNone⟩ := by
  rw [Nesting.after, foldl_step, Nesting.top, Bool.false_or]

/-- Tokens are balanced when the level is zero at both ends. -/
theorem isBalanced_iff {ts : List Token} : isBalanced ts = true ↔ level? 0 (kinds ts) = some 0 := by
  rw [isBalanced, nesting_after, Nesting.top, beq_iff_eq, Nesting.mk.injEq]
  constructor
  · rintro ⟨hdepth, hlevel⟩
    obtain ⟨e, he⟩ := Option.isSome_iff_exists.1 (Option.isNone_eq_false_iff.1 hlevel)
    rw [he, ← hdepth, depth_of_level? he]
  · intro h
    exact ⟨depth_of_level? h, by rw [h]; rfl⟩

/-- Nothing is found at top level in tokens that start at depth `d` and are followed by others. -/
def Absent (found : List Token → Bool) (d : Nat) : List Token → List Token → Prop
  | [], _ => True
  | t :: ts, rest =>
    (d = 0 → found (t :: (ts ++ rest)) = false) ∧ Absent found (t.kind.depthAfter d) ts rest

section Absent

variable {found : List Token → Bool} {d : Nat} {ts us rest : List Token}

/-- Nothing is found among two runs of tokens if it is in neither of them. -/
theorem absent_append_iff : Absent found d (ts ++ us) rest ↔
    Absent found d ts (us ++ rest) ∧ Absent found (depth d (kinds ts)) us rest := by
  induction ts generalizing d with
  | nil => simp [Absent]
  | cons t ts ih =>
    simp only [List.cons_append, Absent, ih, kinds_cons, depth_cons, List.append_assoc, and_assoc]

/-- What is absent is not found at any place at top level. -/
theorem Absent.found_eq_false {t : Token} (h : Absent found d (ts ++ t :: us) rest)
    (htop : depth d (kinds ts) = 0) : found (t :: (us ++ rest)) = false :=
  (absent_append_iff.1 h).2.1 htop

/-- Where something is absent, so is what implies it. -/
theorem Absent.imp {found' : List Token → Bool} (h : Absent found' d ts rest)
    (himp : ∀ us, found us = true → found' us = true) : Absent found d ts rest := by
  induction ts generalizing d with
  | nil => trivial
  | cons t ts ih =>
    refine ⟨fun hd => ?_, ih h.2⟩
    by_contra hf
    have := himp _ (by simpa using hf)
    rw [h.1 hd] at this
    cases this

/-- For a search by kinds, this is what `Kind.Clear` says. -/
theorem absent_kinds_iff {f : List Kind → Bool} :
    Absent (fun us => f (kinds us)) d ts rest ↔ Clear f d (kinds ts) (kinds rest) := by
  induction ts generalizing d with
  | nil => exact Iff.rfl
  | cons t ts ih => rw [Absent, ih, kinds_cons, kinds_cons, clear_cons_iff, kinds_append]

end Absent

section Cut

variable {found : List Token → Bool} {f : List Kind → Bool} {d : Nat} {ts as bs : List Token}

/-- A cut is made at the first place at top level where the test holds. -/
theorem absent_of_cutTop (h : cutTop found d ts = (as, bs)) : ts = as ++ bs ∧ Absent found d as bs ∧
    (bs = [] ∨ depth d (kinds as) = 0 ∧ found bs = true) := by
  induction ts generalizing d as with
  | nil =>
    rw [cutTop, Prod.mk.injEq] at h
    obtain ⟨rfl, rfl⟩ := h
    exact ⟨rfl, trivial, .inl rfl⟩
  | cons t ts ih =>
    rw [cutTop] at h
    split at h
    · next hfound =>
      rw [Prod.mk.injEq] at h
      obtain ⟨rfl, rfl⟩ := h
      simp only [Bool.and_eq_true, beq_iff_eq] at hfound
      exact ⟨rfl, trivial, .inr hfound⟩
    · next hfound =>
      rw [Prod.mk.injEq, depthAfter_eq] at h
      obtain ⟨rfl, rfl⟩ := h
      obtain ⟨hts, habsent, hstop⟩ := ih rfl
      simp only [Bool.and_eq_true, beq_iff_eq, not_and, Bool.not_eq_true] at hfound
      exact ⟨congrArg (t :: ·) hts, ⟨by rwa [← hts], habsent⟩, hstop⟩

/-- A place at top level with nothing in front of it is where the cut is made. -/
theorem cutTop_of_absent (habsent : Absent found d as bs)
    (hstop : bs = [] ∨ depth d (kinds as) = 0 ∧ found bs = true) :
    cutTop found d (as ++ bs) = (as, bs) := by
  induction as generalizing d with
  | nil =>
    cases bs with
    | nil => rfl
    | cons t bs =>
      have hfound : (d == 0 && found (t :: bs)) = true := by simpa using hstop
      rw [List.nil_append, cutTop, if_pos hfound]
  | cons a as ih =>
    have hfound : ¬(d == 0 && found (a :: (as ++ bs))) = true := by
      simp only [Bool.and_eq_true, beq_iff_eq, not_and, Bool.not_eq_true]
      exact habsent.1
    rw [List.cons_append, cutTop, if_neg hfound, depthAfter_eq, ih habsent.2 hstop]

/-- A cut is where the search first succeeds at top level. -/
theorem cutTop_eq_iff_absent : cutTop found d ts = (as, bs) ↔
    ts = as ++ bs ∧ Absent found d as bs ∧
      (bs = [] ∨ depth d (kinds as) = 0 ∧ found bs = true) := by
  refine ⟨absent_of_cutTop, ?_⟩
  rintro ⟨rfl, habsent, hstop⟩
  exact cutTop_of_absent habsent hstop

/-- The cut by a test on kinds, said by kinds alone. -/
theorem cutTop_eq_iff : cutTop (fun us => f (kinds us)) d ts = (as, bs) ↔
    ts = as ++ bs ∧ Clear f d (kinds as) (kinds bs) ∧
      (bs = [] ∨ depth d (kinds as) = 0 ∧ f (kinds bs) = true) := by
  rw [cutTop_eq_iff_absent, absent_kinds_iff]

/-- Nothing is left behind the cut exactly when nothing is found. -/
theorem cutTop_snd_eq_nil_iff : (cutTop found d ts).2 = [] ↔ Absent found d ts [] := by
  obtain ⟨as, bs, hcut⟩ : ∃ as bs, cutTop found d ts = (as, bs) := ⟨_, _, rfl⟩
  rw [hcut]
  constructor
  · rintro rfl
    obtain ⟨rfl, habsent, -⟩ := cutTop_eq_iff_absent.1 hcut
    rwa [List.append_nil]
  · intro habsent
    have := cutTop_eq_iff_absent.2 ⟨(List.append_nil ts).symm, habsent, .inl rfl⟩
    rw [hcut, Prod.mk.injEq] at this
    exact this.2

/-- Two tests that agree on the tails of the tokens cut at the same place. -/
theorem cutTop_congr {found' : List Token → Bool}
    (h : ∀ us, us <:+ ts → found us = found' us) : cutTop found d ts = cutTop found' d ts := by
  induction ts generalizing d with
  | nil => rfl
  | cons t ts ih =>
    rw [cutTop, cutTop, h _ List.suffix_rfl,
      ih fun us hus => h us (hus.trans (List.suffix_cons t ts))]

end Cut

/-- The parts that separators at top level leave of tokens that start at depth `d`. -/
inductive Splits (sep : Kind → Bool) : Nat → List Token → List Token → List (List Token) → Prop
  | last {d : Nat} {ts : List Token} (clear : Clear (headIs sep) d (kinds ts) []) :
      Splits sep d ts ts []
  | more {d : Nat} {part : List Token} {t : Token} {ts next : List Token}
      {parts : List (List Token)} (clear : Clear (headIs sep) d (kinds part) [])
      (top : depth d (kinds part) = 0) (isSep : sep t.kind = true)
      (rest : Splits sep 0 ts next parts) : Splits sep d (part ++ t :: ts) part (next :: parts)

/-- Parts of a stretch are stretches. -/
theorem Splits.stretch {sep : Kind → Bool} {d : Nat} {ts part : List Token}
    {parts : List (List Token)} (h : Splits sep d ts part parts) (hts : Stretch ts) :
    ∀ p ∈ part :: parts, Stretch p := by
  induction h with
  | last clear => simpa using hts
  | more clear top isSep rest ih =>
    intro p hp
    rcases List.mem_cons.1 hp with rfl | hp
    · exact hts.left
    · exact ih (hts.right.drop 1) p hp

/-- A part is what stands between two separators, so nothing is open where it starts. -/
theorem Splits.exists_of_mem {sep : Kind → Bool} {ts part : List Token} {parts : List (List Token)}
    (hsep : sep .openParen = false) (h : Splits sep 0 ts part parts) {p : List Token}
    (hp : p ∈ part :: parts) : ∃ before after, ts = before ++ (p ++ after) ∧
      depth 0 (kinds before) = 0 ∧ Clear (headIs sep) 0 (kinds p) [] ∧
        (after = [] ∨ depth 0 (kinds p) = 0) := by
  generalize hd : 0 = d at h
  induction h with
  | last clear =>
    subst hd
    rw [List.mem_singleton.1 hp]
    exact ⟨[], [], by simp, rfl, clear, .inl rfl⟩
  | @more d part t ts next parts clear top isSep rest ih =>
    subst hd
    rcases List.mem_cons.1 hp with rfl | hp
    · exact ⟨[], t :: ts, rfl, rfl, clear, .inr top⟩
    · obtain ⟨before, after, rfl, hbefore, hclear, hafter⟩ := ih hp rfl
      have ht : t.kind.depthAfter 0 = 0 := by
        cases hk : t.kind <;> first | rfl | (rw [hk, hsep] at isSep; cases isSep)
      refine ⟨part ++ t :: before, after, by simp, ?_, hclear, hafter⟩
      rw [kinds_append, kinds_cons, depth_append, top, depth_cons, ht, hbefore]

section Split

variable {sep : Kind → Bool} {d : Nat} {ts : List Token}

/-- Without a separator at top level there is one part. -/
theorem splitTop_of_clear (h : Clear (headIs sep) d (kinds ts) []) :
    splitTop (fun t => sep t.kind) d ts = (ts, []) := by
  induction ts generalizing d with
  | nil => rfl
  | cons t ts ih =>
    have hsep : ¬(d == 0 && sep t.kind) = true := by
      simp only [Bool.and_eq_true, beq_iff_eq, not_and, Bool.not_eq_true]
      exact h.1
    rw [splitTop, if_neg hsep, depthAfter_eq, ih h.2]

/-- A separator at top level ends a part. -/
theorem splitTop_append (hsep : sep .openParen = false) {part : List Token} {t : Token}
    (hclear : Clear (headIs sep) d (kinds part) []) (htop : depth d (kinds part) = 0)
    (ht : sep t.kind = true) :
    splitTop (fun t => sep t.kind) d (part ++ t :: ts) =
      (part, (splitTop (fun t => sep t.kind) 0 ts).1 ::
        (splitTop (fun t => sep t.kind) 0 ts).2) := by
  induction part generalizing d with
  | nil =>
    obtain rfl : d = 0 := htop
    have hdepth : t.depthAfter 0 = 0 := by
      rw [depthAfter_eq]
      cases hk : t.kind <;> simp_all [Kind.depthAfter]
    simp [splitTop, ht, hdepth]
  | cons u part ih =>
    have hno : ¬(d == 0 && sep u.kind) = true := by
      simp only [Bool.and_eq_true, beq_iff_eq, not_and, Bool.not_eq_true]
      exact hclear.1
    rw [List.cons_append, splitTop, if_neg hno, depthAfter_eq, ih hclear.2 htop]

/-- Splitting at top level is described by `Splits`. -/
theorem splitTop_eq_iff (hsep : sep .openParen = false) {part : List Token}
    {parts : List (List Token)} :
    splitTop (fun t => sep t.kind) d ts = (part, parts) ↔ Splits sep d ts part parts := by
  constructor
  · intro h
    induction hn : ts.length using Nat.strong_induction_on generalizing d ts part parts with
    | _ n ih =>
    obtain ⟨as, bs, hcut⟩ : ∃ as bs, cutTop (fun us => headIs sep (kinds us)) d ts = (as, bs) :=
      ⟨_, _, rfl⟩
    obtain ⟨rfl, hclear, hstop⟩ := cutTop_eq_iff.1 hcut
    cases bs with
    | nil =>
      rw [List.append_nil, splitTop_of_clear hclear, Prod.mk.injEq] at h
      obtain ⟨rfl, rfl⟩ := h
      rw [List.append_nil]
      exact .last hclear
    | cons t bs =>
      simp only [reduceCtorEq, false_or, kinds_cons, headIs_cons] at hstop
      rw [splitTop_append hsep (hclear.head []) hstop.1 hstop.2, Prod.mk.injEq] at h
      obtain ⟨rfl, rfl⟩ := h
      refine .more (hclear.head []) hstop.1 hstop.2 (ih bs.length ?_ rfl rfl)
      simp only [List.length_append, List.length_cons] at hn
      omega
  · intro h
    induction h with
    | last clear => exact splitTop_of_clear clear
    | more clear top isSep rest ih => rw [splitTop_append hsep clear top isSep, ih]

end Split

/-- What closes a group is a parenthesis, and what is in it closes what it opens. -/
theorem exists_of_closeGroup? {d : Nat} {ts inside rest : List Token}
    (h : closeGroup? d ts = some (inside, rest)) : ∃ t : Token, ts = inside ++ t :: rest ∧
      t.kind = .closeParen ∧ level? d (kinds inside) = some 0 := by
  induction ts generalizing d inside with
  | nil => cases h
  | cons t ts ih =>
    rw [closeGroup?] at h
    split at h
    · next hclose =>
      simp only [Option.some.injEq, Prod.mk.injEq] at h
      obtain ⟨rfl, rfl⟩ := h
      simp only [Bool.and_eq_true, beq_iff_eq] at hclose
      exact ⟨t, rfl, hclose.1, by rw [hclose.2]; rfl⟩
    · next hclose =>
      simp only [Option.map_eq_some_iff, Prod.mk.injEq, Prod.exists] at h
      obtain ⟨inner, _, hrec, rfl, rfl⟩ := h
      rw [depthAfter_eq] at hrec
      obtain ⟨u, rfl, hu, hlevel⟩ := ih hrec
      exact ⟨u, rfl, hu, by rw [kinds_cons, level?, if_neg hclose, hlevel]⟩

/-- The first parenthesis that brings the depth to zero is the partner. -/
theorem closeGroup?_append {d : Nat} {t : Token} {inside : List Token} (ht : t.kind = .closeParen)
    (hlevel : level? d (kinds inside) = some 0) (rest : List Token) :
    closeGroup? d (inside ++ t :: rest) = some (inside, rest) := by
  induction inside generalizing d with
  | nil =>
    obtain rfl : d = 0 := Option.some.inj hlevel
    rw [List.nil_append, closeGroup?, ht]
    rfl
  | cons u inside ih =>
    rw [kinds_cons, level?] at hlevel
    split at hlevel
    · cases hlevel
    · next hopen =>
      rw [List.cons_append, closeGroup?, if_neg hopen, depthAfter_eq, ih hlevel]
      rfl

/-- The group that is open at the start of the tokens closes where the level first gives out. -/
theorem closeGroup?_eq_some_iff {d : Nat} {ts inside rest : List Token} :
    closeGroup? d ts = some (inside, rest) ↔ ∃ t : Token, ts = inside ++ t :: rest ∧
      t.kind = .closeParen ∧ level? d (kinds inside) = some 0 := by
  refine ⟨exists_of_closeGroup?, ?_⟩
  rintro ⟨t, rfl, ht, hlevel⟩
  exact closeGroup?_append ht hlevel rest

section Trimmed

/-- Only an unknown token is made up of blanks. -/
theorem Reads.eq_unknown {t : Token} (h : t.Reads [])
    (hblank : ∀ c ∈ t.text, Text.isBlank c = true) : t.kind = .unknown := by
  by_contra hne
  have hfirst : ∀ c ∈ t.text.head?, Text.isBlank c = false := by
    by_cases hk : t.kind = .unclosed
    · obtain ⟨q, s, htext, hquote, -⟩ := h.of_unclosed hk
      rcases hquote with rfl | rfl <;> simp [htext] <;> decide
    · exact ((h.shape hk).tight hne).first
  obtain ⟨c, s, ht, -⟩ := h.text
  have := hfirst c (by simp [ht])
  rw [hblank c (by simp [ht])] at this
  cases this

/-- Trimming at the start loses unknown tokens only. -/
theorem exists_kinds_trimLeft {ts : List Token}
    (h : ∀ t ∈ ts, t.Reads []) :
    ∃ ks, kinds ts = ks ++ kinds (trimLeft ts) ∧ ∀ k ∈ ks, k = .unknown := by
  induction ts with
  | nil => exact ⟨[], rfl, by simp⟩
  | cons t ts ih =>
    rw [trimLeft]
    split
    · next hblank =>
      obtain ⟨ks, hks, hall⟩ := ih fun u hu => h u (by simp [hu])
      refine ⟨t.kind :: ks, by rw [kinds_cons, hks]; rfl, ?_⟩
      rw [List.isEmpty_iff, Text.trimStart_eq_nil_iff] at hblank
      rintro k (_ | ⟨_, hk⟩)
      · exact (h t (by simp)).eq_unknown hblank
      · exact hall k hk
    · exact ⟨[], rfl, by simp⟩

/-- Trimming at the end loses unknown tokens only. -/
theorem exists_kinds_trimRight {ts : List Token}
    (h : ∀ t ∈ ts, t.Reads []) :
    ∃ ks, kinds ts = kinds (trimRight ts) ++ ks ∧ ∀ k ∈ ks, k = .unknown := by
  induction ts with
  | nil => exact ⟨[], rfl, by simp⟩
  | cons t ts ih =>
    obtain ⟨ks, hks, hall⟩ := ih fun u hu => h u (by simp [hu])
    rw [trimRight]
    split
    · next hnil =>
      rw [List.isEmpty_iff.1 hnil] at hks
      split
      · next hblank =>
        refine ⟨t.kind :: ks, by rw [kinds_cons, hks]; rfl, ?_⟩
        rw [List.isEmpty_iff, Text.trimEnd_eq_nil_iff] at hblank
        rintro k (_ | ⟨_, hk⟩)
        · exact (h t (by simp)).eq_unknown hblank
        · exact hall k hk
      · exact ⟨ks, by rw [kinds_cons, hks]; rfl, hall⟩
    · exact ⟨ks, by rw [kinds_cons, hks]; rfl, hall⟩

/-- The tokens of a stretch are read without what follows them. -/
theorem Stretch.reads_nil {ts : List Token} (h : Stretch ts) : ∀ t ∈ ts, t.Reads [] :=
  fun t ht => reads_nil_of_mem (s := render ts) (by rwa [h.reads])

/-- A token that is not unknown is kept by trimming. -/
theorem Stretch.trim_singleton {t : Token} (h : Stretch [t]) (hk : t.kind ≠ .unknown) :
    (render [t]).trim = t.text := by
  have hreads := h.reads_nil t (by simp)
  rw [render_cons, render_nil, List.append_nil, written,
    Text.trim_append_blank_left (isBlank_of_gap hreads), ((h.shape (by simp)).tight hk).trim_eq]

theorem Stretch.trimLeft {ts : List Token} (h : Stretch ts) : Stretch (Token.trimLeft ts) := by
  have htok := tokenize_trimStart (render ts)
  rw [h.reads] at htok
  rw [← htok]
  exact stretch_tokenize (by rw [htok]; exact hasUnclosed_trimLeft h.closed)

/-- Trimming takes away unknown tokens only. -/
theorem Stretch.exists_kinds_trimmed {ts : List Token} (h : Stretch ts) :
    ∃ ks ls, kinds ts = ks ++ kinds (Token.trimmed ts) ++ ls ∧ (∀ k ∈ ks, k = .unknown) ∧
      ∀ k ∈ ls, k = .unknown := by
  obtain ⟨ks, hks, hall⟩ := exists_kinds_trimLeft h.reads_nil
  obtain ⟨ls, hls, hall'⟩ := exists_kinds_trimRight h.trimLeft.reads_nil
  exact ⟨ks, ls, by rw [hks, hls, List.append_assoc, Token.trimmed], hall, hall'⟩

/-- Blanks have no level. -/
theorem Stretch.level?_trimmed {ts : List Token} (h : Stretch ts) (d : Nat) :
    level? d (kinds (Token.trimmed ts)) = level? d (kinds ts) := by
  obtain ⟨ks, ls, hts, hks, hls⟩ := h.exists_kinds_trimmed
  rw [hts, level?_append, level?_append, level?_of_all hks]
  cases hm : level? d (kinds (Token.trimmed ts)) with
  | none => simp [hm]
  | some e => simp [hm, level?_of_all hls]

/-- Trimming does not bring anything to light. -/
theorem Stretch.exists_clear_trimmed {ts : List Token} (h : Stretch ts) {f : List Kind → Bool}
    {rest : List Kind} (hclear : Clear f 0 (kinds ts) rest) :
    ∃ rest', Clear f 0 (kinds (Token.trimmed ts)) rest' := by
  obtain ⟨ks, ls, hts, hks, -⟩ := h.exists_kinds_trimmed
  rw [hts, List.append_assoc] at hclear
  exact hclear.exists_of_append (depth_of_all hks 0)

end Trimmed

end Token

end Soql
