import Soql.Cursor.Walk
import Soql.Proofs.Cursor.Search
import Soql.Proofs.Scanner.Basic
import Soql.Proofs.Token.LongestMatch
import Soql.Proofs.Token.Matching

/-!
# A session with a cursor

One cursor answers many requests, and each of them leaves it somewhere among the tokens. What it
knows there is what the tokens it has passed tell (`Between`), whichever requests have moved it.
So a search, which starts over from the first token, answers as a fresh cursor does, and a group is
skipped up to the parenthesis that matches its first one. Walking token by token and slicing finds
the same answers and never slices out of range.
-/

namespace Soql.Cursor

open Kind Token

/-- The cursor stands between the tokens `before` and `behind` of a text. -/
structure Between (s : Text) (before behind : List Token) (c : Cursor) : Prop where
  source : c.source = s
  tokens : c.tokens = tokenize s
  split : tokenize s = before ++ behind
  pos : c.pos = before.length
  nesting : c.nesting = Nesting.after before

/-- The cursor stands somewhere among the tokens of a text. -/
def StandsIn (s : Text) (c : Cursor) : Prop :=
  ∃ before behind, Between s before behind c

section Place

variable {s : Text} {before behind ts us : List Token} {c : Cursor}

theorem between_ofText (s : Text) : Between s [] (tokenize s) (ofText s) :=
  ⟨rfl, rfl, rfl, rfl, rfl⟩

namespace Between

theorem ahead (h : Between s before behind c) : c.ahead = behind := by
  rw [Cursor.ahead, h.tokens, h.split, h.pos, List.drop_left]

theorem passed (h : Between s before behind c) : c.passed = before := by
  rw [Cursor.passed, h.tokens, h.split, h.pos, List.take_left]

theorem atEnd (h : Between s before behind c) : c.atEnd = behind.isEmpty := by
  rw [Cursor.atEnd, h.ahead]

theorem rewind (h : Between s before behind c) : c.rewind = ofText s := by
  rw [Cursor.rewind, ofText, h.source, h.tokens]

theorem skip (h : Between s before (ts ++ us) c) :
    Between s (before ++ ts) us (c.skip ts.length) := by
  rw [skip_append h.ahead]
  refine ⟨h.source, h.tokens, by rw [h.split, List.append_assoc], ?_, ?_⟩
  · rw [h.pos, List.length_append]
  · rw [h.nesting, Nesting.after, Nesting.after, List.foldl_append]

theorem depth (h : Between s before behind c) : c.nesting.depth = Kind.depth 0 (kinds before) := by
  rw [h.nesting, nesting_after]

/-- A look ahead counts from the cursor's place. -/
theorem peekNth (h : Between s before behind c) (n : Nat) : c.peekNth n = behind[n]? := by
  rw [Cursor.peekNth, h.tokens, h.split, h.pos,
    List.getElem?_append_right (Nat.le_add_right before.length n), Nat.add_sub_cancel_left]

theorem lies (h : Between s before behind c) : Scanner.Lies s (render before) behind :=
  Scanner.Lies.of_append (h.split ▸ Scanner.lies_tokenize s)

theorem offset (h : Between s before behind c) :
    c.offset = Scanner.offset s (Scanner.place (render before).byteSize behind) := by
  rw [Cursor.offset, span?, h.tokens, h.split, h.pos, h.source]
  cases behind with
  | nil =>
    have hnone : (spans 0 (before ++ []))[before.length]? = none :=
      List.getElem?_eq_none (by simp [length_spans])
    rw [hnone]
    rfl
  | cons t behind =>
    rw [getElem?_spans, Scanner.place_cons, Nat.zero_add]
    rfl

end Between

theorem advance_of_ahead_nil (h : c.ahead = []) : c.advance = c := by
  rw [Cursor.advance, peek_eq, h, List.head?_nil]

/-- A step stays in the text. -/
theorem StandsIn.advance (h : StandsIn s c) : StandsIn s c.advance := by
  obtain ⟨before, behind, h⟩ := h
  cases behind with
  | nil =>
    rw [advance_of_ahead_nil h.ahead]
    exact ⟨before, [], h⟩
  | cons t behind =>
    have hadvance : c.skip [t].length = c.advance := by
      rw [List.length_singleton, Cursor.skip, h.atEnd, if_neg (by simp), Cursor.skip]
    rw [← hadvance]
    exact ⟨before ++ [t], behind, Between.skip h⟩

theorem StandsIn.skip (h : StandsIn s c) (n : Nat) : StandsIn s (c.skip n) := by
  induction n generalizing c with
  | zero => exact h
  | succ n ih =>
    rw [Cursor.skip]
    split
    · exact h
    · exact ih h.advance

theorem StandsIn.rewind (h : StandsIn s c) : StandsIn s c.rewind := by
  obtain ⟨before, behind, h⟩ := h
  rw [h.rewind]
  exact ⟨[], tokenize s, between_ofText s⟩

/-- No request takes the cursor away from the tokens of its text. -/
theorem StandsIn.move (h : StandsIn s c) (r : Request) : StandsIn s (c.move r) := by
  cases r with
  | advance => exact h.advance
  | skip n => exact h.skip n
  | skipGroup => exact h.skip _
  | rewind | isBalanced => exact h.rewind
  | findKeyword _ | objectName => exact h.rewind.skip _
  | clause start ends => exact ((h.rewind.skip _).skip _).skip _
  | peek | peekNth _ | atPhrase _ | matchOperator | hasUnclosed => exact h

end Place

section Walk

variable {s : Text} {c : Cursor}

theorem walk_of_ahead_nil {stop : Cursor → Bool} (h : c.ahead = []) : c.walk stop = c := by
  rw [walk, atEnd, h, List.isEmpty_nil, if_pos rfl]

/-- The walk goes on unless it is stopped here. -/
theorem walk_of_ahead_cons {stop : Cursor → Bool} {t : Token} {ts : List Token}
    (h : c.ahead = t :: ts) : c.walk stop = if stop c then c else c.advance.walk stop := by
  rw [walk, atEnd, h, List.isEmpty_cons, if_neg (by simp)]

theorem skip_succ_of_ahead_cons {t : Token} {ts : List Token} (h : c.ahead = t :: ts) (n : Nat) :
    c.skip (n + 1) = c.advance.skip n := by
  rw [skip, atEnd, h, List.isEmpty_cons, if_neg (by simp)]

/-- Walking to a phrase is a search for it. -/
theorem walk_atTopPhrase (phrases : List Phrase) (c : Cursor) :
    c.walk (atTopPhrase phrases) = c.seek phrases := by
  generalize hts : c.ahead = ts
  induction ts generalizing c with
  | nil =>
    rw [walk_of_ahead_nil hts, seek, hts]
    rfl
  | cons t ts ih =>
    obtain ⟨hadvance, hahead⟩ := advance_of_ahead hts
    have hhere : atTopPhrase phrases c =
        (c.nesting.depth == 0 && phrases.any (·.isAt (t :: ts))) := by
      rw [atTopPhrase, atTopLevel, ← hts]
      rfl
    have hdepth : c.advance.nesting.depth = t.depthAfter c.nesting.depth := by
      rw [hadvance, depth_step]
    rw [walk_of_ahead_cons hts, hhere, seek, hts, cutTop]
    split
    · rfl
    · rw [ih _ hahead, seek, hahead, hdepth, List.length_cons, skip_succ_of_ahead_cons hts]

/-- A walk that nothing stops ends at the end. -/
theorem walk_to_end (c : Cursor) : c.walk (fun _ => false) = c.skip c.ahead.length := by
  generalize hts : c.ahead = ts
  induction ts generalizing c with
  | nil => exact walk_of_ahead_nil hts
  | cons t ts ih =>
    have hahead := (advance_of_ahead hts).2
    rw [walk_of_ahead_cons hts, if_neg (by simp), ih _ hahead, List.length_cons,
      skip_succ_of_ahead_cons hts]

/-- Walking out of `k + 1` parentheses goes up to where the outermost one closes. -/
theorem walk_atClosing {depth k : Nat} (h : c.nesting.depth = k + (depth + 1)) :
    (c.walk (atClosing depth)).advance = c.skip
      (match closeGroup? k c.ahead with
        | some (inside, _) => inside.length + 1
        | none => c.ahead.length) := by
  generalize hts : c.ahead = ts
  induction ts generalizing c k with
  | nil =>
    rw [walk_of_ahead_nil hts, advance_of_ahead_nil hts]
    rfl
  | cons t ts ih =>
    obtain ⟨hadvance, hahead⟩ := advance_of_ahead hts
    have hdepth : c.advance.nesting.depth = t.kind.depthAfter (k + (depth + 1)) := by
      rw [hadvance, depth_step, depthAfter_eq, h]
    have hhere : atClosing depth c = (t.kind == .closeParen && k == 0) := by
      rw [atClosing, peek_eq, hts, List.head?_cons, Option.any_some, hdepth]
      by_cases hkind : t.kind = .closeParen
      · rw [hkind, Bool.eq_iff_iff]
        simp only [Kind.depthAfter, beq_self_eq_true, Bool.true_and, beq_iff_eq]
        omega
      · rw [beq_false_of_ne hkind, Bool.false_and, Bool.false_and]
    rw [walk_of_ahead_cons hts, hhere, closeGroup?]
    by_cases hclose : (t.kind == .closeParen && k == 0) = true
    · rw [if_pos hclose, if_pos hclose]
      exact (skip_succ_of_ahead_cons hts 0).symm
    · rw [if_neg hclose, if_neg hclose, depthAfter_eq]
      rw [depthAfter_add hclose] at hdepth
      rw [ih hdepth hahead]
      cases closeGroup? (t.kind.depthAfter k) ts with
      | none => exact (skip_succ_of_ahead_cons hts _).symm
      | some parts => exact (skip_succ_of_ahead_cons hts _).symm

/-- The loop over a group is the search for its partner. -/
theorem walkGroup_eq (c : Cursor) : c.walkGroup = c.skipGroup := by
  rw [walkGroup, skipGroup, peek_eq]
  cases hts : c.ahead with
  | nil => rfl
  | cons t ts =>
    obtain ⟨hadvance, hahead⟩ := advance_of_ahead hts
    rw [List.head?_cons, Option.any_some, groupLength]
    split
    · next hopen =>
      have hdepth : c.advance.nesting.depth = 0 + (c.nesting.depth + 1) := by
        rw [hadvance, depth_step, depthAfter_eq, beq_iff_eq.1 hopen, Kind.depthAfter, Nat.zero_add]
      rw [walk_atClosing hdepth, hahead]
      cases closeGroup? 0 ts with
      | none => exact (skip_succ_of_ahead_cons hts _).symm
      | some parts => exact (skip_succ_of_ahead_cons hts _).symm
    · rfl

/-- The loop to a keyword is the search for it. -/
theorem walkToKeyword_eq (c : Cursor) (keyword : Text) :
    c.walkToKeyword keyword = c.toKeyword keyword := by
  rw [walkToKeyword, walk_atTopPhrase, toKeyword]

/-- The loop that looks for unmatched parentheses leaves the cursor at its start. -/
theorem walkBalance_eq {before behind : List Token} (h : Between s before behind c) :
    c.walkBalance = (c.isBalanced, c.rewind) := by
  have hend : Between s (tokenize s) [] (c.rewind.skip c.rewind.ahead.length) := by
    have hstart : Between s [] (tokenize s ++ []) (ofText s) := by
      rw [List.append_nil]
      exact between_ofText s
    rw [h.rewind, (between_ofText s).ahead]
    exact hstart.skip
  rw [walkBalance, walk_to_end, hend.nesting, hend.rewind, isBalanced, h.tokens, h.rewind]
  rfl

/-- Where the search for a keyword ends. -/
theorem Between.toKeyword {before behind skipped found : List Token} {keyword : Text}
    (h : Between s before behind c)
    (hcut : cutTop (Phrase.ofText keyword).isAt 0 (tokenize s) = (skipped, found)) :
    Between s skipped found (c.toKeyword keyword) := by
  have htok := (cutTop_eq_iff_absent.1 hcut).1
  have hstart := between_ofText s
  rw [Cursor.toKeyword, h.rewind, seek, hstart.ahead, hstart.depth]
  simp only [List.any_cons, List.any_nil, Bool.or_false, kinds_nil, depth_nil, hcut]
  rw [htok] at hstart
  exact hstart.skip

theorem skip_of_ahead_nil (h : c.ahead = []) (n : Nat) : c.skip n = c := by
  cases n with
  | zero => rfl
  | succ n => rw [skip, atEnd, h, List.isEmpty_nil, if_pos rfl]

/-- The slice that a walk through a clause cuts out is in range, and it is the text of the tokens
between its two ends. -/
theorem walkClause_eq {before behind : List Token} (h : Between s before behind c) (start : Text)
    (ends : List Text) :
    c.walkClause start ends = some (c.clause start ends, c.toClauseEnd start ends) := by
  rcases hcut : cutTop (Phrase.ofText start).isAt 0 (tokenize s) with ⟨skipped, found⟩
  have hfound := h.toKeyword hcut
  rw [walkClause, walkToKeyword_eq, toClauseEnd]
  cases found with
  | nil =>
    have hanswer : c.clause start ends = none := by
      rw [clause, Phrase.body?, Phrase.between?, Phrase.find?, h.tokens, hcut]
      rfl
    simp only [hfound.atEnd, List.isEmpty_nil, if_true, hanswer, seek,
      skip_of_ahead_nil hfound.ahead]
  | cons t found =>
    obtain ⟨htok, -, hstop⟩ := cutTop_eq_iff_absent.1 hcut
    obtain ⟨htop, hat⟩ := hstop.resolve_left (List.cons_ne_nil t found)
    obtain ⟨u, here, rest, hsplit, hspelled⟩ := Phrase.isAt_iff.1 hat
    rw [hsplit] at hfound
    have hbegun := hfound.skip
    rw [← hspelled.length_eq] at hbegun
    -- The phrase has no parentheses in it, so the search behind it starts at top level again.
    have hdepth : depth 0 (kinds (skipped ++ u :: here)) = 0 := by
      rw [kinds_append, depth_append, htop, hspelled.depth_eq]
    rcases hend : cutTop (fun ts => (ends.map Phrase.ofText).any (·.isAt ts)) 0 rest with
      ⟨body, after⟩
    obtain rfl := (cutTop_eq_iff_absent.1 hend).1
    have hended := hbegun.skip
    have hseek : ((c.toKeyword start).skip (Phrase.ofText start).length).seek
        (ends.map Phrase.ofText) =
          ((c.toKeyword start).skip (Phrase.ofText start).length).skip body.length := by
      rw [seek, hbegun.ahead, hbegun.depth, hdepth, hend]
    have hanswer : c.clause start ends = some (render body).trim := by
      rw [clause, Phrase.body?, Phrase.between?, Phrase.find?, h.tokens, hcut]
      simp only [Option.map_some, hsplit, hspelled.length_eq, List.drop_left, hend]
    obtain ⟨y, hslice, htrim⟩ := hbegun.lies.slice_between
    rw [← render_append, ← hbegun.offset, ← hended.offset] at hslice
    have hnext : (u :: here ++ (body ++ after)).isEmpty = false := rfl
    simp only [hfound.atEnd, hnext, walk_atTopPhrase, h.source, hseek, hslice, hanswer, htrim,
      Option.bind_eq_bind, Option.bind_some, Bool.false_eq_true, if_false]

/-- The slice of the word behind `FROM` is in range, and it is the text of its token. -/
theorem walkObjectName_eq {before behind : List Token} (h : Between s before behind c) :
    c.walkObjectName = some (c.objectName, c.toKeyword Keyword.FROM.spelling) := by
  have hfrom : Phrase.ofText Keyword.FROM.spelling = [Keyword.FROM.spelling] := by decide
  rcases hcut : cutTop (Phrase.ofText Keyword.FROM.spelling).isAt 0 (tokenize s) with
    ⟨skipped, found⟩
  have hfound := h.toKeyword hcut
  rw [walkObjectName, walkToKeyword_eq, objectName, Token.objectName?, Phrase.find?, h.tokens,
    ← hfrom, hcut]
  rcases found with _ | ⟨t, _ | ⟨u, found⟩⟩
  · simp only [hfound.atEnd, List.isEmpty_nil, if_true]
  · simp [hfound.atEnd, locatedNth, hfound.peekNth]
  · have hsplit : tokenize s = (skipped ++ [t]) ++ u :: found := by
      rw [hfound.split, List.append_assoc, List.singleton_append]
    have hspan := getElem?_spans 0 (skipped ++ [t]) u found
    rw [← hsplit, Nat.zero_add, List.length_append, List.length_singleton] at hspan
    have hword : (c.toKeyword Keyword.FROM.spelling).locatedNth 1 = some (u,
        ⟨(render (skipped ++ [t])).byteSize + u.gap.byteSize,
          (render (skipped ++ [t])).byteSize + u.gap.byteSize + u.text.byteSize⟩) := by
      rw [locatedNth, hfound.peekNth, span?, hfound.tokens, hfound.pos, hspan]
      rfl
    have hlies : Scanner.Lies s (render (skipped ++ [t])) (u :: found) :=
      Scanner.Lies.of_append (hsplit ▸ Scanner.lies_tokenize s)
    have hslice := hlies.text? _ rfl
    rw [Scanner.text?] at hslice
    have hmore : (t :: u :: found).isEmpty = false := rfl
    simp only [hfound.atEnd, hmore, hword, h.source, hslice, Bool.false_eq_true, if_false,
      Option.map_some]
    split <;> rfl

/-- Every request is answered by walking, with the same answer and the same place behind it. -/
theorem walkRequest_eq (h : StandsIn s c) (r : Request) :
    c.walkRequest r = some (c.answer r, c.move r) := by
  obtain ⟨before, behind, h⟩ := h
  cases r with
  | skipGroup => rw [walkRequest, walkGroup_eq]; rfl
  | findKeyword keyword => rw [walkRequest, walkToKeyword_eq]; rfl
  | clause start ends => rw [walkRequest, walkClause_eq h]; rfl
  | objectName => rw [walkRequest, walkObjectName_eq h]; rfl
  | isBalanced => rw [walkRequest, walkBalance_eq h]; rfl
  | _ => rfl

/-- A whole session is answered by walking, and the cursor is among the tokens afterwards. -/
theorem exists_walkSession (h : StandsIn s c) (rs : List Request) :
    ∃ d, c.walkSession rs = some ((c.run rs).map Prod.fst, d) ∧ StandsIn s d := by
  induction rs generalizing c with
  | nil => exact ⟨c, rfl, h⟩
  | cons r rs ih =>
    obtain ⟨d, hrest, hd⟩ := ih (h.move r)
    refine ⟨d, ?_, hd⟩
    rw [walkSession, walkRequest_eq h r]
    simp only [Option.bind_eq_bind, Option.bind_some, hrest, run, List.map_cons]

end Walk

/-- The searches answer and end as they do from a fresh cursor over the text. -/
structure StartsOver (s : Text) (c : Cursor) : Prop where
  findKeyword (keyword : Text) :
    c.walkRequest (.findKeyword keyword) = (ofText s).walkRequest (.findKeyword keyword)
  clause (start : Text) (ends : List Text) :
    c.walkRequest (.clause start ends) = (ofText s).walkRequest (.clause start ends)
  objectName : c.walkRequest .objectName = (ofText s).walkRequest .objectName
  isBalanced : c.walkRequest .isBalanced = (ofText s).walkRequest .isBalanced

/-- A group is skipped up to the parenthesis that matches its first one, with the nesting of before.
A group that is not closed is skipped to the end, and nothing else is skipped. -/
structure SkipsGroup (c : Cursor) : Prop where
  closed {o close : Token} {inside behind : List Token}
    (ahead : c.ahead = o :: (inside ++ close :: behind))
    (isOpen : o.kind = .openParen) (isClose : close.kind = .closeParen)
    (matched : Matched (kinds inside)) :
    c.walkGroup = { c with pos := c.pos + (inside.length + 2) }
  unclosed {o : Token} {ts : List Token} (ahead : c.ahead = o :: ts) (isOpen : o.kind = .openParen)
    (unmatched : ¬∃ inside close behind, ts = inside ++ close :: behind ∧
      close.kind = .closeParen ∧ Matched (kinds inside)) :
    c.walkGroup.pos = c.tokens.length
  elsewhere (noGroup : ∀ o ∈ c.peek, o.kind ≠ .openParen) : c.walkGroup = c

section Group

variable {s : Text} {c : Cursor}

/-- Searches start from the beginning, wherever the cursor stands. -/
theorem StandsIn.startsOver (h : StandsIn s c) : StartsOver s c := by
  obtain ⟨before, behind, h⟩ := h
  have hrewind : c.rewind = (ofText s).rewind := h.rewind
  have hsource : c.source = (ofText s).source := h.source
  constructor
  · intro keyword
    rw [walkRequest, walkRequest, walkToKeyword, walkToKeyword, hrewind]
  · intro start ends
    rw [walkRequest, walkRequest, walkClause, walkClause, walkToKeyword, walkToKeyword, hrewind,
      hsource]
  · rw [walkRequest, walkRequest, walkObjectName, walkObjectName, walkToKeyword, walkToKeyword,
      hrewind, hsource]
  · rw [walkRequest, walkRequest, walkBalance, walkBalance, hrewind]

/-- Matched tokens leave the nesting as it was. -/
theorem foldl_step_of_balanced {ts : List Token} (h : Balanced (kinds ts)) (n : Nesting) :
    ts.foldl Nesting.step n = n := by
  have hlevel : level? n.depth (kinds ts) = some n.depth := by
    simpa using level?_add h n.depth
  rw [foldl_step, hlevel, depth_of_level? hlevel, Option.isNone_some, Bool.or_false]

/-- Skipping a group, in all the cases. -/
theorem skipsGroup (c : Cursor) : SkipsGroup c where
  closed {o close inside behind} ahead isOpen isClose matched := by
    have hclose : closeGroup? 0 (inside ++ close :: behind) = some (inside, behind) :=
      closeGroup?_zero_eq_some_iff.2 ⟨close, rfl, isClose, matched⟩
    have hlength : groupLength c.ahead = (o :: (inside ++ [close])).length := by
      rw [ahead, groupLength, hclose, if_pos (by simp [isOpen])]
      simp
    have hbalanced : Balanced (kinds (o :: (inside ++ [close]))) := by
      simpa [isOpen, isClose] using (balanced_iff_matched.2 matched).group
    have hsplit : c.ahead = (o :: (inside ++ [close])) ++ behind := by
      rw [ahead, List.cons_append, List.append_assoc, List.singleton_append]
    rw [walkGroup_eq, skipGroup, hlength, skip_append hsplit, foldl_step_of_balanced hbalanced]
    simp
  unclosed {o ts} ahead isOpen unmatched := by
    have hclose : closeGroup? 0 ts = none := by
      rw [Option.eq_none_iff_forall_ne_some]
      rintro ⟨inside, behind⟩ hsome
      obtain ⟨close, hts, hkind, hmatched⟩ := closeGroup?_zero_eq_some_iff.1 hsome
      exact unmatched ⟨inside, close, behind, hts, hkind, hmatched⟩
    have hlength : groupLength c.ahead = c.ahead.length := by
      rw [ahead, groupLength, hclose, if_pos (by simp [isOpen]), List.length_cons]
    have hahead : c.ahead.length = c.tokens.length - c.pos := List.length_drop
    have hpos : 0 < c.ahead.length := by simp [ahead]
    rw [walkGroup_eq, skipGroup, hlength, skip_append (List.append_nil c.ahead).symm]
    change c.pos + c.ahead.length = c.tokens.length
    omega
  elsewhere noGroup := by
    have hnone : ¬c.peek.any (·.kind == .openParen) = true := by
      rw [Option.any_eq_true]
      rintro ⟨o, ho, hopen⟩
      exact noGroup o ho (beq_iff_eq.1 hopen)
    rw [walkGroup, if_neg hnone]

end Group

/-- Whatever is asked of a cursor, it stays among the tokens of its text and knows the nesting of
those it has passed; the searches answer as if nothing had been asked before, the answer on balance
tells whether the parentheses of the text form a Dyck word, and groups are skipped whole. -/
theorem session_exact (s : Text) (rs : List Request) : ∃ c,
    (ofText s).walkSession rs = some (((ofText s).run rs).map Prod.fst, c) ∧
      c.pos ≤ (tokenize s).length ∧
      c.nesting.depth = Kind.depth 0 (kinds ((tokenize s).take c.pos)) ∧
      (c.nesting.underflow = true ↔ ∃ ts, ts <+: (tokenize s).take c.pos ∧
        (kinds ts).count .openParen < (kinds ts).count .closeParen) ∧
      StartsOver s c ∧
      (∃ b, c.walkRequest .isBalanced = some (.flag b, ofText s) ∧
        (b = true ↔ Matched (kinds (tokenize s)))) ∧
      c.walkRequest .skipGroup = some (.done, c.walkGroup) ∧ SkipsGroup c := by
  obtain ⟨c, hsession, hc⟩ := exists_walkSession ⟨[], tokenize s, between_ofText s⟩ rs
  refine ⟨c, hsession, ?_⟩
  obtain ⟨before, behind, h⟩ := id hc
  have hpassed : (tokenize s).take c.pos = before := by
    rw [h.split, h.pos, List.take_left]
  refine ⟨?_, ?_, ?_, hc.startsOver, ⟨c.isBalanced, ?_, ?_⟩, rfl, skipsGroup c⟩
  · rw [h.split, h.pos, List.length_append]
    exact Nat.le_add_right _ _
  · rw [hpassed, h.depth]
  · rw [hpassed, h.nesting, underflow_after_iff]
  · rw [walkRequest_eq hc, ← h.rewind]
    rfl
  · rw [Cursor.isBalanced, h.tokens, isBalanced_iff_matched]

end Soql.Cursor
