import Soql.Json.Basic

/-!
# Reading JSON text

`Json.read?` accepts exactly one JSON value with blanks around it. The reader goes down the text
once; each reading function returns what remains together with the fact that it is shorter, which
is why the recursion ends.
-/

namespace Soql.Json

/-- What remains of `s` after something was read off its front. -/
abbrev Remainder (s : Text) :=
  { rest : Text // rest.length < s.length }

/-- The blanks of JSON. -/
def isSpace (c : Char) : Bool :=
  c == ' ' || c == '\n' || c == '\r' || c == '\t'

/-- A text without the blanks at its start. -/
def skipSpace (s : Text) : Text :=
  s.dropWhile isSpace

theorem length_skipSpace_le (s : Text) : (skipSpace s).length ≤ s.length :=
  (List.dropWhile_suffix isSpace).length_le

/-- A run of digits and what follows it; none when there is no digit. -/
def digits? (s : Text) : Option (Text × Text) :=
  match s.takeWhile Char.isDigit with
  | [] => none
  | ds => some (ds, s.dropWhile Char.isDigit)

/-- The whole part of a number: a zero, or digits that start with another one. -/
def wholePart? : Text → Option (Text × Text)
  | '0' :: s => some (['0'], s)
  | s => digits? s

/-- The fraction of a number, with its point; empty where none starts. -/
def fraction? : Text → Option (Text × Text)
  | '.' :: s => (digits? s).map fun (ds, rest) => ('.' :: ds, rest)
  | s => some ([], s)

/-- The exponent of a number, with its letter and sign; empty where none starts. -/
def exponent? : Text → Option (Text × Text)
  | e :: s =>
    if e == 'e' || e == 'E' then
      match s with
      | sign :: t =>
        if sign == '+' || sign == '-' then
          (digits? t).map fun (ds, rest) => (e :: sign :: ds, rest)
        else (digits? s).map fun (ds, rest) => (e :: ds, rest)
      | [] => none
    else some ([], e :: s)
  | [] => some ([], [])

/-- A number without its sign. -/
def unsigned? (s : Text) : Option (Text × Text) := do
  let (whole, s) ← wholePart? s
  let (fraction, s) ← fraction? s
  let (exponent, s) ← exponent? s
  return (whole ++ fraction ++ exponent, s)

/-- A number as it is written, and what follows it. -/
def number? : Text → Option (Text × Text)
  | '-' :: s => (unsigned? s).map fun (written, rest) => ('-' :: written, rest)
  | s => unsigned? s

/-- A value that is spelled as a word, or a number. -/
def scalar? : Text → Option (Json × Text)
  | 'n' :: 'u' :: 'l' :: 'l' :: s => some (.null, s)
  | 't' :: 'r' :: 'u' :: 'e' :: s => some (.bool true, s)
  | 'f' :: 'a' :: 'l' :: 's' :: 'e' :: s => some (.bool false, s)
  | s => (number? s).map fun (written, rest) => (.number written, rest)

theorem eq_append_of_digits? {s ds rest : Text} (h : digits? s = some (ds, rest)) :
    s = ds ++ rest ∧ ds ≠ [] := by
  unfold digits? at h
  split at h
  · simp at h
  · next hne =>
    simp only [Option.some.injEq, Prod.mk.injEq] at h
    obtain ⟨rfl, rfl⟩ := h
    exact ⟨List.takeWhile_append_dropWhile.symm, hne⟩

theorem eq_append_of_wholePart? {s whole rest : Text} (h : wholePart? s = some (whole, rest)) :
    s = whole ++ rest ∧ whole ≠ [] := by
  unfold wholePart? at h
  split at h
  · simp only [Option.some.injEq, Prod.mk.injEq] at h
    simp [← h.1, ← h.2]
  · exact eq_append_of_digits? h

theorem eq_append_of_fraction? {s fraction rest : Text}
    (h : fraction? s = some (fraction, rest)) : s = fraction ++ rest := by
  unfold fraction? at h
  split at h
  · simp only [Option.map_eq_some_iff, Prod.exists, Prod.mk.injEq] at h
    obtain ⟨ds, r, hd, rfl, rfl⟩ := h
    simp [(eq_append_of_digits? hd).1]
  · simp only [Option.some.injEq, Prod.mk.injEq] at h
    simp [← h.1, ← h.2]

theorem eq_append_of_exponent? {s exponent rest : Text}
    (h : exponent? s = some (exponent, rest)) : s = exponent ++ rest := by
  unfold exponent? at h
  split at h
  · split at h
    · split at h
      · split at h <;>
        · simp only [Option.map_eq_some_iff, Prod.exists, Prod.mk.injEq] at h
          obtain ⟨ds, r, hd, rfl, rfl⟩ := h
          simp [(eq_append_of_digits? hd).1]
      · simp at h
    · simp only [Option.some.injEq, Prod.mk.injEq] at h
      simp [← h.1, ← h.2]
  · simp only [Option.some.injEq, Prod.mk.injEq] at h
    simp [← h.1, ← h.2]

theorem eq_append_of_unsigned? {s written rest : Text} (h : unsigned? s = some (written, rest)) :
    s = written ++ rest ∧ written ≠ [] := by
  simp only [unsigned?, Option.bind_eq_bind, Option.bind_eq_some_iff, Prod.exists,
    Option.pure_def, Option.some.injEq, Prod.mk.injEq] at h
  obtain ⟨whole, _, hw, _, _, hf, _, _, he, rfl, rfl⟩ := h
  obtain ⟨rfl, hne⟩ := eq_append_of_wholePart? hw
  obtain rfl := eq_append_of_fraction? hf
  obtain rfl := eq_append_of_exponent? he
  exact ⟨by simp, by simp [hne]⟩

/-- A number is read as it is written. -/
theorem eq_append_of_number? {s written rest : Text} (h : number? s = some (written, rest)) :
    s = written ++ rest ∧ written ≠ [] := by
  unfold number? at h
  split at h
  · simp only [Option.map_eq_some_iff, Prod.exists, Prod.mk.injEq] at h
    obtain ⟨w, r, hu, rfl, rfl⟩ := h
    simp [(eq_append_of_unsigned? hu).1]
  · exact eq_append_of_unsigned? h

theorem length_lt_of_scalar? {s rest : Text} {value : Json} (h : scalar? s = some (value, rest)) :
    rest.length < s.length := by
  unfold scalar? at h
  split at h
  case h_4 =>
    simp only [Option.map_eq_some_iff, Prod.exists, Prod.mk.injEq] at h
    obtain ⟨written, r, hn, -, rfl⟩ := h
    obtain ⟨rfl, hne⟩ := eq_append_of_number? hn
    have := List.length_pos_iff.2 hne
    simp only [List.length_append]
    omega
  all_goals
    simp only [Option.some.injEq, Prod.mk.injEq] at h
    simp only [← h.2, List.length_cons]
    omega

/-- The string that pieces stand for. -/
def ofPieces (ps : List Quoted.Piece) : Json :=
  match Quoted.text? ps with
  | some s => .string s
  | none => .unreadable

/-- The object with the given keys, in pieces, and values. -/
def ofMembers (members : List (List Quoted.Piece × Json)) : Json :=
  match members.mapM fun (key, value) => (Quoted.text? key).map (·, value) with
  | some members => .object members
  | none => .unreadable

mutual

/-- Reads a value, blanks before it included. -/
def value? (s : Text) : Option (Json × Remainder s) :=
  match h : skipSpace s with
  | [] => none
  | '"' :: t =>
    match hp : Quoted.pieces? t with
    | none => none
    | some (ps, rest) => some (ofPieces ps, ⟨rest, by
        have := length_skipSpace_le s
        have := Quoted.length_lt_of_pieces? hp
        simp only [h, List.length_cons] at *
        omega⟩)
  | '[' :: t =>
    have ht : t.length < s.length := by
      have := length_skipSpace_le s
      simp only [h, List.length_cons] at this
      omega
    match ht' : skipSpace t with
    | ']' :: rest => some (.array [], ⟨rest, by
        have := length_skipSpace_le t
        simp only [ht', List.length_cons] at this
        omega⟩)
    | _ => do
      let (items, rest) ← items? t
      return (.array items, ⟨rest.1, by have := rest.2; omega⟩)
  | '\x7b' :: t =>
    have ht : t.length < s.length := by
      have := length_skipSpace_le s
      simp only [h, List.length_cons] at this
      omega
    match ht' : skipSpace t with
    | '\x7d' :: rest => some (.object [], ⟨rest, by
        have := length_skipSpace_le t
        simp only [ht', List.length_cons] at this
        omega⟩)
    | _ => do
      let (members, rest) ← members? t
      return (ofMembers members, ⟨rest.1, by have := rest.2; omega⟩)
  | c :: t =>
    match hc : scalar? (c :: t) with
    | none => none
    | some (value, rest) => some (value, ⟨rest, by
        have := length_skipSpace_le s
        have := length_lt_of_scalar? hc
        simp only [h, List.length_cons] at *
        omega⟩)
termination_by (s.length, 0)

/-- Reads the items of an array after its bracket, the closing bracket included. -/
def items? (s : Text) : Option (List Json × Remainder s) := do
  let (item, rest) ← value? s
  match h : skipSpace rest.1 with
  | ',' :: t =>
    have ht : t.length < s.length := by
      have := length_skipSpace_le rest.1
      have := rest.2
      simp only [h, List.length_cons] at *
      omega
    let (items, rest) ← items? t
    return (item :: items, ⟨rest.1, by have := rest.2; omega⟩)
  | ']' :: t => return ([item], ⟨t, by
      have := length_skipSpace_le rest.1
      have := rest.2
      simp only [h, List.length_cons] at *
      omega⟩)
  | _ => none
termination_by (s.length, 1)

/-- Reads the members of an object after its brace, the closing brace included. -/
def members? (s : Text) : Option (List (List Quoted.Piece × Json) × Remainder s) :=
  match h : skipSpace s with
  | '"' :: t =>
    match hp : Quoted.pieces? t with
    | none => none
    | some (key, rest) =>
      have hrest : rest.length < s.length := by
        have := length_skipSpace_le s
        have := Quoted.length_lt_of_pieces? hp
        simp only [h, List.length_cons] at *
        omega
      match hc : skipSpace rest with
      | ':' :: u =>
        have hu : u.length < s.length := by
          have := length_skipSpace_le rest
          simp only [hc, List.length_cons] at this
          omega
        do
          let (value, rest) ← value? u
          match hv : skipSpace rest.1 with
          | ',' :: v =>
            have hvs : v.length < s.length := by
              have := length_skipSpace_le rest.1
              have := rest.2
              simp only [hv, List.length_cons] at *
              omega
            let (members, rest) ← members? v
            return ((key, value) :: members, ⟨rest.1, by have := rest.2; omega⟩)
          | '\x7d' :: v => return ([(key, value)], ⟨v, by
              have := length_skipSpace_le rest.1
              have := rest.2
              simp only [hv, List.length_cons] at *
              omega⟩)
          | _ => none
      | _ => none
  | _ => none
termination_by (s.length, 0)

end

/-- The value that a text holds, when it is one JSON value with blanks around it. -/
def read? (s : Text) : Option Json :=
  match value? s with
  | some (value, rest) => if (skipSpace rest.1).isEmpty then some value else none
  | none => none

end Soql.Json
