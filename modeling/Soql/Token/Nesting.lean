import Soql.Token.Basic

/-!
# Nesting of parentheses

A place in a query is at top level when every parenthesis before it has been closed. The depth
does not fall below zero: a closing parenthesis that closes nothing leaves the level where it is
and is remembered as an underflow.
-/

namespace Soql

/-- How many parentheses are open, and whether one was closed that was not open. -/
structure Nesting where
  depth : Nat
  underflow : Bool
  deriving DecidableEq

namespace Nesting

/-- Nothing open, nothing wrong. -/
def top : Nesting :=
  ⟨0, false⟩

/-- The nesting behind a token. -/
def step (n : Nesting) (t : Token) : Nesting :=
  match t.kind with
  | .openParen => { n with depth := n.depth + 1 }
  | .closeParen =>
    match n.depth with
    | 0 => { n with underflow := true }
    | d + 1 => { n with depth := d }
  | _ => n

/-- The nesting behind a stretch of tokens that starts at top level. -/
def after (ts : List Token) : Nesting :=
  ts.foldl step top

end Nesting

namespace Token

/-- The depth behind a token that stands at depth `d`. -/
def depthAfter (d : Nat) (t : Token) : Nat :=
  match t.kind with
  | .openParen => d + 1
  | .closeParen => d - 1
  | _ => d

theorem depth_step (n : Nesting) (t : Token) : (n.step t).depth = t.depthAfter n.depth := by
  unfold Nesting.step depthAfter
  split <;> try rfl
  split <;> simp_all

/-- Parentheses close exactly as often as they open, none too early. -/
def isBalanced (ts : List Token) : Bool :=
  Nesting.after ts == Nesting.top

/-- Some quoted text lacks its closing quote. -/
def hasUnclosed (ts : List Token) : Bool :=
  ts.any (·.kind == .unclosed)

/-- Splits behind an opening parenthesis: the tokens up to the parenthesis that closes it and the
tokens behind that one. `d` counts the further parentheses that are open. -/
def closeGroup? (d : Nat) : List Token → Option (List Token × List Token)
  | [] => none
  | t :: ts =>
    if t.kind == .closeParen && d == 0 then some ([], ts)
    else (closeGroup? (t.depthAfter d) ts).map fun (inside, rest) => (t :: inside, rest)

/-- How many tokens the group at the front has, both parentheses included: all of them when it is
not closed, none when no group starts here. -/
def groupLength : List Token → Nat
  | [] => 0
  | t :: ts =>
    if t.kind == .openParen then
      match closeGroup? 0 ts with
      | some (inside, _) => inside.length + 2
      | none => ts.length + 1
    else 0

/-- Cuts at the first place at top level where `found` holds of the tokens from there on: the
tokens before it, and those from there on. `d` is the depth at the start. -/
def cutTop (found : List Token → Bool) (d : Nat) : List Token → List Token × List Token
  | [] => ([], [])
  | t :: ts =>
    if d == 0 && found (t :: ts) then ([], t :: ts)
    else
      let (before, rest) := cutTop found (t.depthAfter d) ts
      (t :: before, rest)

/-- Cuts at every token at top level that satisfies `sep`, which is left out: the tokens before
the first one, and those behind each. -/
def splitTop (sep : Token → Bool) (d : Nat) : List Token → List Token × List (List Token)
  | [] => ([], [])
  | t :: ts =>
    if d == 0 && sep t then
      let (part, parts) := splitTop sep (t.depthAfter d) ts
      ([], part :: parts)
    else
      let (part, parts) := splitTop sep (t.depthAfter d) ts
      (t :: part, parts)

end Token

end Soql
