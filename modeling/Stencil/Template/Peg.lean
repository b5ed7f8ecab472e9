import Stencil.Template.Cursor
import Stencil.Text.Lines

/-!
# Ordered choice

Parsers for a grammar of ordered choice and greedy repetition. Beside its result a parser reports the
furthest place at which a rule went wrong: one that failed, or one that matched where a match is not
allowed. That report survives failure, so it is part of the outcome either way. The first argument of
a parser says whether a match is unwanted; a negative look-ahead turns it over.
-/

namespace Stencil.Template

/-- What a parser makes of a place: its result with the place after it, if it matches, and the
furthest offset at which a rule went wrong so far. -/
structure Outcome (α : Type) where
  found : Option (α × Cursor)
  furthest : Nat

/-- A parser. It is given whether a match is unwanted, a place, and the furthest offset so far. -/
def Parser (α : Type) : Type := (unwanted : Bool) → Cursor → (furthest : Nat) → Outcome α

namespace Parser

variable {α β : Type}

protected def pure (x : α) : Parser α := fun _ c furthest => ⟨some (x, c), furthest⟩

/-- One parser, then the one that its result asks for. -/
protected def bind (p : Parser α) (next : α → Parser β) : Parser β := fun unwanted c furthest =>
  match p unwanted c furthest with
  | ⟨some (x, c), furthest⟩ => next x unwanted c furthest
  | ⟨none, furthest⟩ => ⟨none, furthest⟩

instance : Monad Parser where
  pure := Parser.pure
  bind := Parser.bind

def fail : Parser α := fun _ _ furthest => ⟨none, furthest⟩

protected def orElse (p : Parser α) (q : Unit → Parser α) : Parser α :=
  fun unwanted c furthest =>
    match p unwanted c furthest with
    | ⟨none, furthest⟩ => q () unwanted c furthest
    | outcome => outcome

instance : OrElse (Parser α) where
  orElse := Parser.orElse

def here : Parser Cursor := fun _ c furthest => ⟨some (c, c), furthest⟩

/-- A parser whose going wrong at a place is reported. -/
def rule (p : Parser α) : Parser α := fun unwanted c furthest =>
  let outcome := p unwanted c furthest
  if outcome.found.isSome == unwanted then
    { outcome with furthest := max outcome.furthest c.offset }
  else outcome

/-- Matches nothing where `p` does not match. -/
def notAhead (p : Parser α) : Parser Unit := fun unwanted c furthest =>
  match p (!unwanted) c furthest with
  | ⟨none, furthest⟩ => ⟨some ((), c), furthest⟩
  | ⟨some _, furthest⟩ => ⟨none, furthest⟩

/-- The text whose length `scan` finds. -/
def token (scan : List Char → Option Nat) : Parser (List Char) := fun _ c furthest =>
  match scan c.rest with
  | some n => ⟨some (c.rest.take n, c.forward n), furthest⟩
  | none => ⟨none, furthest⟩

def word (text : List Char) : Parser (List Char) :=
  token fun cs => if text.isPrefixOf cs then some text.length else none

/-- As much white space as there is; it may stand between the parts of a rule. -/
def skip : Parser Unit := do
  let _ ← token fun cs => some (cs.takeWhile Text.isSpace).length
  return ()

/-- The result of `p`, or none where it does not match. -/
def optional (p : Parser α) : Parser (Option α) :=
  (do return some (← p)) <|> Parser.pure none

/-- Further repetitions of `p`, at most `limit`, each after white space. -/
def further (p : Parser α) : (limit : Nat) → Parser (List α)
  | 0 => Parser.pure []
  | limit + 1 =>
    (do
      skip
      let x ← p
      return x :: (← further p limit)) <|> Parser.pure []

/-- `p` as often as it matches, with white space between; each match takes something. -/
def many (p : Parser α) : Parser (List α) := fun unwanted c furthest =>
  ((do return (← p) :: (← further p c.rest.length)) <|> Parser.pure []) unwanted c furthest

/-- `p` at least once, with white space between. -/
def many1 (p : Parser α) : Parser (List α) := fun unwanted c furthest =>
  (do return (← p) :: (← further p c.rest.length) : Parser (List α)) unwanted c furthest

/-- `p` as often as it matches, without white space between, at most `limit` times. -/
def tight (p : Parser α) : (limit : Nat) → Parser (List α)
  | 0 => Parser.pure []
  | limit + 1 => (do return (← p) :: (← tight p limit)) <|> Parser.pure []

def textOf (p : Parser α) : Parser (List Char) := do
  let start ← here
  let _ ← p
  let stop ← here
  return stop.since start.offset

end Parser

end Stencil.Template
