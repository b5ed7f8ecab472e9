import Stencil.Json.Reader
import Stencil.Template.Piece
import Stencil.Text.CodePoints

/-!
# Rejected sources

Why a source is no template, the diagnostic that says so, and the line that is reported for it. The
line is looked for in the diagnostic's text: it is the first of two numbers behind colons. A name or
literal that is quoted in front of the position can hold such a pair itself, and then that one counts.
-/

namespace Stencil.Template

inductive BlockKind where
  | helper
  | decorator
deriving DecidableEq, Repr

inductive Fault where
  | unmatched
  | closing (kind : BlockKind) (opened closed : String)
  | literal (text : String)
deriving DecidableEq, Repr

structure Rejection where
  fault : Fault
  position : Option Text.Position
deriving DecidableEq, Repr

namespace Fault

def kindWord : BlockKind → String
  | .helper => "helper"
  | .decorator => "decorator"

def reason : Fault → String
  | .unmatched => "invalid handlebars syntax."
  | .closing kind opened closed =>
    kindWord kind ++ " " ++ Text.quoted opened ++ " was opened, but " ++ Text.quoted closed ++
      " is closing"
  | .literal text => "invalid parameter " ++ Text.quoted text

end Fault

namespace Rejection

def headline (r : Rejection) : String :=
  match r.position with
  | some _ => "Template error: " ++ r.fault.reason
  | none => r.fault.reason

/-- The diagnostic up to the position, if there is one. -/
def diagnostic (r : Rejection) : String :=
  match r.position with
  | some p =>
    r.headline ++ "\n    --> Template error in \"Unnamed\":" ++ toString p.line ++ ":" ++
      toString p.column
  | none => r.headline

end Rejection

/-! ## The line in a diagnostic -/

/-- The digits of a first number behind a colon, if a second such number follows. -/
def numberPair? : List Char → Option (List Char)
  | ':' :: rest =>
    let digits := rest.takeWhile Text.isDecimalDigit
    match rest.dropWhile Text.isDecimalDigit with
    | ':' :: c :: _ =>
      if !digits.isEmpty && Text.isDecimalDigit c then some digits else none
    | _ => none
  | _ => none

/-- The digits of the first such number in a text. -/
def firstNumberPair? : List Char → Option (List Char)
  | [] => none
  | c :: rest =>
    match numberPair? (c :: rest) with
    | some digits => some digits
    | none => firstNumberPair? rest

/-- The value of ASCII digits, if it fits in 64 bits. -/
def wordOf? (digits : List Char) : Option Nat :=
  if digits.all Char.isDigit && Json.decimal digits < Word.count 64 then
    some (Json.decimal digits)
  else none

def lineNamed? (diagnostic : List Char) : Option Nat :=
  (firstNumberPair? diagnostic).bind wordOf?

def Rejection.line? (r : Rejection) : Option Nat := lineNamed? r.diagnostic.toList

end Stencil.Template
