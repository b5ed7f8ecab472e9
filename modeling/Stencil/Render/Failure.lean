import Stencil.Render.Value
import Stencil.Text.Lines

/-!
# Render failures

Why a template could not be rendered, in which template and where, and the message that says so. The
place is that of the innermost element, the template the innermost partial.
-/

namespace Stencil.Render

inductive Cause where
  | variableMissing (raw : String)
  | valueMissing
  | textIndex
  | helperUnknown (shown : String)
  | decoratorUnknown (shown : String)
  | paramMissing (helper : String)
  | paramsMissing (helper : String)
  | paramUnreadable (helper param : String)
  | paramNotInteger (helper param : String) (value : Json) (params : List Argument)
  | logLevelUnknown (level : String)
  | helperFailed (name : String) (causes : List String)
  | selfInclusion
  | inlineUnnamed
  | inlineNameNotText
  | inlineWithoutBlock
  | tooDeep
deriving Repr, Inhabited

/-- What is said about a failed helper's causes, which are given innermost first. -/
def causeText (causes : List String) : String := ": ".intercalate causes.reverse

namespace Cause

def message : Cause → String
  | variableMissing raw => "Variable " ++ Text.quoted raw ++ " not found in strict mode."
  | valueMissing => "Value is missing in strict mode"
  | textIndex => "Cannot access array/vector with string index."
  | helperUnknown shown => "Helper not defined: " ++ shown
  | decoratorUnknown shown => "Decorator not defined: " ++ shown
  | paramMissing helper => "Param not found for helper " ++ Text.quoted helper
  | paramsMissing helper => "Insufficient params for helper " ++ Text.quoted helper
  | paramUnreadable helper param =>
    "\x60" ++ helper ++ "\x60 helper: Couldn't read parameter " ++ param
  | paramNotInteger helper param value params =>
    "\x60" ++ helper ++ "\x60 helper: Couldn't convert parameter " ++ param ++
      " to type \x60i64\x60. It's " ++ value.shown ++ " as JSON. Got these params: [" ++
      ", ".intercalate (params.map Argument.shown) ++ "]"
  | logLevelUnknown level => "Unsupported logging level " ++ level
  | helperFailed name causes => "Helper '" ++ name ++ "' failed: " ++ causeText causes
  | selfInclusion => "Cannot include self in >"
  | inlineUnnamed => "Param required for decorator \"inline\""
  | inlineNameNotText => "inline name must be string"
  | inlineWithoutBlock => "inline should have a block"
  | tooDeep => "Nesting is too deep"

/-- A value that is missing where there has to be one. -/
def missing : Option String → Cause
  | some raw => variableMissing raw
  | none => valueMissing

end Cause

/-- A cause with the place of the failure and the template that it is in, as far as they are known. -/
structure Failure where
  cause : Cause
  position : Option Text.Position := none
  template : Option String := none
deriving Repr, Inhabited

namespace Failure

/-- With a place, unless an inner element has given one. -/
def placed (failure : Failure) (position : Text.Position) : Failure :=
  { failure with position := failure.position <|> some position }

/-- Within a template of this name, unless an inner one has a name. -/
def within (failure : Failure) (template : Option String) : Failure :=
  { failure with template := failure.template <|> template }

def message (failure : Failure) : String :=
  match failure.position with
  | some p =>
    "Error rendering \"" ++ failure.template.getD "Unnamed template" ++ "\" line " ++
      toString p.line ++ ", col " ++ toString p.column ++ ": " ++ failure.cause.message
  | none => failure.cause.message

end Failure

end Stencil.Render
