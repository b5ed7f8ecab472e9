import Stencil.Json.Printer

/-!
# Page data

The data that a page is rendered with is given at once or produced when it is needed.
-/

namespace Stencil

/-- Where data comes from: a value, or a producer, which is given the number of the production. -/
inductive DataOrigin where
  | given (value : Json)
  | onDemand (produce : Nat → Except String Json)

/-- Data for a page, and how often it has been produced. -/
structure PageData where
  origin : DataOrigin
  produced : Nat := 0

namespace PageData

/-- The data, or the text of a failure, with the production counted. -/
def resolve (context : PageData) : Except String Json × PageData :=
  match context.origin with
  | .given value => (.ok value, context)
  | .onDemand produce =>
    (produce (context.produced + 1), { context with produced := context.produced + 1 })

def shown (context : PageData) : String :=
  match context.origin with
  | .given value => "Value(" ++ value.shown ++ ")"
  | .onDemand _ => "Deferred(..)"

/-- The optional data of a page; if there is none, the empty object. -/
def resolve? (context : Option PageData) : Except String Json × Option PageData :=
  match context with
  | some context =>
    let (data, context) := context.resolve
    (data, some context)
  | none => (.ok (.object []), none)

end PageData

end Stencil
