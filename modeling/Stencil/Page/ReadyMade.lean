import Stencil.Json.Printer
import Stencil.Page.Data
import Stencil.Render.Evaluate
import Stencil.Text.Upper

/-!
# Ready-made helpers and data

Helpers that need nothing but their parameters or the number of the call, and page data of the common
kinds.
-/

namespace Stencil

inductive ReadyHelper where
  | upper
  | const (value : Json)
  | echo
  | count
  | params
  | calls
  | fail (causes : List String)
deriving Repr

namespace ReadyHelper

/-- What the helper does. Causes of a failure are given innermost first; an empty list is an empty
cause. -/
def run : ReadyHelper → Render.HelperFunction
  | upper => fun _ params =>
    .ok (.string (((params.head?.bind Json.asString?).map Text.upper).getD ""))
  | const value => fun _ _ => .ok value
  | echo => fun _ params => .ok (params.head?.getD .null)
  | count => fun _ params => .ok (.ofNat params.length)
  | params => fun _ params => .ok (.string (Json.array params).compact)
  | calls => fun number _ => .ok (.ofNat number)
  | fail causes => fun _ _ => .error (if causes.isEmpty then [""] else causes)

end ReadyHelper

namespace PageData

def ofValue (value : Json) : PageData := { origin := .given value }

def onDemand (value : Json) : PageData := { origin := .onDemand fun _ => .ok value }

def counter : PageData :=
  { origin := .onDemand fun n => .ok (.object [("count", .ofNat n)]) }

def failing (cause : String) : PageData := { origin := .onDemand fun _ => .error cause }

end PageData

end Stencil
