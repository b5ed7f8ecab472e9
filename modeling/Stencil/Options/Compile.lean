import Stencil.Json.Writer

/-!
# Compile options

The options of a template: nine switches and the known helpers, each set or left out. Their literal
names the set ones in a fixed order; it is what emitted modules carry.
-/

namespace Stencil

/-- The helpers that a template may rely on, by name, and whether they are known. -/
structure KnownHelpers where
  entries : List (String × Bool)
  ascending : Sorted.Ascending entries
deriving DecidableEq

namespace KnownHelpers

/-- The known helpers of the given list; of two with one name the later counts. -/
def ofList (entries : List (String × Bool)) : KnownHelpers :=
  ⟨Sorted.ofList entries, Sorted.Ascending.ofList entries⟩

instance : Inhabited KnownHelpers := ⟨⟨[], Sorted.Ascending.nil⟩⟩

def toJson (known : KnownHelpers) : Json :=
  .object (known.entries.map fun (name, value) => (name, .bool value))

end KnownHelpers

/-- Compile options. An option that is none is not set. -/
structure CompileOptions where
  data : Option Bool := none
  compat : Option Bool := none
  knownHelpers : Option KnownHelpers := none
  knownHelpersOnly : Option Bool := none
  noEscape : Option Bool := none
  strict : Option Bool := none
  assumeObjects : Option Bool := none
  preventIndent : Option Bool := none
  ignoreStandalone : Option Bool := none
  explicitPartialContext : Option Bool := none
deriving DecidableEq, Inhabited

namespace CompileOptions

def fieldNames : List String :=
  ["data", "compat", "knownHelpers", "knownHelpersOnly", "noEscape", "strict", "assumeObjects",
    "preventIndent", "ignoreStandalone", "explicitPartialContext"]

def switch (name : String) (value : Option Bool) : List (String × Json) :=
  match value with
  | some b => [(name, .bool b)]
  | none => []

def members (o : CompileOptions) : List (String × Json) :=
  switch "data" o.data ++ switch "compat" o.compat ++
    (match o.knownHelpers with
      | some known => [("knownHelpers", known.toJson)]
      | none => []) ++
    switch "knownHelpersOnly" o.knownHelpersOnly ++ switch "noEscape" o.noEscape ++
    switch "strict" o.strict ++ switch "assumeObjects" o.assumeObjects ++
    switch "preventIndent" o.preventIndent ++ switch "ignoreStandalone" o.ignoreStandalone ++
    switch "explicitPartialContext" o.explicitPartialContext

def datum (o : CompileOptions) : Json.Datum := .ofJson (.object o.members)

/-- The literal of the options: the set ones in order, as a compact object. It would be an empty object
if they could not be written. -/
def literal (o : CompileOptions) : String :=
  match o.datum.write with
  | .ok text => text
  | .error _ => "\x7b\x7d"

def toJson (o : CompileOptions) : Json := Json.ofMembers o.members

/-- Options are values, so they are always written. -/
theorem literal_eq (o : CompileOptions) : o.literal = (Json.object o.members).compact := by
  unfold literal datum
  rw [Json.Datum.write_ofJson]

end CompileOptions

end Stencil
