import Mathlib.Data.List.Find
import Stencil.Partials.Checked
import Stencil.Proofs.Page.Partials

/-!
# Registered helpers

An engine binds names to helpers, at first those of the built-in ones, and registering a helper takes
its name away from the one that had it. That this never happens is up to the renderer, which keeps
the names that are bound beside the engine and registers nothing under a name that it knows.

* **`InStep`**: the renderer knows just the names that its engine binds. It is so in a new renderer
  and stays so.
* **`helper?_registerHelpers`**: as long as it is so, the helpers of a list are bound behind those
  that are bound already, and the first of a name counts.
-/

namespace Stencil

namespace Engine

def helper? (engine : Engine) (name : String) : Option Render.Helper :=
  (engine.helpers.find? (·.name == name)).map RegisteredHelper.helper

theorem helper?_of_helpers_eq {a b : Engine} (h : a.helpers = b.helpers) (name : String) :
    a.helper? name = b.helper? name := by
  unfold helper?
  rw [h]

/-- A new engine binds the names of the built-in helpers. -/
theorem helper?_new (name : String) :
    helper? {} name = (Render.Builtin.named? name).map .builtin := by
  -- over any table, by induction: the engine finds an entry where a lookup does
  have find?_table (builtins : List (String × Render.Builtin)) :
      ((builtins.map fun entry =>
        ({ name := entry.1, helper := .builtin entry.2 } : RegisteredHelper)).find?
          (·.name == name)).map RegisteredHelper.helper = (builtins.lookup name).map .builtin := by
    induction builtins with
    | nil => rfl
    | cons first rest ih =>
      rw [List.map_cons, List.find?_cons, List.lookup_cons]
      by_cases heq : name = first.1
      · rw [beq_iff_eq.2 heq, beq_iff_eq.2 heq.symm]
        rfl
      · rw [beq_false_of_ne heq, beq_false_of_ne (Ne.symm heq)]
        exact ih
  exact find?_table Render.builtins

/-- A registered helper has its name to itself. -/
theorem helper?_registerHelper (engine : Engine) (name : String) (run : Render.HelperFunction)
    (other : String) :
    (engine.registerHelper name run).helper? other =
      if other = name then some (.site name run) else engine.helper? other := by
  unfold registerHelper helper?
  rw [List.find?_cons]
  by_cases heq : other = name
  · rw [if_pos heq, beq_iff_eq.2 heq.symm]
    rfl
  · rw [if_neg heq, beq_false_of_ne (Ne.symm heq)]
    -- what was removed has another name than the one looked for
    congr 1
    rw [List.find?_filter]
    refine List.find?_congr fun r _ => ?_
    by_cases hr : r.name = other
    · simp [hr, heq]
    · simp [hr]

/-- Counting calls changes no binding. -/
theorem helper?_countCalls (engine : Engine) (calls : List String) (name : String) :
    (engine.countCalls calls).helper? name = engine.helper? name := by
  unfold countCalls helper?
  rw [List.find?_map, Option.map_map]
  rfl

end Engine

namespace PageRenderer

/-- The names that the renderer knows are those that its engine binds. -/
def InStep (renderer : PageRenderer) : Prop :=
  ∀ name, renderer.hasHelper name = (renderer.engine.helper? name).isSome

/-- A new renderer knows exactly the helpers that are built in. -/
theorem inStep_new : InStep {} := by
  intro name
  rw [Engine.helper?_new, Option.isSome_map]
  show (Render.builtins.map Prod.fst).contains name = (Render.builtins.lookup name).isSome
  rw [Bool.eq_iff_iff, List.contains_iff_mem, isSome_lookup_iff]

/-- Only what the engine binds and what is known matters. -/
theorem InStep.of_helpers_eq {renderer other : PageRenderer} (h : renderer.InStep)
    (hknown : other.known = renderer.known)
    (hhelpers : ∀ name, other.engine.helper? name = renderer.engine.helper? name) :
    other.InStep := by
  intro name
  rw [hhelpers, ← h name]
  unfold hasHelper
  rw [hknown]

/-- A name that is known keeps its helper, and any other is bound now. -/
theorem InStep.helper?_registerHelper {renderer : PageRenderer} (h : renderer.InStep)
    (name : String) (run : Render.HelperFunction) (other : String) :
    (renderer.registerHelper name run).engine.helper? other =
      (renderer.engine.helper? other).or (if other = name then some (.site name run) else none) := by
  have hname : renderer.known.contains name = (renderer.engine.helper? name).isSome := h name
  unfold registerHelper
  split
  · -- a name that is known is bound, and is passed over
    rename_i hknown
    rw [hname] at hknown
    split
    · rename_i heq
      rw [heq, Option.or_of_isSome hknown]
    · rw [Option.or_none]
  · rename_i hknown
    rw [hname, Option.not_isSome_iff_eq_none] at hknown
    -- an unknown name was bound to nothing before
    rw [Engine.helper?_registerHelper]
    split
    · rename_i heq
      rw [heq, hknown]
      rfl
    · rw [Option.or_none]

/-- A name is known and bound by the same step. -/
theorem InStep.registerHelper {renderer : PageRenderer} (h : renderer.InStep) (name : String)
    (run : Render.HelperFunction) : (renderer.registerHelper name run).InStep := by
  intro other
  rw [h.helper?_registerHelper, Option.isSome_or, ← h other]
  -- either the name was known and nothing changed, or it is put into both tables
  unfold PageRenderer.registerHelper hasHelper
  split
  · rename_i hknown
    split
    · rename_i heq
      rw [heq, hknown]
      rfl
    · rw [Option.isSome_none, Bool.or_false]
  · rw [List.contains_cons]
    split
    · rename_i heq
      rw [beq_iff_eq.2 heq, Bool.true_or, Option.isSome_some, Bool.or_true]
    · rename_i heq
      rw [beq_false_of_ne heq, Bool.false_or, Option.isSome_none, Bool.or_false]

/-- Registering several helpers keeps the two tables in step, by induction on the helpers. -/
theorem InStep.registerHelpers {renderer : PageRenderer} (h : renderer.InStep)
    (helpers : List (String × Render.HelperFunction)) :
    (renderer.registerHelpers helpers).InStep := by
  induction helpers generalizing renderer with
  | nil => exact h
  | cons helper rest ih => exact ih (h.registerHelper helper.1 helper.2)

/-- The helpers of a list are bound behind those that are bound already: the first of a name
counts. -/
theorem InStep.helper?_registerHelpers {renderer : PageRenderer} (h : renderer.InStep)
    (helpers : List (String × Render.HelperFunction)) (name : String) :
    (renderer.registerHelpers helpers).engine.helper? name =
      (renderer.engine.helper? name).or ((helpers.lookup name).map (.site name)) := by
  induction helpers generalizing renderer with
  | nil => exact (Option.or_none).symm
  | cons helper rest ih =>
    show ((renderer.registerHelper helper.1 helper.2).registerHelpers rest).engine.helper? name = _
    rw [ih (h.registerHelper helper.1 helper.2), h.helper?_registerHelper, Option.or_assoc,
      List.lookup_cons]
    -- behind what was bound before, the first helper goes before the rest
    congr 1
    by_cases heq : name = helper.1
    · rw [if_pos heq, beq_iff_eq.2 heq, heq]
      rfl
    · rw [if_neg heq, beq_false_of_ne heq]
      rfl

/-- Partials and helpers are kept in tables of their own. -/
theorem helpers_registerPartials (engine : Engine) (entries : List (String × CheckedTemplate)) :
    (registerPartials engine entries).2.helpers = engine.helpers := by
  rw [registerPartials_frame]

end PageRenderer

end Stencil
