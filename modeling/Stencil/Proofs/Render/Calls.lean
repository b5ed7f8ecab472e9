import Stencil.Render.Element

/-!
# Calls of helpers and how a rendering ends

A rendering notes every call of a helper of the site with its answer. A step is *honest* if, from calls
that all succeeded, it leaves calls that are accounted for by its end: either all of them succeeded, or
the last one failed, and the step ends with this failure (`Accounted`).

Pure steps, changes of output and scope, and failures for other causes are honest, the call of a helper
is, and so is what is made of honest steps by sequence and by noting the place of a failure. The rest
follows the syntax: operands by induction on their structure, elements and the templates in them by
induction on the depth of nesting.

* **`accounted_renderDocument`**: the calls of a whole rendering are accounted for by what it comes to.
-/

namespace Stencil.Render

open Rendering

def SiteCall.Succeeded (call : SiteCall) : Prop := ∃ value, call.answer = .ok value

def Environment.Has (env : Environment) (helper : Helper) : Prop :=
  ∃ name, env.helpers name = some helper

def SiteCall.IsOf (env : Environment) (call : SiteCall) : Prop :=
  ∃ run number, env.Has (.site call.name run) ∧ call.answer = run number call.params

/-- The calls are answered by helpers of the environment, and all have succeeded. -/
def Clean (env : Environment) (calls : List SiteCall) : Prop :=
  ∀ call ∈ calls, call.IsOf env ∧ call.Succeeded

/-- What the end of a step says of the calls up to then, last one first: all have succeeded, or just
the last one failed, and this is how the step ends. -/
inductive Accounted (env : Environment) {α : Type} : Except Failure α → List SiteCall → Prop
  | clean {result : Except Failure α} {calls : List SiteCall} (h : Clean env calls) :
      Accounted env result calls
  | failed {failure : Failure} {call : SiteCall} {earlier : List SiteCall} {causes : List String}
      (hcall : call.IsOf env) (hanswer : call.answer = .error causes)
      (hcause : failure.cause = .helperFailed call.name causes) (h : Clean env earlier) :
      Accounted env (.error failure) (call :: earlier)

/-- From calls that all succeeded the step leaves calls that its end accounts for. -/
def Honest (env : Environment) {α : Type} (step : Rendering α) : Prop :=
  ∀ s : State, Clean env s.calls →
    Accounted env (step.run.run s).1 (step.run.run s).2.calls

section Steps

variable {env : Environment} {α β : Type}

/-- If a render succeeds, so did all its calls. -/
theorem Accounted.clean_of_ok {a : α} {calls : List SiteCall}
    (h : Accounted env (.ok a) calls) : Clean env calls := by
  cases h with
  | clean h => exact h

/-- Only the cause of a failure matters. -/
theorem Accounted.of_cause_eq {failure other : Failure} {calls : List SiteCall}
    (h : Accounted env (.error failure : Except Failure α) calls)
    (hcause : other.cause = failure.cause) :
    Accounted env (.error other : Except Failure β) calls := by
  cases h with
  | clean h => exact .clean h
  | failed hcall hanswer hfailure h => exact .failed hcall hanswer (hcause.trans hfailure) h

/-- A call that failed is the last one, and what the step ends with; those before it succeeded. -/
theorem Accounted.of_mem {result : Except Failure α} {calls : List SiteCall}
    (h : Accounted env result calls) {call : SiteCall} (hmem : call ∈ calls) :
    call.IsOf env ∧ ∀ causes, call.answer = .error causes →
      ∃ failure earlier, result = .error failure ∧
        failure.cause = .helperFailed call.name causes ∧
        calls = call :: earlier ∧ ∀ other ∈ earlier, other.Succeeded := by
  have notFailed {calls : List SiteCall} (h : Clean env calls) (hmem : call ∈ calls)
      {causes : List String} : call.answer ≠ .error causes := by
    obtain ⟨value, hvalue⟩ := (h call hmem).2
    rw [hvalue]
    nofun
  cases h with
  | clean h => exact ⟨(h call hmem).1, fun causes hfailed => absurd hfailed (notFailed h hmem)⟩
  | @failed failure last earlier causes hcall hanswer hcause h =>
    -- the call is the one that failed, or it is an earlier one
    obtain rfl | hmem := List.mem_cons.1 hmem
    · refine ⟨hcall, fun others hothers => ?_⟩
      have hsame : causes = others := Except.error.inj (hanswer.symm.trans hothers)
      exact ⟨failure, earlier, rfl, hsame ▸ hcause, rfl, fun other hother => (h other hother).2⟩
    · exact ⟨(h call hmem).1, fun causes hfailed => absurd hfailed (notFailed h hmem)⟩

/-! ## Steps -/

/-- Sequencing stops at the first failure and keeps the state. -/
theorem run_bind (step : Rendering α) (next : α → Rendering β) (s : State) :
    (step >>= next).run.run s = match step.run.run s with
      | (.ok a, s') => (next a).run.run s'
      | (.error failure, s') => (.error failure, s') := by
  show (ExceptT.bindCont next (step.run.run s).1).run (step.run.run s).2 = _
  rcases step.run.run s with ⟨_ | a, s'⟩ <;> rfl

/-- Putting a failure differently changes neither the state nor whether there is one. -/
theorem run_rethrow (step : Rendering α) (f : Failure → Failure) (s : State) :
    (tryCatch step fun failure => throw (f failure)).run.run s =
      ((step.run.run s).1.mapError f, (step.run.run s).2) := by
  show (ExceptT.tryCatch step fun failure => throw (f failure)).run.run s = _
  unfold ExceptT.tryCatch
  rw [ExceptT.run_mk]
  show (step.run >>= _).run s = _
  rw [StateT.run_bind]
  show StateT.run _ (step.run.run s).2 = _
  rcases step.run.run s with ⟨_ | a, s'⟩ <;> rfl

/-- The call that a helper of the site is to answer now. -/
def State.nextCall (s : State) (name : String) (run : HelperFunction) (params : List Json) :
    SiteCall :=
  ⟨name, params, run (s.calls.countP (·.name == name) + 1) params⟩

/-- The call is noted with its answer, and a failure is the end. -/
theorem run_callSite (name : String) (run : HelperFunction) (params : List Json) (s : State) :
    (callSite name run params).run.run s =
      ((s.nextCall name run params).answer.mapError fun causes =>
          { cause := .helperFailed name causes },
        { s with calls := s.nextCall name run params :: s.calls }) := by
  unfold callSite
  rw [run_bind]
  show StateT.run (ExceptT.run (Rendering.ofExcept
    ((s.nextCall name run params).answer.mapError (.helperFailed name)))) _ = _
  cases (s.nextCall name run params).answer <;> rfl

/-- A step that calls no helper keeps the calls clean. -/
theorem honest_pure (a : α) : Honest env (pure a) := fun _ hs => .clean hs

/-- After a failure nothing is called any more, and after a success the calls have all succeeded. -/
theorem Honest.bind {step : Rendering α} {next : α → Rendering β} (h : Honest env step)
    (hnext : ∀ a, Honest env (next a)) : Honest env (step >>= next) := by
  intro s hs
  have hstep := h s hs
  rw [run_bind]
  generalize step.run.run s = ran at hstep ⊢
  obtain ⟨failure | a, s'⟩ := ran
  · exact hstep.of_cause_eq rfl
  · exact hnext a s' hstep.clean_of_ok

theorem honest_stop (cause : Cause) : Honest env (stop cause : Rendering α) :=
  fun _ hs => .clean hs

theorem honest_ofExcept (answer : Except Cause α) : Honest env (ofExcept answer) := by
  cases answer with
  | ok a => exact honest_pure a
  | error cause => exact honest_stop cause

/-- Writing and changing the scope do not touch the calls. -/
theorem honest_modify {f : State → State} (hf : ∀ s, (f s).calls = s.calls) :
    Honest env (modify f : Rendering Unit) := by
  intro s hs
  have hcalls : Clean env (f s).calls := by
    rw [hf]
    exact hs
  exact .clean hcalls

theorem honest_scope : Honest env scope := fun _ hs => .clean hs

theorem honest_changeScope (f : Scope → Scope) : Honest env (changeScope f) :=
  honest_modify fun _ => rfl

theorem honest_writeLines (cs : List Char) : Honest env (writeLines cs) :=
  honest_modify fun _ => rfl

theorem honest_writeValue (escaped : Bool) (value : Json) :
    Honest env (writeValue env escaped value) := honest_modify fun _ => rfl

/-- What is noted of a failure on the way out does not change its cause. -/
theorem Honest.rethrow {step : Rendering α} (h : Honest env step) {f : Failure → Failure}
    (hf : ∀ failure, (f failure).cause = failure.cause) :
    Honest env (tryCatch step fun failure => throw (f failure)) := by
  intro s hs
  have hstep := h s hs
  rw [run_rethrow]
  generalize step.run.run s = ran at hstep ⊢
  obtain ⟨failure | a, s'⟩ := ran
  · exact hstep.of_cause_eq (hf failure)
  · exact .clean hstep.clean_of_ok

/-- A failure gets its position, and stays the same failure for its call. -/
theorem Honest.placed {step : Rendering α} (h : Honest env step) (position : Text.Position) :
    Honest env (placed position step) := h.rethrow fun _ => rfl

theorem Honest.inTemplate {step : Rendering α} (h : Honest env step) (name : Option String) :
    Honest env (inTemplate name step) := h.rethrow fun _ => rfl

theorem Honest.inBlock {step : Rendering Unit} (h : Honest env step) (block : Block) :
    Honest env (inBlock block step) :=
  (honest_changeScope _).bind fun _ => h.bind fun _ => honest_changeScope _

/-- This is where calls come from: a failing one ends the step. -/
theorem honest_callSite {name : String} {run : HelperFunction} (h : env.Has (.site name run))
    (params : List Json) : Honest env (callSite name run params) := by
  intro s hs
  have hcall : (s.nextCall name run params).IsOf env := ⟨run, _, h, rfl⟩
  rw [run_callSite]
  cases hanswer : (s.nextCall name run params).answer with
  | ok value => exact .clean (List.forall_mem_cons.2 ⟨⟨hcall, value, hanswer⟩, hs⟩)
  | error causes => exact .failed hcall hanswer rfl hs

/-! ## Operands -/

/-- Whatever helper a call finds is one of the environment's. -/
theorem has_of_helperOrMissing? {name : String} {block : Bool} {helper : Helper}
    (h : env.helperOrMissing? name block = some helper) : env.Has helper := by
  unfold Environment.helperOrMissing? at h
  rw [Option.orElse_eq_orElse, Option.orElse_eq_or, Option.or_eq_some_iff] at h
  obtain h | ⟨-, h⟩ := h
  · exact ⟨name, h⟩
  · exact ⟨Environment.missingHelper block, h⟩

/-- A helper of the site goes through the one place where such helpers are run. -/
theorem honest_callForValue {helper : Helper} (h : env.Has helper) (args : Arguments) :
    Honest env (callForValue env helper args) := by
  cases helper with
  | site name run => exact honest_callSite h _
  | builtin helper =>
    cases helper with
    | value helper => exact honest_ofExcept _
    | block helper => exact (honest_ofExcept _).bind fun _ => honest_pure _

mutual

/-- Operands, and the heads and arguments of calls in them, by induction on their structure. -/
theorem honest_evaluate (x : Template.Operand Json) : Honest env (evaluate env x) := by
  match x with
  | .name text => exact honest_pure _
  | .path reference =>
    exact (honest_scope.bind fun _ => honest_ofExcept _).bind fun _ => honest_pure _
  | .literal value => exact honest_pure _
  | .call head args =>
    -- the same follows whether the head is a name or has to be computed
    have hcall (name : String) : Honest env (do
        let params ← evaluate.positional env args
        let hash ← evaluate.keyed env args
        match env.helperOrMissing? name false with
        | some helper => return ⟨none, .computed (← callForValue env helper ⟨params, hash⟩)⟩
        | none => stop (.helperUnknown head.shown) : Rendering Argument) := by
      refine (honest_positional args).bind fun params => (honest_keyed args).bind fun hash => ?_
      cases hhelper : env.helperOrMissing? name false with
      | some helper =>
        have hvalue := honest_callForValue (has_of_helperOrMissing? hhelper) ⟨params, hash⟩
        exact hvalue.bind fun _ => honest_pure _
      | none => exact honest_stop _
    rw [evaluate]
    cases head.asName? with
    | some name => exact (honest_pure name).bind hcall
    | none => exact (honest_evaluate head).bind fun _ => (honest_pure _).bind hcall

theorem honest_positional (args : List (Option String × Template.Operand Json)) :
    Honest env (evaluate.positional env args) := by
  match args with
  | [] => exact honest_pure []
  | (some _, _) :: rest => exact honest_positional rest
  | (none, x) :: rest =>
    exact (honest_evaluate x).bind fun _ => (honest_positional rest).bind fun _ => honest_pure _

theorem honest_keyed (args : List (Option String × Template.Operand Json)) :
    Honest env (evaluate.keyed env args) := by
  match args with
  | [] => exact honest_pure []
  | (none, _) :: rest => exact honest_keyed rest
  | (some key, x) :: rest =>
    rw [evaluate.keyed]
    -- an argument whose key comes again is not evaluated at all
    split
    · exact honest_keyed rest
    · exact (honest_evaluate x).bind fun _ => (honest_keyed rest).bind fun _ => honest_pure _

end

theorem honest_arguments (args : Template.Arguments Json) : Honest env (arguments env args) :=
  (honest_positional args).bind fun _ => (honest_keyed args).bind fun _ => honest_pure _

theorem honest_headName (head : Template.Operand Json) : Honest env (headName env head) := by
  unfold headName
  cases head.asName? with
  | some name => exact honest_pure name
  | none => exact (honest_evaluate head).bind fun _ => honest_pure _

/-! ## Decorators -/

theorem honest_runDecorator (call : Template.Call Json) (body : Option Template) :
    Honest env (runDecorator env call body) := by
  refine (honest_headName call.head).bind fun name =>
    (honest_arguments call.args).bind fun args => ?_
  -- an inline partial with a name and a body is defined, and everything else is an error
  split
  · split
    · exact honest_stop _
    · split
      · exact honest_stop _
      · exact honest_stop _
      · exact honest_changeScope _
  · exact honest_stop _

theorem honest_runDecorators (body : Template) : Honest env (runDecorators env body) := by
  induction body with
  | nil => exact honest_pure ()
  | cons element rest ih =>
    cases element with
    | decorator position call body =>
      exact ((honest_runDecorator call body).placed position).bind fun _ => ih
    | _ => exact ih

/-! ## Elements -/

section Templates

variable {render : Renderer} (hrender : ∀ name template, Honest env (render name template))

include hrender

/-- From here on `render` stands for rendering what is nested, which is honest by hypothesis. -/
theorem honest_renderBody (body : Option Template) : Honest env (renderBody render body) := by
  cases body with
  | some body => exact hrender none body
  | none => exact honest_pure ()

theorem honest_renderOtherwise (raw : Option String) (inverse : Option Template) :
    Honest env (renderOtherwise env render raw inverse) := by
  cases inverse with
  | some inverse => exact hrender none inverse
  | none =>
    unfold renderOtherwise
    simp only
    split
    · exact honest_stop _
    · exact honest_pure ()

theorem honest_renderItems (collection : Option DataPath)
    (blockParam : Option Template.BlockParam) (body : Template) (first : Bool)
    (items : List Item) :
    Honest env (renderItems render collection blockParam body first items) := by
  induction items generalizing first with
  | nil => exact honest_pure ()
  | cons item rest ih => exact ((hrender none body).inBlock _).bind fun _ => ih false

theorem honest_renderEach (x : Argument) (blockParam : Option Template.BlockParam)
    (body : Template) (inverse : Option Template) :
    Honest env (renderEach env render x blockParam body inverse) := by
  unfold renderEach
  split
  · split
    · exact honest_renderOtherwise hrender x.raw inverse
    · exact honest_renderItems hrender _ blockParam body true _
  · exact honest_renderOtherwise hrender x.raw inverse

theorem honest_renderWithin (x : Argument) (blockParam : Option Template.BlockParam)
    (body : Template) (inverse : Option Template) :
    Honest env (renderWithin env render x blockParam body inverse) := by
  unfold renderWithin
  split
  · exact (hrender none body).inBlock _
  · exact honest_renderOtherwise hrender x.raw inverse

theorem honest_runBlockHelper (helper : BlockHelper) (args : Arguments)
    (blockParam : Option Template.BlockParam) (body : Template) (inverse : Option Template) :
    Honest env (runBlockHelper env render helper args blockParam body inverse) := by
  unfold runBlockHelper
  split
  · exact honest_renderBody hrender _
  · exact honest_renderBody hrender _
  · exact honest_renderEach hrender _ blockParam body inverse
  · exact honest_renderWithin hrender _ blockParam body inverse
  · exact hrender none body
  · exact honest_ofExcept _

theorem honest_runHelper {helper : Helper} (h : env.Has helper) (args : Arguments)
    (escaped : Bool) (block : Option Body) :
    Honest env (runHelper env render helper args escaped block) := by
  cases helper with
  | site name run => exact (honest_callSite h _).bind (honest_writeValue escaped)
  | builtin helper =>
    cases helper with
    | value helper => exact (honest_ofExcept _).bind (honest_writeValue escaped)
    | block helper =>
      cases block with
      | some block => exact honest_runBlockHelper hrender helper args _ _ _
      | none => exact honest_ofExcept _

theorem honest_renderCall (call : Template.Call Json) (escaped : Bool) (block : Option Body) :
    Honest env (renderCall env render call escaped block) := by
  refine (honest_headName call.head).bind fun name =>
    (honest_arguments call.args).bind fun args => ?_
  cases hhelper : env.helperOrMissing? name block.isSome with
  | some helper =>
    exact honest_runHelper hrender (has_of_helperOrMissing? hhelper) args escaped block
  | none => exact honest_stop _

theorem honest_renderNamed (call : Template.Call Json) (escaped : Bool) :
    Honest env (renderNamed env render call escaped) := by
  refine (honest_headName call.head).bind fun name => ?_
  split
  · exact honest_renderCall hrender call escaped none
  · refine (honest_evaluate call.head).bind fun x => ?_
    -- a missing value may still be made up for by a helper
    split
    · split
      · exact honest_stop _
      · cases hhelper : env.helpers (Environment.missingHelper false) with
        | some helper => exact honest_runHelper hrender ⟨_, hhelper⟩ _ escaped none
        | none => exact honest_pure ()
    · exact honest_writeLines _

theorem honest_renderPartial (call : Template.Call Json) (indent : Option (List Char))
    (body : Option Template) : Honest env (renderPartial env render call indent body) := by
  refine (honest_headName call.head).bind fun name =>
    (honest_arguments call.args).bind fun args => (honest_runDecorators _).bind fun _ =>
      honest_scope.bind fun outer => ?_
  -- nothing is called between the arguments and the template of the partial
  split
  · exact honest_stop _
  · split
    · exact honest_pure ()
    · exact (honest_ofExcept _).bind fun blocks => (honest_changeScope _).bind fun _ =>
        (hrender _ _).bind fun _ => honest_changeScope _

/-- One case for each kind of element. -/
theorem honest_renderElement (element : Template.Element) :
    Honest env (renderElement env render element) := by
  match element with
  | .text content => exact honest_writeLines content
  | .comment => exact honest_pure ()
  | .value position call escaped =>
    refine Honest.placed ?_ position
    -- a name without arguments may also be a value
    split
    · exact honest_renderNamed hrender call escaped
    · exact honest_renderCall hrender call escaped none
  | .block position call body inverse =>
    exact (honest_renderCall hrender call true _).placed position
  | .decorator position call body => exact (honest_runDecorator call body).placed position
  | .include position call indent body =>
    exact (honest_renderPartial hrender call indent body).placed position

theorem honest_renderElements (template : Template) :
    Honest env (renderElements env render template) := by
  induction template with
  | nil => exact honest_pure ()
  | cons element rest ih => exact (honest_renderElement hrender element).bind fun _ => ih

end Templates

/-- The templates in a template are rendered less deep, and so by steps that are honest. -/
theorem honest_renderTemplate (depth : Nat) (name : Option String) (template : Template) :
    Honest env (renderTemplate env depth name template) := by
  induction depth generalizing name template with
  | zero => exact honest_stop _
  | succ depth ih =>
    have helements := honest_renderElements ih template
    exact ((honest_changeScope _).bind fun _ => helements).inTemplate name

end Steps

/-! ## Whole renderings -/

/-- The calls of a rendering are accounted for by what it comes to. -/
theorem accounted_renderDocument (env : Environment) (document : Template) :
    Accounted env (renderDocument env document).1 (renderDocument env document).2 := by
  have hnothing : Clean env ({} : State).calls := fun call hcall => by cases hcall
  have h := honest_renderTemplate nestingLimit none document {} hnothing
  unfold renderDocument
  generalize (renderTemplate env nestingLimit none document).run.run {} = ran at h ⊢
  obtain ⟨failure | a, s⟩ := ran
  · exact h.of_cause_eq rfl
  · exact .clean h.clean_of_ok

end Stencil.Render
