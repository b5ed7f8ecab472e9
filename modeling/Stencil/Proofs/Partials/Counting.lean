import Stencil.Partials.Registry

/-!
# Answers and work, told apart

An action that counts has an answer and a cost. Neither depends on what was counted before (`Additive`),
for the actions of a provider and for all that is made of them: a sequence answers as the sequence of
the answers does, and costs what its parts cost, up to the one that fails.

* **`outcome_bind`**, **`outcome_mapM`**: the answers compose without the counts.
* **`cost_bind`**, **`cost_mapM_cons`**: the costs add up.
-/

namespace Stencil

namespace Work

@[simp] theorem zero_plus (work : Work) : Work.plus {} work = work := by
  simp [plus]

theorem plus_assoc (a b c : Work) : (a.plus b).plus c = a.plus (b.plus c) := by
  simp [plus, Nat.add_assoc]

theorem plus_right_comm (a b c : Work) : (a.plus b).plus c = (a.plus c).plus b := by
  simp [plus, Nat.add_right_comm]

end Work

namespace Counted

variable {α β : Type}

def outcome (action : Counted α) : Except Error α := (action.run.run {}).run.1

def cost (action : Counted α) : Work := (action.run.run {}).run.2

/-- What was counted before takes no part in the answer, and the work comes on top of it. -/
def Additive (action : Counted α) : Prop :=
  ∀ before : Work, (action.run.run before).run = (outcome action, before.plus (cost action))

/-- A tool adds its own work to what was done before it. -/
theorem additive_answer (answer : Except Error α) (work : Work) :
    Additive (Counted.answer answer work) := by
  intro before
  show (answer, before.plus work) = (answer, before.plus (Work.plus {} work))
  rw [Work.zero_plus]

@[simp] theorem outcome_answer (answer : Except Error α) (work : Work) :
    outcome (Counted.answer answer work) = answer := rfl

@[simp] theorem cost_answer (answer : Except Error α) (work : Work) :
    cost (Counted.answer answer work) = work := Work.zero_plus work

/-- A value at hand costs nothing. -/
theorem additive_pure (a : α) : Additive (pure a) := fun _ => rfl

theorem additive_throw (e : Error) : Additive (throw e : Counted α) := fun _ => rfl

/-- An action goes on behind another from the work that this one left, unless this one failed. -/
theorem run_bind (x : Counted α) (f : α → Counted β) (before : Work) :
    ((x >>= f).run.run before).run =
      match (x.run.run before).run with
      | (.ok a, after) => ((f a).run.run after).run
      | (.error e, after) => (.error e, after) := by
  change ExceptT.bindCont f (x.run.run before).run.1 (x.run.run before).run.2 = _
  rcases (x.run.run before).run with ⟨_ | a, after⟩ <;> rfl

/-- The answers of a sequence, without the counts. -/
theorem outcome_bind {x : Counted α} {f : α → Counted β} (hf : ∀ a, Additive (f a)) :
    outcome (x >>= f) = (outcome x).bind fun a => outcome (f a) := by
  unfold outcome
  rw [run_bind]
  rcases (x.run.run {}).run with ⟨e | a, after⟩
  · rfl
  · have hanswer := congrArg Prod.fst (hf a after)
    exact hanswer

/-- In sequence, the second computation counts only if the first has answered. -/
theorem cost_bind {x : Counted α} {f : α → Counted β} (hf : ∀ a, Additive (f a)) :
    cost (x >>= f) =
      match outcome x with
      | .error _ => cost x
      | .ok a => (cost x).plus (cost (f a)) := by
  unfold cost outcome
  rw [run_bind]
  rcases (x.run.run {}).run with ⟨e | a, after⟩
  · rfl
  · have hwork := congrArg Prod.snd (hf a after)
    exact hwork

/-- Two computations that add their work, one after the other, add the work of both. -/
theorem Additive.bind {x : Counted α} {f : α → Counted β} (hx : Additive x)
    (hf : ∀ a, Additive (f a)) : Additive (x >>= f) := by
  intro before
  rw [run_bind, hx before, outcome_bind hf, cost_bind hf]
  cases outcome x with
  | error e => rfl
  | ok a =>
    simp only [Except.bind]
    rw [hf a, Work.plus_assoc]

/-! What is done with an answer takes no work. -/

theorem Additive.map {x : Counted α} (hx : Additive x) (g : α → β) :
    Additive (x >>= fun a => pure (g a)) :=
  hx.bind fun a => additive_pure (g a)

theorem outcome_map (x : Counted α) (g : α → β) :
    outcome (x >>= fun a => pure (g a)) = (outcome x).map g := by
  rw [outcome_bind fun a => additive_pure (g a)]
  cases outcome x <;> rfl

theorem cost_map (x : Counted α) (g : α → β) : cost (x >>= fun a => pure (g a)) = cost x := by
  rw [cost_bind fun a => additive_pure (g a)]
  cases outcome x <;> rfl

/-- Going through a list with an additive action is additive, by induction on the list. -/
theorem Additive.mapM {f : α → Counted β} (hf : ∀ a, Additive (f a)) (xs : List α) :
    Additive (xs.mapM f) := by
  induction xs with
  | nil => exact additive_pure []
  | cons x rest ih =>
    rw [List.mapM_cons]
    exact (hf x).bind fun y => ih.map (y :: ·)

/-- Answers of the same action for every item, up to the first that fails. -/
theorem outcome_mapM {f : α → Counted β} (hf : ∀ a, Additive (f a)) (xs : List α) :
    outcome (xs.mapM f) = xs.mapM fun x => outcome (f x) := by
  induction xs with
  | nil => rfl
  | cons x rest ih =>
    have hrest (y : β) : Additive (rest.mapM f >>= fun ys => pure (y :: ys)) :=
      (Additive.mapM hf rest).map (y :: ·)
    rw [List.mapM_cons, List.mapM_cons, outcome_bind hrest]
    refine congrArg _ (funext fun y => ?_)
    rw [outcome_map, ih]
    cases rest.mapM fun x => outcome (f x) <;> rfl

/-- After the first item the others follow, unless it failed. -/
theorem cost_mapM_cons {f : α → Counted β} (hf : ∀ a, Additive (f a)) (x : α) (rest : List α) :
    cost ((x :: rest).mapM f) =
      match outcome (f x) with
      | .error _ => cost (f x)
      | .ok _ => (cost (f x)).plus (cost (rest.mapM f)) := by
  have hrest (y : β) : Additive (rest.mapM f >>= fun ys => pure (y :: ys)) :=
    (Additive.mapM hf rest).map (y :: ·)
  rw [List.mapM_cons, cost_bind hrest]
  simp only [cost_map]

end Counted

end Stencil
