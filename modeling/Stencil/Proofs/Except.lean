import Mathlib.Data.List.Forall2

/-!
# Steps that may fail

Readers of options, checks and loads are sequences of steps in `Except`. Proofs take them apart with the
two inversion lemmas `bind_eq_ok_iff` and `bind_eq_error`, and going through a list with
`mapM_eq_ok_iff`, `exists_mem_of_mapM_eq_error` and `mapM_eq_error_of_first`.
-/

namespace Stencil

variable {ε α β : Type}

/-- Two steps end well just if the first does and the second does with its result. -/
theorem bind_eq_ok_iff {first : Except ε α} {next : α → Except ε β} {b : β} :
    first >>= next = .ok b ↔ ∃ a, first = .ok a ∧ next a = .ok b := by
  cases first <;> simp [bind, Except.bind]

/-- The first of two steps fails, or the second does. -/
theorem bind_eq_error {first : Except ε α} {next : α → Except ε β} {e : ε}
    (h : (first >>= next) = .error e) :
    first = .error e ∨ ∃ a, first = .ok a ∧ next a = .error e := by
  cases first with
  | error e' =>
    cases h
    exact .inl rfl
  | ok a => exact .inr ⟨a, rfl, h⟩

theorem pure_eq_ok_iff {a b : α} : (pure a : Except ε α) = .ok b ↔ a = b := by
  simp [pure, Except.pure]

/-- What is made of a result does not matter for whether there is one. -/
theorem exists_bind_pure_iff {first : Except ε α} {make : α → β} :
    (∃ b, (first >>= fun a => pure (make a)) = .ok b) ↔ ∃ a, first = .ok a := by
  simp only [bind_eq_ok_iff, pure_eq_ok_iff]
  exact ⟨fun ⟨_, a, ha, _⟩ => ⟨a, ha⟩, fun ⟨a, ha⟩ => ⟨_, a, ha, rfl⟩⟩

/-- A successful answer compared by its value alone, for which equality is decidable. -/
theorem toOption_eq_some_iff {answer : Except ε α} {a : α} :
    answer.toOption = some a ↔ answer = .ok a := by
  cases answer <;> simp [Except.toOption]

theorem toOption_mapError {ε' : Type} (f : ε → ε') (answer : Except ε α) :
    (answer.mapError f).toOption = answer.toOption := by
  cases answer <;> rfl

/-! ## Lists -/

/-- Mapping with errors succeeds exactly if every item does, and keeps the order. -/
theorem mapM_eq_ok_iff (f : α → Except ε β) (xs : List α) (ys : List β) :
    xs.mapM f = .ok ys ↔ List.Forall₂ (fun x y => f x = .ok y) xs ys := by
  induction xs generalizing ys with
  | nil =>
    rw [List.forall₂_nil_left_iff, List.mapM_nil, pure_eq_ok_iff]
    exact eq_comm
  | cons x rest ih =>
    rw [List.mapM_cons, bind_eq_ok_iff, List.forall₂_cons_left_iff]
    refine exists_congr fun y => ?_
    simp only [bind_eq_ok_iff, pure_eq_ok_iff, ih]
    constructor
    · rintro ⟨hy, tail, htail, rfl⟩
      exact ⟨tail, hy, htail, rfl⟩
    · rintro ⟨tail, hy, htail, rfl⟩
      exact ⟨hy, tail, htail, rfl⟩

/-- Mapping with errors fails only with the error of an item. -/
theorem exists_mem_of_mapM_eq_error {f : α → Except ε β} {xs : List α} {e : ε}
    (h : xs.mapM f = .error e) : ∃ x ∈ xs, f x = .error e := by
  induction xs with
  | nil => cases h
  | cons x rest ih =>
    rw [List.mapM_cons] at h
    obtain hx | ⟨y, -, h⟩ := bind_eq_error h
    · exact ⟨x, List.mem_cons_self, hx⟩
    · obtain hrest | ⟨ys, -, h⟩ := bind_eq_error h
      · obtain ⟨z, hz, hfails⟩ := ih hrest
        exact ⟨z, List.mem_cons_of_mem x hz, hfails⟩
      · -- putting the results together cannot fail
        cases h

/-- Mapping with errors ends at the first item that fails. -/
theorem mapM_eq_error_of_first {f : α → Except ε β} {before after : List α} {x : α} {e : ε}
    (hbefore : ∀ y ∈ before, ∃ z, f y = .ok z) (hx : f x = .error e) :
    (before ++ x :: after).mapM f = .error e := by
  induction before with
  | nil =>
    rw [List.nil_append, List.mapM_cons, hx]
    rfl
  | cons y before ih =>
    obtain ⟨⟨z, hz⟩, hbefore⟩ := List.forall_mem_cons.1 hbefore
    rw [List.cons_append, List.mapM_cons, hz, ih hbefore]
    rfl

/-- Mapping with errors and then changing the results is changing them one by one. -/
theorem mapM_map_result {γ : Type} (f : α → Except ε β) (g : β → γ) (xs : List α) :
    (xs.mapM fun x => (f x).map g) = (xs.mapM f).map (List.map g) := by
  induction xs with
  | nil => rfl
  | cons x rest ih =>
    rw [List.mapM_cons, List.mapM_cons, ih]
    cases f x with
    | error e => rfl
    | ok y => cases rest.mapM f <;> rfl

end Stencil
