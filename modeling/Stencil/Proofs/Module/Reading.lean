import Stencil.Module.Text
import Stencil.Path.Storage
import Stencil.Proofs.Options.Literal

/-!
# Modules read back

The text of a module is taken apart into its lines, and each line into the literals between the
fixed pieces of a statement. Every part stands on one line and every literal ends where its reader
ends, so no name, no source and no name of a helper is taken for anything else, whatever characters
it has.

* **`read?_text`**: the statements of a module and its target are read off its text.
* **`decode_text`**: so the text determines what it was made of.
-/

namespace Stencil.Module

open Json (Reader)

/-! ## Reading a module -/

/-- The text without a fixed piece at its start. -/
def expect (piece : String) (cs : List Char) : Option (List Char) := Path.dropFront? piece.toList cs

/-- A registration as a module states it: the name that is tested before, if one is, and the
partial. -/
structure Statement where
  tested : Option String
  name : String
  template : CheckedTemplate

/-- The registrations of a module in order, and the template that it exports. -/
structure Listing where
  statements : List Statement
  target : CheckedTemplate

def readCall : Reader CheckedTemplate := fun cs => do
  let cs ← expect "Handlebars.compile(" cs
  let (source, cs) ← Json.readString cs
  let cs ← expect ", " cs
  let (value, cs) ← Json.readValue Json.maxDepth cs
  let options ← (CompileOptions.ofShape (Shape.ofJson value)).toOption
  let cs ← expect ")" cs
  return (⟨source, options⟩, cs)

def readRegistration : Reader (String × CheckedTemplate) := fun cs => do
  let cs ← expect "Handlebars.registerPartial(" cs
  let (name, cs) ← Json.readString cs
  let cs ← expect ", " cs
  let (template, cs) ← readCall cs
  let cs ← expect ");" cs
  return ((name, template), cs)

/-- A line that registers a partial, guarded or not. -/
def readStatement (line : List Char) : Option Statement :=
  match expect "if (!Handlebars.partials[" line with
  | some cs => do
    let (tested, cs) ← Json.readString cs
    let cs ← expect "]) \x7b " cs
    let ((name, template), cs) ← readRegistration cs
    if cs = " \x7d".toList then some ⟨tested, name, template⟩ else none
  | none => do
    let ((name, template), cs) ← readRegistration line
    if cs = [] then some ⟨none, name, template⟩ else none

def readExport (line : List Char) : Option CheckedTemplate := do
  let cs ← expect "export default " line
  let (target, cs) ← readCall cs
  if cs = ";".toList then some target else none

/-- The lines after the import: registrations, the export, and nothing more. -/
def readBody : List (List Char) → Option Listing
  | [] => none
  | [line, []] => (readExport line).map fun target => ⟨[], target⟩
  | line :: rest => do
    let statement ← readStatement line
    let listing ← readBody rest
    return ⟨statement :: listing.statements, listing.target⟩

def read? (text : String) : Option Listing :=
  match text.toList.splitOn '\n' with
  | first :: [] :: rest => if first = runtimeImport.toList then readBody rest else none
  | _ => none

/-! ## What is written -/

def statement (guarded : Bool) (name : String) (t : CheckedTemplate) : Statement :=
  ⟨if guarded then some name else none, name, t⟩

def listing (m : Module) : Listing :=
  ⟨m.partials.entries.map fun (name, t) => statement m.guarded name t, m.target⟩

@[simp] theorem expect_append (piece : String) (rest : List Char) :
    expect piece (piece.toList ++ rest) = some rest :=
  Path.dropFront?_eq_some.2 rfl

/-! ## Statements read back -/

/-- A call is read back to its template, whatever follows; the literals end by themselves. -/
theorem readCall_compileCall (t : CheckedTemplate) (rest : List Char) :
    readCall ((compileCall t).toList ++ rest) = some (t, rest) := by
  have hvalue : ∀ cs, Json.readValue Json.maxDepth (t.options.literal.toList ++ cs) =
      some (t.options.toJson, cs) := (CompileOptions.reads_literal 125 t.options).reads
  unfold compileCall CheckedTemplate.sourceLiteral CheckedTemplate.optionsLiteral readCall
  simp only [String.toList_append, List.append_assoc, expect_append, Json.readString_literal,
    hvalue, Option.bind_eq_bind, Option.bind_some, CompileOptions.ofShape_toJson]
  rfl

/-- An unguarded registration is read back to the name and the template. -/
theorem readRegistration_registration (name : String) (t : CheckedTemplate) (rest : List Char) :
    readRegistration ((registration false name t).toList ++ rest) = some ((name, t), rest) := by
  unfold registration readRegistration
  simp only [Bool.false_eq_true, if_false, String.toList_append, List.append_assoc, expect_append,
    Json.readString_literal, readCall_compileCall, Option.bind_eq_bind, Option.bind_some]
  rfl

/-- A guarded registration is an unguarded one behind a test of the name. -/
theorem toList_registration_guarded (name : String) (t : CheckedTemplate) :
    (registration true name t).toList =
      "if (!Handlebars.partials[".toList ++ ((Json.literal name).toList ++
        ("]) \x7b ".toList ++ ((registration false name t).toList ++ " \x7d".toList))) := by
  unfold registration
  simp only [Bool.false_eq_true, if_true, if_false, String.toList_append, List.append_assoc]

/-- An unguarded registration does not start as a guarded one does. -/
theorem expect_guard_registration (name : String) (t : CheckedTemplate) :
    expect "if (!Handlebars.partials[" (registration false name t).toList = none := by
  unfold registration
  simp only [Bool.false_eq_true, if_false, String.toList_append, List.append_assoc]
  rfl

/-- A registration says which name is tested and which partial is registered. -/
theorem readStatement_registration (guarded : Bool) (name : String) (t : CheckedTemplate) :
    readStatement (registration guarded name t).toList = some (statement guarded name t) := by
  unfold readStatement
  -- the first piece of the line decides which of the two forms it has
  cases guarded with
  | true =>
    rw [toList_registration_guarded]
    simp only [expect_append, Json.readString_literal, readRegistration_registration,
      Option.bind_eq_bind, Option.bind_some, if_true]
    rfl
  | false =>
    have hread := readRegistration_registration name t []
    rw [List.append_nil] at hread
    simp only [expect_guard_registration, hread, Option.bind_eq_bind, Option.bind_some, if_true]
    rfl

theorem readExport_compileCall (t : CheckedTemplate) :
    readExport ("export default " ++ compileCall t ++ ";").toList = some t := by
  unfold readExport
  simp only [String.toList_append, List.append_assoc, expect_append, readCall_compileCall,
    Option.bind_eq_bind, Option.bind_some, if_true]

/-! ## Lines -/

theorem newline_not_mem_compileCall (t : CheckedTemplate) : '\n' ∉ (compileCall t).toList := by
  have hsource := Json.newline_not_mem_literal t.source
  have hoptions := CompileOptions.newline_not_mem_literal t.options
  unfold compileCall CheckedTemplate.sourceLiteral CheckedTemplate.optionsLiteral
  simp only [String.toList_append, List.mem_append, not_or]
  exact ⟨⟨⟨⟨by decide, hsource⟩, by decide⟩, hoptions⟩, by decide⟩

/-- A statement stands on one line. -/
theorem newline_not_mem_registration (guarded : Bool) (name : String) (t : CheckedTemplate) :
    '\n' ∉ (registration guarded name t).toList := by
  have hname := Json.newline_not_mem_literal name
  have hcall := newline_not_mem_compileCall t
  -- the guarded statement has the plain one in it
  have hplain : '\n' ∉ (registration false name t).toList := by
    unfold registration
    simp only [Bool.false_eq_true, if_false, String.toList_append, List.mem_append, not_or]
    exact ⟨⟨⟨⟨by decide, hname⟩, by decide⟩, hcall⟩, by decide⟩
  cases guarded with
  | false => exact hplain
  | true =>
    rw [toList_registration_guarded]
    simp only [List.mem_append, not_or]
    exact ⟨by decide, hname, by decide, hplain, by decide⟩

/-- No line of a module holds a line break, so the text can be cut into its lines again. -/
theorem newline_not_mem_lines (m : Module) : ∀ line ∈ m.lines, '\n' ∉ line.toList := by
  intro line hline
  unfold lines at hline
  rcases List.mem_append.1 hline with hline | hline
  · rcases List.mem_append.1 hline with hline | hline
    · have hfixed : ∀ line ∈ [runtimeImport, ""], '\n' ∉ line.toList := by decide
      exact hfixed line hline
    · obtain ⟨entry, -, rfl⟩ := List.mem_map.1 hline
      exact newline_not_mem_registration m.guarded entry.1 entry.2
  · rw [List.mem_singleton.1 hline]
    simp only [String.toList_append, List.mem_append, not_or]
    exact ⟨⟨by decide, newline_not_mem_compileCall m.target⟩, by decide⟩

/-- Lines that are ended with a newline each are what stands between the newlines. -/
theorem splitOn_flatMap_newline {lines : List (List Char)} (h : ∀ line ∈ lines, '\n' ∉ line) :
    (lines.flatMap (· ++ ['\n'])).splitOn '\n' = lines ++ [[]] := by
  -- ending every line is putting line breaks between them and an empty piece at the end
  have hjoined : lines.flatMap (· ++ ['\n']) = ['\n'].intercalate (lines ++ [[]]) := by
    clear h
    induction lines with
    | nil => rfl
    | cons line rest ih =>
      rw [List.flatMap_cons, ih, List.cons_append, List.intercalate_cons_of_ne_nil (by simp)]
  rw [hjoined]
  refine List.splitOn_intercalate '\n' (fun line hline => ?_) (by simp)
  rcases List.mem_append.1 hline with hline | hline
  · exact h line hline
  · rw [List.mem_singleton.1 hline]
    exact List.not_mem_nil

theorem toList_text (m : Module) :
    m.text.toList = (m.lines.map String.toList).flatMap (· ++ ['\n']) := by
  unfold text
  rw [String.toList_join, List.flatMap_map, List.flatMap_map]
  refine List.flatMap_congr fun line _ => ?_
  exact String.toList_append

/-- The text stands on the lines of the module, and the last one is ended. -/
theorem splitOn_text (m : Module) :
    m.text.toList.splitOn '\n' = m.lines.map String.toList ++ [[]] := by
  rw [toList_text]
  refine splitOn_flatMap_newline fun line hline => ?_
  obtain ⟨text, htext, rfl⟩ := List.mem_map.1 hline
  exact m.newline_not_mem_lines text htext

theorem length_lines (m : Module) : m.lines.length = m.partials.size + 3 := by
  unfold lines PartialList.size
  simp only [List.length_append, List.length_map, List.length_cons, List.length_nil]
  omega

/-! ## Modules read back -/

/-- A line that is not the last of a module is a registration. -/
theorem readBody_cons {line : List Char} {rest : List (List Char)} (h : rest ≠ [[]]) :
    readBody (line :: rest) = (readStatement line).bind fun statement =>
      (readBody rest).map fun listing => ⟨statement :: listing.statements, listing.target⟩ := by
  rw [readBody]
  · cases readStatement line with
    | none => rfl
    | some statement => cases readBody rest <;> rfl
  · intro hrest
    exact h hrest

/-- The registrations are read one by one; the export and the empty piece behind it end the body. -/
theorem readBody_lines (guarded : Bool) (entries : List (String × CheckedTemplate))
    (target : CheckedTemplate) :
    readBody (entries.map (fun (name, t) => (registration guarded name t).toList) ++
        [("export default " ++ compileCall target ++ ";").toList, []]) =
      some ⟨entries.map fun (name, t) => statement guarded name t, target⟩ := by
  induction entries with
  | nil =>
    show (readExport _).map _ = _
    rw [readExport_compileCall]
    rfl
  | cons entry rest ih =>
    -- the export still follows, so this line is not taken for the last one
    have hmore : rest.map (fun (name, t) => (registration guarded name t).toList) ++
        [("export default " ++ compileCall target ++ ";").toList, []] ≠ [[]] := by
      intro h
      have hlength := congrArg List.length h
      simp only [List.length_append, List.length_cons, List.length_nil] at hlength
      omega
    rw [List.map_cons, List.cons_append, readBody_cons hmore, readStatement_registration, ih]
    rfl

/-- The text of a module says what the module does. -/
theorem read?_text (m : Module) : read? m.text = some m.listing := by
  have hbody := readBody_lines m.guarded m.partials.entries m.target
  unfold read?
  rw [splitOn_text]
  unfold lines
  simp only [List.map_append, List.map_cons, List.map_nil, List.map_map, List.append_assoc,
    List.cons_append, List.nil_append]
  exact (if_pos rfl).trans hbody

/-- What a module text was made of. Guards show only where something is registered. -/
def decode (text : String) : Option (CheckedTemplate × PartialList × Option Bool) :=
  (read? text).map fun listing =>
    (listing.target, ⟨listing.statements.map fun s => (s.name, s.template)⟩,
      listing.statements.head?.map fun s => s.tested.isSome)

/-- The listing of a module has its partials in order. -/
theorem map_listing (m : Module) :
    m.listing.statements.map (fun s => (s.name, s.template)) = m.partials.entries := by
  unfold listing
  rw [List.map_map]
  exact List.map_id' m.partials.entries

/-- Decoding the text of a module gives its target and partials, and whether it is guarded if there
is a registration to tell. -/
theorem decode_eq (m : Module) :
    decode m.text =
      some (m.target, m.partials, if m.partials.isEmpty then none else some m.guarded) := by
  unfold decode
  rw [read?_text, Option.map_some, map_listing]
  obtain ⟨target, ⟨entries⟩, guarded⟩ := m
  cases entries with
  | nil => rfl
  | cons entry rest => cases guarded <;> rfl

/-- **Modules read back.** The text of a module can be decoded into the target, the list of partials
in order and, if it has any, whether they are guarded; so modules with the same text agree in these.
The text has a line for each partial and three more. Each line that registers a partial tests the
name that it registers if the module is guarded, and none otherwise. -/
theorem decode_text (m : Module) :
    decode m.text =
      some (m.target, m.partials, if m.partials.isEmpty then none else some m.guarded) ∧
    (∀ other : Module, other.text = m.text →
      other.target = m.target ∧ other.partials = m.partials ∧
        (m.partials.entries ≠ [] → other.guarded = m.guarded)) ∧
    (∃ lines : List (List Char), m.text.toList = lines.flatMap (· ++ ['\n']) ∧
      (∀ line ∈ lines, '\n' ∉ line) ∧ lines.length = m.partials.size + 3) ∧
    ∃ statements, read? m.text = some ⟨statements, m.target⟩ ∧
      statements.map (fun s => (s.name, s.template)) = m.partials.entries ∧
      ∀ s ∈ statements, s.tested = if m.guarded then some s.name else none := by
  -- modules with the same text decode alike; then the lines, and then the guards
  refine ⟨m.decode_eq, fun other htext => ?_, ?_, ?_⟩
  · have hdecode := m.decode_eq
    rw [← htext, other.decode_eq, Option.some.injEq, Prod.mk.injEq, Prod.mk.injEq] at hdecode
    obtain ⟨htarget, hpartials, hguarded⟩ := hdecode
    refine ⟨htarget, hpartials, fun hne => ?_⟩
    have hfilled : m.partials.isEmpty = false := by
      unfold PartialList.isEmpty
      rwa [List.isEmpty_eq_false_iff]
    rw [hpartials, hfilled] at hguarded
    simpa using hguarded
  · refine ⟨m.lines.map String.toList, m.toList_text, fun line hline => ?_, ?_⟩
    · obtain ⟨text, htext, rfl⟩ := List.mem_map.1 hline
      exact m.newline_not_mem_lines text htext
    · rw [List.length_map, length_lines]
  · refine ⟨_, m.read?_text, m.map_listing, fun s hs => ?_⟩
    obtain ⟨entry, -, rfl⟩ := List.mem_map.1 hs
    rfl

end Stencil.Module
