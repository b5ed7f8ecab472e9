import Stencil.Partials.Checked
import Stencil.Proofs.Template.Rejected

/-!
# The line of a rejection

A rejection that has a place is reported with a line, and this line is searched for in the text of the
diagnostic: it is the first of two numbers behind colons (`HoldsPair`). The position stands there, behind
the reason, so the line is right unless the reason holds such a pair itself.

* **`line_of_rejected`**: the reason holds one only where it quotes a name that does, and only the names
of an inclusion can. Then the pair of the name is reported; for all other rejections the line is that of
the position.
-/

namespace Stencil.Template

open Text (isDecimalDigit)

/-! ## Pairs of numbers -/

/-- Two numbers in a text, both behind colons and the second right after the first. -/
def HoldsPair (text : List Char) : Prop :=
  ∃ before digits c after, text = before ++ ':' :: (digits ++ ':' :: c :: after) ∧ digits ≠ [] ∧
    (∀ d ∈ digits, isDecimalDigit d = true) ∧ isDecimalDigit c = true

/-- The digits before the second colon are taken, all of them. -/
theorem numberPair?_eq_some {digits after : List Char} {c : Char} (hne : digits ≠ [])
    (hdigits : ∀ d ∈ digits, isDecimalDigit d = true) (hc : isDecimalDigit c = true) :
    numberPair? (':' :: (digits ++ ':' :: c :: after)) = some digits := by
  have hcolon : isDecimalDigit ':' = false := by decide
  have htake : (digits ++ ':' :: c :: after).takeWhile isDecimalDigit = digits := by
    rw [List.takeWhile_append_of_pos hdigits, List.takeWhile_cons_of_neg (by simp [hcolon]),
      List.append_nil]
  have hdrop : (digits ++ ':' :: c :: after).dropWhile isDecimalDigit = ':' :: c :: after := by
    rw [List.dropWhile_append_of_pos hdigits, List.dropWhile_cons_of_neg (by simp [hcolon])]
  simp [numberPair?, htake, hdrop, hne, hc]

/-- What is taken for a pair is a colon, digits, a colon and a digit. -/
theorem exists_of_numberPair?_eq_some {text digits : List Char}
    (h : numberPair? text = some digits) :
    ∃ c after, text = ':' :: (digits ++ ':' :: c :: after) ∧ digits ≠ [] ∧
      (∀ d ∈ digits, isDecimalDigit d = true) ∧ isDecimalDigit c = true := by
  unfold numberPair? at h
  split at h
  · rename_i rest
    simp only at h
    split at h
    · rename_i c after hdrop
      split at h
      · rename_i hpair
        simp only [Bool.and_eq_true, Bool.not_eq_true', List.isEmpty_eq_false_iff] at hpair
        cases h
        refine ⟨c, after, ?_, hpair.1, List.all_eq_true.1 List.all_takeWhile, hpair.2⟩
        rw [← hdrop, List.takeWhile_append_dropWhile]
      · cases h
    · cases h
  · cases h

/-- A text is searched from its front to its end. -/
theorem holdsPair_cons {c : Char} {rest : List Char} :
    HoldsPair (c :: rest) ↔ (∃ digits, numberPair? (c :: rest) = some digits) ∨ HoldsPair rest := by
  constructor
  · -- a pair starts at the first character or after it
    rintro ⟨before, digits, d, after, htext, hne, hdigits, hd⟩
    cases before with
    | nil =>
      rw [htext]
      exact .inl ⟨digits, numberPair?_eq_some hne hdigits hd⟩
    | cons _ before =>
      cases htext
      exact .inr ⟨before, digits, d, after, rfl, hne, hdigits, hd⟩
  · rintro (⟨digits, hpair⟩ | ⟨before, digits, d, after, htext, hne, hdigits, hd⟩)
    · obtain ⟨d, after, htext, hne, hdigits, hd⟩ := exists_of_numberPair?_eq_some hpair
      exact ⟨[], digits, d, after, htext, hne, hdigits, hd⟩
    · exact ⟨c :: before, digits, d, after, by rw [htext]; rfl, hne, hdigits, hd⟩

/-- A text without colons holds no pair. -/
theorem colon_mem_of_holdsPair {text : List Char} (h : HoldsPair text) : ':' ∈ text := by
  obtain ⟨before, digits, c, after, rfl, -⟩ := h
  simp

theorem not_holdsPair_nil : ¬HoldsPair [] := mt colon_mem_of_holdsPair List.not_mem_nil

/-- A pair is found if and only if there is one. -/
theorem isSome_firstNumberPair?_iff {text : List Char} :
    (firstNumberPair? text).isSome = true ↔ HoldsPair text := by
  induction text with
  | nil => simp [firstNumberPair?, not_holdsPair_nil]
  | cons c rest ih =>
    rw [holdsPair_cons]
    unfold firstNumberPair?
    split
    · rename_i digits hpair
      simp [hpair]
    · rename_i hpair
      simp [hpair, ih]

/-- No pair reaches over a character that is neither a digit nor a colon. -/
theorem numberPair?_append_cons {c x : Char} (a b : List Char) (hx : isDecimalDigit x = false)
    (hne : x ≠ ':') : numberPair? (c :: (a ++ x :: b)) = numberPair? (c :: a) := by
  by_cases hc : c = ':'
  · subst hc
    have htake : (a ++ x :: b).takeWhile isDecimalDigit = a.takeWhile isDecimalDigit := by
      rw [List.takeWhile_append, List.takeWhile_cons_of_neg (by simp [hx]), List.append_nil]
      split
      · rename_i hlength
        exact ((List.takeWhile_prefix _).eq_of_length hlength).symm
      · rfl
    have hdrop : (a ++ x :: b).dropWhile isDecimalDigit =
        a.dropWhile isDecimalDigit ++ x :: b := by
      rw [List.dropWhile_append, List.dropWhile_cons_of_neg (by simp [hx])]
      split
      · rename_i hempty
        rw [List.isEmpty_iff.1 hempty, List.nil_append]
      · rfl
    unfold numberPair?
    simp only [htake, hdrop]
    -- what the digits of the front leave of it: nothing, a colon at its end, or enough to decide
    generalize a.dropWhile isDecimalDigit = left
    match left with
    | [] => simp [hne]
    | y :: left =>
      by_cases hy : y = ':'
      · cases left with
        | nil => simp [hy, hx]
        | cons z left =>
          subst hy
          rfl
      · simp [hy]
  · simp [numberPair?, hc]

/-- Such a character splits the search in two. -/
theorem firstNumberPair?_append_cons {x : Char} (a b : List Char) (hx : isDecimalDigit x = false)
    (hne : x ≠ ':') :
    firstNumberPair? (a ++ x :: b) = (firstNumberPair? a).or (firstNumberPair? b) := by
  induction a with
  | nil =>
    have hpair : numberPair? (x :: b) = none := by simp [numberPair?, hne]
    simp [firstNumberPair?, hpair]
  | cons c a ih =>
    rw [List.cons_append, firstNumberPair?, firstNumberPair?, numberPair?_append_cons a b hx hne, ih]
    split
    · rfl
    · rfl

/-- No pair reaches across a character that is neither a digit nor a colon. -/
theorem holdsPair_append_cons {x : Char} {a b : List Char} (hx : isDecimalDigit x = false)
    (hne : x ≠ ':') : HoldsPair (a ++ x :: b) ↔ HoldsPair a ∨ HoldsPair b := by
  rw [← isSome_firstNumberPair?_iff, firstNumberPair?_append_cons a b hx hne, Option.isSome_or,
    Bool.or_eq_true, isSome_firstNumberPair?_iff, isSome_firstNumberPair?_iff]

/-! ## Quoted names -/

/-- An escape by code point has letters and digits only. -/
theorem colon_not_mem_hexDigits (n : Nat) : ':' ∉ Text.hexDigits n := by
  unfold Text.hexDigits
  induction n using Nat.strongRecOn with
  | _ n ih =>
    have hdigit : ∀ d < 16, ':' ≠ Nat.digitChar d := by decide
    -- strong induction, since the number is divided by the base
    rw [Nat.toDigits_eq_if (by decide)]
    split
    · rename_i hn
      rw [List.mem_singleton]
      exact hdigit n hn
    · rename_i hn
      have hlt : n / 16 < n := Nat.div_lt_self (by omega) (by omega)
      simp only [List.mem_append, List.mem_singleton, not_or]
      exact ⟨ih _ hlt, hdigit _ (Nat.mod_lt _ (by omega))⟩

/-- A character stands for itself between quotes, or an escape without a colon does. -/
theorem quotedChar_cases (c : Char) :
    Text.quotedChar c = [c] ∨ ∃ escape, Text.quotedChar c = '\\' :: escape ∧ ':' ∉ escape := by
  unfold Text.quotedChar
  split
  · exact .inr ⟨['0'], rfl, by decide⟩
  · exact .inr ⟨['t'], rfl, by decide⟩
  · exact .inr ⟨['n'], rfl, by decide⟩
  · exact .inr ⟨['r'], rfl, by decide⟩
  · exact .inr ⟨['"'], rfl, by decide⟩
  · exact .inr ⟨['\\'], rfl, by decide⟩
  · -- characters that cannot be printed are escaped by their code point
    split
    · exact .inl rfl
    · refine .inr ⟨_, rfl, ?_⟩
      simp [colon_not_mem_hexDigits]

/-- A text without a backslash at the front of a quoted one is at the front of the text itself. -/
theorem exists_of_flatMap_eq_append {front : List Char} (hfront : '\\' ∉ front)
    {text rest : List Char} (h : text.flatMap Text.quotedChar = front ++ rest) :
    ∃ after, text = front ++ after ∧ after.flatMap Text.quotedChar = rest := by
  induction front generalizing text with
  | nil => exact ⟨text, rfl, h⟩
  | cons d front ih =>
    obtain ⟨hd, hplain⟩ := not_or.1 (mt List.mem_cons.2 hfront)
    cases text with
    | nil => cases h
    | cons x text =>
      rw [List.flatMap_cons] at h
      obtain hx | ⟨escape, hx, -⟩ := quotedChar_cases x
      · rw [hx] at h
        obtain ⟨rfl, hrest⟩ := List.cons.inj h
        obtain ⟨after, rfl, hafter⟩ := ih hplain hrest
        exact ⟨after, rfl, hafter⟩
      · -- an escape starts with a backslash, which `front` has not
        rw [hx] at h
        exact absurd (List.cons.inj h).1 hd

/-- Every colon of a quoted text is one of the text. -/
theorem exists_of_flatMap_eq_colon {text before rest : List Char}
    (h : text.flatMap Text.quotedChar = before ++ ':' :: rest) :
    ∃ front after, text = front ++ ':' :: after ∧ after.flatMap Text.quotedChar = rest := by
  induction text generalizing before with
  | nil => simp at h
  | cons x text ih =>
    rw [List.flatMap_cons] at h
    obtain ⟨skipped, -, hrest⟩ | ⟨inside, hinside, hrest⟩ := List.append_eq_append_iff.1 h
    · obtain ⟨front, after, rfl, hafter⟩ := ih hrest
      exact ⟨x :: front, after, rfl, hafter⟩
    · cases inside with
      | nil =>
        have hrest' : text.flatMap Text.quotedChar = [] ++ ':' :: rest := hrest.symm
        obtain ⟨front, after, rfl, hafter⟩ := ih hrest'
        exact ⟨x :: front, after, rfl, hafter⟩
      | cons y inside =>
        obtain ⟨rfl, rfl⟩ := List.cons.inj hrest
        obtain hx | ⟨escape, hx, hcolon⟩ := quotedChar_cases x
        · rw [hx] at hinside
          obtain ⟨rfl, hnil⟩ : before = [] ∧ [x] = ':' :: inside := by
            cases before with
            | nil => exact ⟨rfl, hinside⟩
            | cons _ before => simp at hinside
          cases hnil
          exact ⟨[], text, rfl, rfl⟩
        · -- no escape contains a colon, so the colon was there before quoting
          have hmem : ':' ∈ '\\' :: escape := by
            rw [← hx, hinside]
            simp
          simp [hcolon] at hmem

/-- Every pair of a quoted text is one of the text. -/
theorem holdsPair_of_flatMap {text : List Char} (h : HoldsPair (text.flatMap Text.quotedChar)) :
    HoldsPair text := by
  obtain ⟨before, digits, c, after, htext, hne, hdigits, hc⟩ := h
  obtain ⟨front, left, hfront, hleft⟩ := exists_of_flatMap_eq_colon htext
  -- digits and colons are quoted as they are
  have hplain : '\\' ∉ digits ++ [':', c] := by
    have hmark : isDecimalDigit '\\' = false := by decide
    intro hmem
    simp only [List.mem_append, List.mem_cons, List.not_mem_nil, or_false] at hmem
    obtain hmem | hmem | rfl := hmem
    · simp [hdigits _ hmem] at hmark
    · cases hmem
    · simp [hc] at hmark
  have hpair : left.flatMap Text.quotedChar = (digits ++ [':', c]) ++ after := by
    simpa using hleft
  obtain ⟨rest, rfl, -⟩ := exists_of_flatMap_eq_append hplain hpair
  exact ⟨front, digits, c, rest, by simpa using hfront, hne, hdigits, hc⟩

/-- Quoting a name makes no pair. -/
theorem holdsPair_of_quoted {name : String} (h : HoldsPair (Text.quoted name).toList) :
    HoldsPair name.toList := by
  have hquoted : (Text.quoted name).toList =
      [] ++ '"' :: (name.toList.flatMap Text.quotedChar ++ '"' :: []) := by
    simp [Text.quoted]
  rw [hquoted, holdsPair_append_cons (by decide) (by decide),
    holdsPair_append_cons (by decide) (by decide)] at h
  obtain h | h | h := h
  · exact absurd h not_holdsPair_nil
  · exact holdsPair_of_flatMap h
  · exact absurd h not_holdsPair_nil

/-! ## The reason -/

/-- A name that is made of symbols holds no pair. -/
theorem IsIdentifier.not_holdsPair {name : String} (h : IsIdentifier name) :
    ¬HoldsPair name.toList := by
  intro hpair
  cases h ':' (colon_mem_of_holdsPair hpair)

/-- The engine's own wording holds no pair. -/
theorem Fault.not_holdsPair_unmatched : ¬HoldsPair Fault.unmatched.reason.toList :=
  mt colon_mem_of_holdsPair (by decide)

/-- A reason with names in it holds a pair only if one of the names does. -/
theorem Fault.holdsPair_of_closing {kind : BlockKind} {opened closed : String}
    (h : HoldsPair (Fault.closing kind opened closed).reason.toList) :
    HoldsPair opened.toList ∨ HoldsPair closed.toList := by
  have hreason : (Fault.closing kind opened closed).reason.toList =
      (Fault.kindWord kind).toList ++ ' ' :: ((Text.quoted opened).toList ++
        ' ' :: ("was opened, but".toList ++ ' ' :: ((Text.quoted closed).toList ++
          ' ' :: "is closing".toList))) := by
    unfold Fault.reason
    simp only [String.toList_append, String.reduceToList, List.append_assoc, List.cons_append,
      List.nil_append]
  have hspace : isDecimalDigit ' ' = false := by decide
  have hne : ' ' ≠ ':' := by decide
  -- spaces separate the names from each other and from the wording
  rw [hreason, holdsPair_append_cons hspace hne, holdsPair_append_cons hspace hne,
    holdsPair_append_cons hspace hne, holdsPair_append_cons hspace hne] at h
  obtain h | h | h | h | h := h
  · exact absurd h (mt colon_mem_of_holdsPair (by cases kind <;> decide))
  · exact .inl (holdsPair_of_quoted h)
  · exact absurd h (mt colon_mem_of_holdsPair (by decide))
  · exact .inr (holdsPair_of_quoted h)
  · exact absurd h (mt colon_mem_of_holdsPair (by decide))

/-- Of the rejections with a place, only those of a closing name around an inclusion can have a reason
that holds a pair, and then one of its names holds one. -/
theorem Rejection.Of.exists_of_holdsPair {source : List Char} {rejection : Rejection}
    {p : Text.Position} (h : Rejection.Of source rejection) (hp : rejection.position = some p)
    (hpair : HoldsPair rejection.fault.reason.toList) :
    ∃ opened closed, rejection.fault = .closing .decorator opened closed ∧
      (HoldsPair opened.toList ∨ HoldsPair closed.toList) := by
  cases h with
  | unmatched => exact absurd hpair Fault.not_holdsPair_unmatched
  | literal => cases hp
  | helper _ hopened hclosed =>
    obtain hname | hname := Fault.holdsPair_of_closing hpair
    · exact absurd hname hopened.not_holdsPair
    · exact absurd hname hclosed.not_holdsPair
  | decorator _ opened closed => exact ⟨opened, closed, rfl, Fault.holdsPair_of_closing hpair⟩

/-! ## The position -/

/-- The first pair of a diagnostic is one of the reason, or else the line and column. -/
theorem Rejection.firstNumberPair?_diagnostic {rejection : Rejection} {p : Text.Position}
    (hp : rejection.position = some p) :
    firstNumberPair? rejection.diagnostic.toList =
      (firstNumberPair? rejection.fault.reason.toList).or (some (toString p.line).toList) := by
  have hdiagnostic : rejection.diagnostic.toList =
      "Template error:".toList ++ ' ' :: (rejection.fault.reason.toList ++
        '\n' :: ("    --> Template error in \"Unnamed".toList ++
          '"' :: ':' :: ((toString p.line).toList ++ ':' :: (toString p.column).toList))) := by
    simp [Rejection.diagnostic, Rejection.headline, hp]
  have hdigits {n : Nat} : ∀ c ∈ (toString n).toList, isDecimalDigit c = true := by
    intro c hc
    rw [Nat.toString_eq_repr, Nat.toList_repr] at hc
    exact Text.isDecimalDigit_of_isDigit
      (Nat.isDigit_of_mem_toDigits (by decide) (by decide) hc)
  have hne {n : Nat} : (toString n).toList ≠ [] := by
    rw [Nat.toString_eq_repr, Nat.toList_repr]
    exact Nat.toDigits_ne_nil
  obtain ⟨c, after, hcolumn⟩ := List.exists_cons_of_ne_nil (@hne p.column)
  -- the position comes last and is a pair; the first pair is searched for from the front
  have hposition : firstNumberPair?
      (':' :: ((toString p.line).toList ++ ':' :: (toString p.column).toList)) =
        some (toString p.line).toList := by
    have hc : isDecimalDigit c = true := hdigits c (by rw [hcolumn]; exact List.mem_cons_self)
    rw [hcolumn, firstNumberPair?, numberPair?_eq_some hne hdigits hc]
  rw [hdiagnostic, firstNumberPair?_append_cons _ _ (by decide) (by decide),
    firstNumberPair?_append_cons _ _ (by decide) (by decide),
    firstNumberPair?_append_cons _ _ (by decide) (by decide), hposition]
  rfl

/-- The digits of a number have its value if it fits in 64 bits, and none otherwise. -/
theorem wordOf?_toString (n : Nat) :
    wordOf? (toString n).toList = if n < Word.count 64 then some n else none := by
  have hall : (toString n).toList.all Char.isDigit = true := by
    rw [Nat.toString_eq_repr, Nat.toList_repr, List.all_eq_true]
    exact fun c hc => Nat.isDigit_of_mem_toDigits (by decide) (by decide) hc
  have hvalue : Json.decimal (toString n).toList = n := by
    rw [Nat.toString_eq_repr, Nat.toList_repr]
    exact Nat.ofDigitChars_toDigits (by decide) (by decide)
  simp only [wordOf?, hall, hvalue, Bool.true_and, decide_eq_true_eq]

/-- The line is read from the digits of the first pair. -/
theorem Rejection.line?_eq {rejection : Rejection} {p : Text.Position}
    (hp : rejection.position = some p) :
    rejection.line? =
      ((firstNumberPair? rejection.fault.reason.toList).or (some (toString p.line).toList)).bind
        wordOf? := by
  rw [Rejection.line?, lineNamed?, Rejection.firstNumberPair?_diagnostic hp]

/-- Every character adds one line at most. -/
theorem line_advance_le (p : Text.Position) (cs : List Char) :
    (p.advance cs).line ≤ p.line + cs.length := by
  fun_induction Text.Position.advance p cs with
  | case1 => exact Nat.le_refl _
  | case2 _ _ ih | case3 _ _ ih | case4 _ _ _ _ _ ih =>
    simp only [List.length_cons] at ih ⊢
    omega

/-- A source has at most one line more than it has characters. -/
theorem Cursor.In.line_le {source : List Char} {c : Cursor} (h : c.In source) :
    c.position.line ≤ source.length + 1 := by
  have hadvance := line_advance_le ⟨1, 1⟩ c.before.reverse
  have hlength := congrArg List.length h
  rw [List.length_append] at hlength
  change (Text.Position.advance ⟨1, 1⟩ c.before.reverse).line ≤ source.length + 1
  simp only at hadvance
  omega

/-- The position of a rejection lies on a line of the source. -/
theorem Rejection.Of.line_le {source : List Char} {rejection : Rejection} {p : Text.Position}
    (h : Rejection.Of source rejection) (hp : rejection.position = some p) :
    p.line ≤ source.length + 1 := by
  cases h with
  | unmatched hc | helper hc | decorator hc =>
    cases hp
    exact hc.line_le
  | literal => cases hp

/-! ## The line -/

/-- A source that is rejected at a place is reported as a syntax error of the template. The line that is
reported is the one of the place, a number that fits in 64 bits. Only where the reason quotes the names
of an inclusion, and one of them holds two numbers behind colons, it is the first such number that is
reported. -/
theorem line_of_rejected {source : String} {rejection : Rejection} {p : Text.Position}
    (h : Document.ofSource source = .error rejection) (hp : rejection.position = some p)
    (template : String) (options : CompileOptions) :
    checkTemplate template source options = .error (.templateSyntax template rejection) ∧
      p.line ≤ source.toList.length + 1 ∧
      (¬HoldsPair rejection.fault.reason.toList →
        rejection.line? = if p.line < Word.count 64 then some p.line else none) ∧
      (HoldsPair rejection.fault.reason.toList →
        rejection.line? = lineNamed? rejection.fault.reason.toList ∧
          ∃ opened closed, rejection.fault = .closing .decorator opened closed ∧
            (HoldsPair opened.toList ∨ HoldsPair closed.toList)) := by
  have hof := rejection_of_ofSource h
  refine ⟨?_, hof.line_le hp, ?_, ?_⟩
  · unfold checkTemplate
    rw [h]
  · -- without a pair in the reason, the first one is the engine's position
    intro hpair
    have hnone := Option.not_isSome_iff_eq_none.1 (mt isSome_firstNumberPair?_iff.1 hpair)
    rw [rejection.line?_eq hp, hnone, Option.none_or, Option.bind_some, wordOf?_toString]
  · intro hpair
    refine ⟨?_, hof.exists_of_holdsPair hp hpair⟩
    obtain ⟨digits, hdigits⟩ := Option.isSome_iff_exists.1 (isSome_firstNumberPair?_iff.2 hpair)
    rw [rejection.line?_eq hp, lineNamed?, hdigits, Option.some_or]

/-- A closing tag with the wrong name, on the second line. -/
theorem line_of_closing_on_second_line :
    let source := "\x7b\x7b#if x\x7d\x7d\n\x7b\x7b/a\x7d\x7d"
    let rejection : Rejection := ⟨.closing .helper "if" "a", some ⟨2, 1⟩⟩
    Document.ofSource source = .error rejection ∧
      checkTemplate "page" source {} = .error (.templateSyntax "page" rejection) ∧
      rejection.line? = some 2 := by
  intro source rejection
  have hrejected : Document.ofSource source = .error rejection :=
    Document.rejection?_eq_some_iff.1 (by decide +kernel)
  obtain ⟨hchecked, -, hline, -⟩ := line_of_rejected hrejected rfl "page" {}
  refine ⟨hrejected, hchecked, (hline ?_).trans (by decide)⟩
  -- the names at fault have no colon
  intro hpair
  obtain hname | hname := Fault.holdsPair_of_closing hpair
  · exact absurd (colon_mem_of_holdsPair hname) (by decide)
  · exact absurd (colon_mem_of_holdsPair hname) (by decide)

/-- The name of a partial holds two numbers behind colons: the line that is reported is the first of
them, though the closing tag that is wrong stands on the first line. -/
theorem line_of_numbered_partial :
    let rejection : Rejection := ⟨.closing .decorator "'a:7:2'" "b", some ⟨1, 15⟩⟩
    Document.ofSource "\x7b\x7b#> 'a:7:2'\x7d\x7d\x7b\x7b/b\x7d\x7d" = .error rejection ∧
      rejection.line? = some 7 := by
  intro rejection
  exact ⟨Document.rejection?_eq_some_iff.1 (by decide +kernel), by decide +kernel⟩

end Stencil.Template
