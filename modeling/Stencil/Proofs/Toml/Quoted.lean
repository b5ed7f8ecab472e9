import Mathlib.Tactic.Common
import Stencil.Toml.Writer

/-!
# Quoted text read back

How a text may be written between quotes is a relation (`Spells`), with one case for each way of writing a
character. Each reader reads whatever is spelled (`basicBody_of_spells`, `literalBody_of_spells`,
`linesBody_of_spells`), and each form of the writer spells its text (`spells_basicChars`,
`spells_literal`). So a text is read back from the form that the writer chooses (`quotedText_writeText`).

Over lines up to two quotes in a row stand as they are, and may stand right in front of the closing ones.
The relation counts the quotes that come before, so that there are never three.
-/

namespace Stencil.Toml

/-- The quote around basic text, or around literal text. -/
def mark (basic : Bool) : Char := if basic then '"' else '\''

/-- The writing of a character behind a backslash. -/
structure Escapes (c : Char) (written : List Char) : Prop where
  read : ∀ tail, escape (written ++ tail) = some (c, tail)
  noBreak : ∀ tail, lineBreak ((written ++ tail).dropWhile isBlank) = none

/-- What stands for a text between quotes, behind so many quotes that stand for themselves. -/
inductive Spells (basic lines : Bool) : (run : Nat) → (text written : List Char) → Prop where
  | nil {run : Nat} : Spells basic lines run [] []
  | quote {run : Nat} {text written : List Char} (hlines : lines = true) (hrun : run < 2)
      (hrest : Spells basic lines (run + 1) text written) :
      Spells basic lines run (mark basic :: text) (mark basic :: written)
  | newline {run : Nat} {text written : List Char} (hlines : lines = true)
      (hrest : Spells basic lines 0 text written) :
      Spells basic lines run ('\n' :: text) ('\n' :: written)
  | plain {run : Nat} {c : Char} {text written : List Char} (hplain : isPlain c = true)
      (hquote : c ≠ mark basic) (hbackslash : basic = true → c ≠ '\\')
      (hrest : Spells basic lines 0 text written) :
      Spells basic lines run (c :: text) (c :: written)
  | escaped {run : Nat} {c : Char} {short text written : List Char} (hbasic : basic = true)
      (hshort : Escapes c short) (hrest : Spells basic lines 0 text written) :
      Spells basic lines run (c :: text) ('\\' :: (short ++ written))

section Reading

variable {basic lines : Bool} {run : Nat} {text written : List Char}

/-- Every character takes some place. -/
theorem Spells.length_le (h : Spells basic lines run text written) :
    text.length ≤ written.length := by
  induction h with
  | nil => exact Nat.le_refl _
  | quote _ _ _ ih => exact Nat.succ_le_succ ih
  | newline _ _ ih => exact Nat.succ_le_succ ih
  | plain _ _ _ _ ih => exact Nat.succ_le_succ ih
  | escaped _ _ _ ih =>
    simp only [List.length_cons, List.length_append]
    omega

/-- Every character is spelled by at least one. -/
theorem Spells.length_le_append (h : Spells basic lines run text written) (rest : List Char) :
    text.length ≤ (written ++ rest).length := by
  rw [List.length_append]
  exact Nat.le_add_right_of_le h.length_le

/-- What is spelled is empty, or starts with a quote that stands for itself, or with something else. -/
theorem Spells.head_cases (h : Spells basic lines run text written) :
    (text = [] ∧ written = []) ∨
      (∃ text' written', text = mark basic :: text' ∧ written = mark basic :: written' ∧
        lines = true ∧ run < 2 ∧ Spells basic lines (run + 1) text' written') ∨
      ∃ c written', written = c :: written' ∧ c ≠ mark basic := by
  cases h with
  | nil => exact .inl ⟨rfl, rfl⟩
  | quote hlines hrun hrest => exact .inr (.inl ⟨_, _, rfl, rfl, hlines, hrun, hrest⟩)
  | newline _ _ => exact .inr (.inr ⟨_, _, rfl, by cases basic <;> decide⟩)
  | plain _ hquote _ _ => exact .inr (.inr ⟨_, _, rfl, hquote⟩)
  | escaped _ _ _ => exact .inr (.inr ⟨_, _, rfl, by cases basic <;> decide⟩)

theorem isPlain_mark (basic : Bool) : isPlain (mark basic) = true := by
  cases basic <;> decide

/-! ## On one line -/

/-- Plain characters stand for themselves. -/
theorem basicBody_plain {c : Char} (hplain : isPlain c = true) (hquote : c ≠ '"')
    (hbackslash : c ≠ '\\') {fuel : Nat} {cs rest : List Char}
    (hread : basicBody fuel cs = some (text, rest)) :
    basicBody (fuel + 1) (c :: cs) = some (c :: text, rest) := by
  rw [basicBody]
  · rw [if_pos hplain, hread]
    rfl
  · exact hquote
  · exact hbackslash

/-- Basic text on one line is read up to its closing quote. -/
theorem basicBody_of_spells (h : Spells true false run text written) (k : Nat) (rest : List Char) :
    basicBody (k + text.length + 1) (written ++ '"' :: rest) = some (text, rest) := by
  induction h with
  | nil => rfl
  | quote hlines => cases hlines
  | newline hlines => cases hlines
  | plain hplain hquote hbackslash _ ih => exact basicBody_plain hplain hquote (hbackslash rfl) ih
  | escaped _ hshort _ ih =>
    rw [List.cons_append, List.append_assoc, basicBody, hshort.read]
    show (basicBody (k + _ + 1) _).bind _ = _
    rw [ih]
    rfl

/-- Literal text on one line is read up to its closing quote. -/
theorem literalBody_of_spells (h : Spells false false run text written) (rest : List Char) :
    literalBody (written ++ '\'' :: rest) = some (text, rest) := by
  induction h with
  | nil => rfl
  | quote hlines => cases hlines
  | newline hlines => cases hlines
  | escaped hbasic => cases hbasic
  | plain hplain hquote _ _ ih =>
    rw [List.cons_append, literalBody]
    · rw [if_pos hplain, ih]
      rfl
    · exact hquote

/-- Between quotes on one line. -/
theorem lineText_of_spells (h : Spells basic false run text written) (rest : List Char) :
    lineText (mark basic :: (written ++ mark basic :: rest)) = some (text, rest) := by
  cases basic with
  | true =>
    obtain ⟨k, hk⟩ := Nat.exists_eq_add_of_le' (h.length_le_append ('"' :: rest))
    show basicBody ((written ++ '"' :: rest).length + 1) _ = _
    rw [hk]
    exact basicBody_of_spells h k rest
  | false => exact literalBody_of_spells h rest

/-- A text that does not open with three quotes is read as one on a single line. -/
theorem quotedText_eq_lineText {cs : List Char}
    (h : ∀ basic rest, cs ≠ mark basic :: mark basic :: mark basic :: rest) :
    quotedText cs = lineText cs := by
  unfold quotedText
  split
  · exact absurd rfl (h true _)
  · exact absurd rfl (h false _)
  · rfl

/-- Nothing on one line looks like three quotes. -/
theorem quotedText_of_spells (h : Spells basic false run text written) {rest : List Char}
    (hrest : rest.head? ≠ some (mark basic)) :
    quotedText (mark basic :: (written ++ mark basic :: rest)) = some (text, rest) := by
  rw [quotedText_eq_lineText, lineText_of_spells h]
  intro other more heq
  obtain ⟨hmark, htail⟩ := List.cons.inj heq
  rw [← hmark] at htail
  rcases h.head_cases with ⟨-, rfl⟩ | ⟨_, _, _, _, hlines, _⟩ | ⟨c, written', rfl, hc⟩
  · obtain ⟨-, rfl⟩ := List.cons.inj htail
    exact hrest rfl
  · cases hlines
  · exact hc (List.cons.inj htail).1

/-! ## Over lines -/

/-- Closing quotes with at most two in front of them, and no more behind. -/
theorem closingQuotes_replicate (quote : Char) {n : Nat} (hn : n ≤ 2) {rest : List Char}
    (hrest : rest.head? ≠ some quote) :
    closingQuotes quote (List.replicate n quote ++ quote :: quote :: quote :: rest) =
      some (List.replicate n quote, rest) := by
  -- up to two quotes before the closing three belong to the text
  have hfirst : ∀ d more, rest = d :: more → (d == quote) = false := by
    rintro d more rfl
    exact beq_false_of_ne fun heq => hrest (heq ▸ rfl)
  obtain rfl | rfl | rfl : n = 0 ∨ n = 1 ∨ n = 2 := by omega
  · match rest with
    | [] => simp [closingQuotes]
    | [d] => simp [closingQuotes, hfirst d [] rfl]
    | d :: e :: more => simp [closingQuotes, hfirst d (e :: more) rfl]
  · match rest with
    | [] => simp [closingQuotes]
    | d :: more => simp [closingQuotes, hfirst d more rfl]
  · simp [closingQuotes]

/-- Text over lines ends where its closing quotes are, and nowhere before. -/
theorem closingQuotes_of_spells (h : Spells basic true run text written) {rest : List Char}
    (hrest : rest.head? ≠ some (mark basic)) :
    closingQuotes (mark basic) (written ++ mark basic :: mark basic :: mark basic :: rest) =
        some (text, rest) ∨
      closingQuotes (mark basic) (written ++ mark basic :: mark basic :: mark basic :: rest) =
        none := by
  -- what comes first is a quote at most twice
  rcases h.head_cases with ⟨rfl, rfl⟩ | ⟨text, written, rfl, rfl, -, hrun, h⟩ |
    ⟨c, written, rfl, hc⟩
  · exact .inl (closingQuotes_replicate _ (by decide : 0 ≤ 2) hrest)
  · rcases h.head_cases with ⟨rfl, rfl⟩ | ⟨text, written, rfl, rfl, -, hrun', h⟩ |
      ⟨c, written, rfl, hc⟩
    · exact .inl (closingQuotes_replicate _ (by decide : 1 ≤ 2) hrest)
    · rcases h.head_cases with ⟨rfl, rfl⟩ | ⟨text, written, rfl, rfl, -, hrun'', h⟩ |
        ⟨c, written, rfl, hc⟩
      · exact .inl (closingQuotes_replicate _ (by decide : 2 ≤ 2) hrest)
      · omega
      · exact .inr (by simp [closingQuotes, hc])
    · refine .inr ?_
      cases written <;> simp [closingQuotes, hc]
  · refine .inr ?_
    rcases written with _ | ⟨d, _ | ⟨e, written⟩⟩ <;> simp [closingQuotes, hc]

/-- A line is broken by a line feed, with or without a carriage return. -/
theorem lineBreak_of_ne {c : Char} (hnewline : c ≠ '\n') (hreturn : c ≠ '\r') (rest : List Char) :
    lineBreak (c :: rest) = none := by
  rw [lineBreak]
  · intro rest heq
    cases heq
    exact hnewline rfl
  · intro rest heq
    cases heq
    exact hreturn rfl

theorem lineBreak_of_isPlain {c : Char} (h : isPlain c = true) (rest : List Char) :
    lineBreak (c :: rest) = none := by
  refine lineBreak_of_ne ?_ ?_ rest
  · rintro rfl
    exact absurd h (by decide)
  · rintro rfl
    exact absurd h (by decide)

section Step

variable {fuel : Nat} {c : Char} {cs more rest : List Char}

theorem linesBody_closing {quote : Char} (hclose : closingQuotes quote cs = some (text, rest)) :
    linesBody quote basic (fuel + 1) cs = some (text, rest) := by
  rw [linesBody.eq_def]
  simp only [hclose]

/-- A character that stands for itself. -/
theorem linesBody_plain (hplain : isPlain c = true) (hbackslash : basic = true → c ≠ '\\')
    (hopen : closingQuotes (mark basic) (c :: cs) = none)
    (hread : linesBody (mark basic) basic fuel cs = some (text, rest)) :
    linesBody (mark basic) basic (fuel + 1) (c :: cs) = some (c :: text, rest) := by
  have hno : (basic && c == '\\') = false := by
    cases basic with
    | false => rfl
    | true => simpa using hbackslash rfl
  rw [linesBody.eq_def]
  simp only [hopen, lineBreak_of_isPlain hplain, hno, hplain, hread]
  rfl

/-- A line break inside is kept. -/
theorem linesBody_newline (hopen : closingQuotes (mark basic) ('\n' :: cs) = none)
    (hread : linesBody (mark basic) basic fuel cs = some (text, rest)) :
    linesBody (mark basic) basic (fuel + 1) ('\n' :: cs) = some ('\n' :: text, rest) := by
  rw [linesBody.eq_def]
  simp only [hopen, lineBreak, hread]
  rfl

/-- An escape stands for its character. -/
theorem linesBody_escaped {short : List Char} (hshort : Escapes c short)
    (hopen : closingQuotes '"' ('\\' :: (short ++ cs)) = none)
    (hread : linesBody '"' true fuel cs = some (text, rest)) :
    linesBody '"' true (fuel + 1) ('\\' :: (short ++ cs)) = some (c :: text, rest) := by
  have hbreak : lineBreak ('\\' :: (short ++ cs)) = none :=
    lineBreak_of_ne (by decide) (by decide) _
  rw [linesBody.eq_def]
  simp only [hopen, hbreak, hshort.noBreak, hshort.read]
  show (linesBody '"' true fuel cs).bind _ = _
  rw [hread]
  rfl

end Step

/-- Text over lines ends at its closing quotes, and else goes on with one step. -/
theorem linesBody_of_open (h : Spells basic true run text written) {rest : List Char}
    (hrest : rest.head? ≠ some (mark basic)) {fuel : Nat}
    (hstep :
      closingQuotes (mark basic) (written ++ mark basic :: mark basic :: mark basic :: rest) =
        none →
      linesBody (mark basic) basic (fuel + 1)
        (written ++ mark basic :: mark basic :: mark basic :: rest) = some (text, rest)) :
    linesBody (mark basic) basic (fuel + 1)
      (written ++ mark basic :: mark basic :: mark basic :: rest) = some (text, rest) := by
  rcases closingQuotes_of_spells h hrest with hclose | hopen
  · exact linesBody_closing hclose
  · exact hstep hopen

/-- Text over lines is read up to its closing quotes. -/
theorem linesBody_of_spells (h : Spells basic true run text written) (k : Nat) {rest : List Char}
    (hrest : rest.head? ≠ some (mark basic)) :
    linesBody (mark basic) basic (k + text.length + 1)
      (written ++ mark basic :: mark basic :: mark basic :: rest) = some (text, rest) := by
  -- the quotes at the end are read with the closing ones, all else character by character
  induction h with
  | nil => exact linesBody_closing (closingQuotes_replicate _ (by decide : 0 ≤ 2) hrest)
  | quote hlines hrun hspells ih =>
    have hbackslash : basic = true → mark basic ≠ '\\' := fun _ => by cases basic <;> decide
    refine linesBody_of_open (.quote hlines hrun hspells) hrest fun hopen => ?_
    exact linesBody_plain (isPlain_mark basic) hbackslash hopen ih
  | newline hlines hspells ih =>
    have hspelled : Spells basic true 0 _ _ := .newline hlines hspells
    exact linesBody_of_open hspelled hrest fun hopen => linesBody_newline hopen ih
  | plain hplain hquote hbackslash hspells ih =>
    have hspelled : Spells basic true 0 _ _ := .plain hplain hquote hbackslash hspells
    exact linesBody_of_open hspelled hrest fun hopen => linesBody_plain hplain hbackslash hopen ih
  | escaped hbasic hshort hspells ih =>
    have hspelled : Spells basic true 0 _ _ := .escaped hbasic hshort hspells
    refine linesBody_of_open hspelled hrest fun hopen => ?_
    subst hbasic
    rw [List.cons_append, List.append_assoc] at hopen ⊢
    exact linesBody_escaped hshort hopen ih

/-- Text without line breaks does not start with one. -/
theorem Spells.lineBreak_eq_none (h : Spells basic lines run text written) (hno : '\n' ∉ text)
    (rest : List Char) : lineBreak (written ++ mark basic :: rest) = none := by
  cases h with
  | nil => exact lineBreak_of_isPlain (isPlain_mark basic) _
  | quote _ _ _ => exact lineBreak_of_isPlain (isPlain_mark basic) _
  | newline _ _ => exact absurd List.mem_cons_self hno
  | plain hplain _ _ _ => exact lineBreak_of_isPlain hplain _
  | escaped _ _ _ => exact lineBreak_of_ne (by decide) (by decide) _

/-- Between three quotes, on a line of its own if it has a line break. -/
theorem quotedText_betweenQuotes (h : Spells basic true run text written) {rest : List Char}
    (hrest : rest.head? ≠ some (mark basic)) :
    quotedText (betweenQuotes (mark basic) (text.contains '\n') written ++ rest) =
      some (text, rest) := by
  have hbody : linesBody (mark basic) basic
      ((written ++ mark basic :: mark basic :: mark basic :: rest).length + 1)
      (written ++ mark basic :: mark basic :: mark basic :: rest) = some (text, rest) := by
    obtain ⟨k, hk⟩ := Nat.exists_eq_add_of_le'
      (h.length_le_append (mark basic :: mark basic :: mark basic :: rest))
    rw [hk]
    exact linesBody_of_spells h k hrest
  have hopening : ∀ body, quotedText (mark basic :: mark basic :: mark basic :: body) =
      linesText (mark basic) basic body := by
    intro body
    cases basic <;> rfl
  unfold betweenQuotes
  simp only [List.cons_append, List.nil_append, List.append_assoc, hopening]
  -- a text that breaks lines is opened by a break that does not belong to it
  cases hbreak : text.contains '\n' with
  | true => exact hbody
  | false =>
    have hno : '\n' ∉ text := by
      intro hmem
      rw [List.contains_iff_mem.2 hmem] at hbreak
      cases hbreak
    have hnone := h.lineBreak_eq_none hno (mark basic :: mark basic :: rest)
    simp only [Bool.false_eq_true, if_false, List.nil_append]
    unfold linesText
    rw [hnone]
    exact hbody

end Reading

/-! ## What the writer spells -/

/-- Only control characters are not plain. -/
theorem isPlain_of_not_isControl {c : Char} (hcontrol : isControl c = false) (hnewline : c ≠ '\n') :
    isPlain c = true := by
  unfold isControl at hcontrol
  unfold isPlain
  by_cases htab : c = '\t'
  · rw [htab]
    rfl
  · have hrange : 0x20 ≤ c.toNat ∧ c.toNat ≠ 0x7F := by simpa [htab, hnewline] using hcontrol
    simp [hrange]

/-- A control character is found again from its last two hexadecimal digits. -/
theorem charOf?_hex : ∀ n < 0x80,
    charOf? ['0', '0', Nat.digitChar (n / 16), (Nat.digitChar (n % 16)).toUpper] =
      some (Char.ofNat n) := by
  decide

/-- A control character is escaped by its code point, in four digits. -/
theorem escapes_hex {c : Char} (h : isControl c = true) :
    Escapes c ['u', '0', '0', Nat.digitChar (c.toNat / 16),
      (Nat.digitChar (c.toNat % 16)).toUpper] where
  read tail := by
    have hlt : c.toNat < 0x80 := by
      simp only [isControl, Bool.or_eq_true, Bool.and_eq_true, decide_eq_true_eq, beq_iff_eq] at h
      omega
    have hchar := charOf?_hex c.toNat hlt
    rw [Char.ofNat_toNat] at hchar
    show (charOf? _).map _ = _
    rw [hchar]
    rfl
  noBreak _ := rfl

/-- Whatever the character, it is spelled in basic text. -/
theorem spells_basicChar {lines : Bool} {c : Char} (hquote : c ≠ '"') {text written : List Char}
    (hrest : Spells true lines 0 text written) (run : Nat) :
    Spells true lines run (c :: text) (basicChar lines c ++ written) := by
  unfold basicChar
  split
  · exact .escaped rfl ⟨fun _ => rfl, fun _ => rfl⟩ hrest
  · exact .escaped rfl ⟨fun _ => rfl, fun _ => rfl⟩ hrest
  · cases lines with
    | true => exact .newline rfl hrest
    | false => exact .escaped rfl ⟨fun _ => rfl, fun _ => rfl⟩ hrest
  · exact .escaped rfl ⟨fun _ => rfl, fun _ => rfl⟩ hrest
  · exact .escaped rfl ⟨fun _ => rfl, fun _ => rfl⟩ hrest
  · exact .escaped rfl ⟨fun _ => rfl, fun _ => rfl⟩ hrest
  · -- no short escape: a control character by its number, and all others as they are
    rename_i hnewline _ _ hbackslash
    cases hcontrol : isControl c with
    | true => exact .escaped rfl (escapes_hex hcontrol) hrest
    | false =>
      exact .plain (isPlain_of_not_isControl hcontrol hnewline) hquote (fun _ => hbackslash) hrest

/-- Basic text is spelled with as many quotes in a row as the reader bears. -/
theorem spells_basicChars (lines : Bool) (cs : List Char) (run : Nat) :
    Spells true lines run cs (basicChars lines (if lines then 2 else 0) run cs) := by
  induction cs generalizing run with
  | nil => exact .nil
  | cons c cs ih =>
    rw [basicChars]
    by_cases hquote : c = '"'
    · subst hquote
      rw [if_pos (beq_self_eq_true _)]
      -- a quote is escaped where a run of them would close the text
      by_cases hrun : (if lines then 2 else 0) ≤ run
      · have hshort : Escapes '"' ['"'] := ⟨fun _ => rfl, fun _ => rfl⟩
        rw [if_pos hrun]
        exact .escaped rfl hshort (ih 0)
      · rw [if_neg hrun]
        cases lines with
        | true => exact .quote rfl (Nat.not_le.1 hrun) (ih (run + 1))
        | false => exact absurd (Nat.zero_le run) hrun
    · rw [if_neg (by simpa using hquote)]
      exact spells_basicChar hquote (ih 0) run

/-- The longest run so far and the one that goes on, after one more character. -/
def runStep (x : Char) (runs : Nat × Nat) (c : Char) : Nat × Nat :=
  if c == x then (max runs.1 (runs.2 + 1), runs.2 + 1) else (runs.1, 0)

theorem longestRun_eq_foldl (x : Char) (cs : List Char) :
    longestRun x cs = (cs.foldl (runStep x) (0, 0)).1 := rfl

/-- A run that goes on is as long as it is now, or longer. -/
theorem le_foldl_runStep (x : Char) (cs : List Char) (runs : Nat × Nat) :
    runs.1 ≤ (cs.foldl (runStep x) runs).1 := by
  induction cs generalizing runs with
  | nil => exact Nat.le_refl _
  | cons c cs ih =>
    refine Nat.le_trans ?_ (ih (runStep x runs c))
    unfold runStep
    split
    · exact Nat.le_max_left _ _
    · exact Nat.le_refl _

theorem longestRun_eq_zero {x : Char} {cs : List Char} (h : x ∉ cs) : longestRun x cs = 0 := by
  rw [longestRun_eq_foldl]
  induction cs with
  | nil => rfl
  | cons c cs ih =>
    have hc : (c == x) = false := beq_false_of_ne fun heq => h (heq ▸ List.mem_cons_self)
    rw [List.foldl_cons, runStep, hc]
    exact ih fun hmem => h (List.mem_cons_of_mem _ hmem)

/-- Literal text stands for itself, if it has no control characters, and no more quotes in a row and
line breaks than the form bears. -/
theorem spells_literal {lines : Bool} {cs : List Char} (hcontrol : cs.any isControl = false)
    (hbreak : lines = false → '\n' ∉ cs)
    (hrun : longestRun '\'' cs ≤ if lines then 2 else 0) : Spells false lines 0 cs cs := by
  suffices h : ∀ runs, (cs.foldl (runStep '\'') runs).1 ≤ (if lines then 2 else 0) →
      Spells false lines runs.2 cs cs from h (0, 0) hrun
  -- generalised to any runs so far, since the bound has to hold at every character
  clear hrun
  induction cs with
  | nil => exact fun _ _ => .nil
  | cons c cs ih =>
    rw [List.any_cons, Bool.or_eq_false_iff] at hcontrol
    have hspells := ih hcontrol.2 fun h hmem => hbreak h (List.mem_cons_of_mem _ hmem)
    intro runs hle
    rw [List.foldl_cons] at hle
    have hrest := hspells _ hle
    have hnow := Nat.le_trans (le_foldl_runStep _ cs _) hle
    unfold runStep at hrest hnow
    by_cases hquote : c = '\''
    · subst hquote
      simp only [beq_self_eq_true, if_true] at hrest hnow
      cases lines with
      | true => exact .quote rfl (Nat.le_trans (Nat.le_max_right _ _) hnow) hrest
      | false => exact absurd (Nat.le_trans (Nat.le_max_right _ _) hnow) (Nat.not_succ_le_zero _)
    · rw [if_neg (by simpa using hquote)] at hrest
      by_cases hnewline : c = '\n'
      · subst hnewline
        cases lines with
        | true => exact .newline rfl hrest
        | false => exact absurd List.mem_cons_self (hbreak rfl)
      · exact .plain (isPlain_of_not_isControl hcontrol.1 hnewline) hquote nofun hrest

/-! ## The forms of the writer -/

section Forms

variable {cs rest : List Char}

theorem writeBasic_append (cs rest : List Char) :
    writeBasic cs ++ rest = '"' :: (basicChars false 0 0 cs ++ '"' :: rest) := by
  simp [writeBasic]

theorem writeLiteral_append (cs rest : List Char) :
    writeLiteral cs ++ rest = '\'' :: (cs ++ '\'' :: rest) := by
  simp [writeLiteral]

/-- Text in basic quotes is read back. -/
theorem quotedText_writeBasic (hrest : rest.head? ≠ some '"') :
    quotedText (writeBasic cs ++ rest) = some (cs, rest) := by
  rw [writeBasic_append]
  exact quotedText_of_spells (spells_basicChars false cs 0) hrest

/-- Text in basic quotes over several lines is read back too. -/
theorem quotedText_writeBasicLines (hrest : rest.head? ≠ some '"') :
    quotedText (writeBasicLines cs ++ rest) = some (cs, rest) :=
  quotedText_betweenQuotes (spells_basicChars true cs 0) hrest

/-- A text is read back from the form in which it is written, if no quote follows. -/
theorem quotedText_writeText (hbasic : rest.head? ≠ some '"') (hliteral : rest.head? ≠ some '\'') :
    quotedText (writeText cs ++ rest) = some (cs, rest) := by
  -- each way is chosen only for texts that it can spell
  unfold writeText
  simp only
  split
  · exact quotedText_writeBasic hbasic
  split
  · rename_i _ h
    simp only [Bool.and_eq_true, Bool.not_eq_true', decide_eq_true_eq] at h
    have hno : '\n' ∉ cs := fun hmem => by
      rw [List.contains_iff_mem.2 hmem] at h
      exact Bool.noConfusion h.1.2
    rw [writeLiteral_append]
    exact quotedText_of_spells (spells_literal h.1.1 (fun _ => hno) (Nat.le_of_eq h.2)) hliteral
  split
  · exact quotedText_writeBasicLines hbasic
  split
  · rename_i _ _ _ h
    simp only [Bool.and_eq_true, Bool.not_eq_true', decide_eq_true_eq] at h
    exact quotedText_betweenQuotes (spells_literal h.1 nofun h.2) hliteral
  split
  · exact quotedText_writeBasicLines hbasic
  · exact quotedText_writeBasic hbasic

-- two quotes at the end of a text stand in front of the three that close it
example : writeText "\\\n''".toList = "'''\n\\\n'''''".toList ∧
    quotedText "'''\n\\\n'''''\n".toList = some ("\\\n''".toList, ['\n']) := by decide

end Forms

end Stencil.Toml
