import Stencil.Json.Printer
import Stencil.Json.Reader

/-!
# String literals read back

What stands between the quotes of a literal is read character by character, each in the way in which
it was escaped (`readStringBody_literalChar`), up to the closing quote and no further
(`readString_literal`). A literal stands on one line: every control character in it is escaped
(`oneLine_literal`).
-/

namespace Stencil.Json

/-! ## One character -/

def prepend (c : Char) : List Char × List Char → List Char × List Char := Prod.map (c :: ·) id

/-- The reader's way of putting a character in front. -/
theorem bind_eq_map_prepend (c : Char) (read : Option (List Char × List Char)) :
    (do
      let (body, rest) ← read
      return (c :: body, rest)) = read.map (prepend c) := by
  cases read <;> rfl

/-- A control character is found again from its last two hexadecimal digits. -/
theorem hexWord_hexDigit : ∀ n < 0x20,
    hexWord '0' '0' (hexDigit (n / 16)) (hexDigit (n % 16)) = some n := by
  decide

/-- The reader looks at a `\u` escape together with a second one behind it, as the two may be a
pair. For a character below the surrogates this makes no difference. -/
theorem readStringBody_unicode {a b c d : Char} {n : Nat} (hword : hexWord a b c d = some n)
    (hn : n < 0xD800) (tail : List Char) :
    readStringBody ('\\' :: 'u' :: a :: b :: c :: d :: tail) =
      (readStringBody tail).map (prepend (Char.ofNat n)) := by
  -- the number is below the surrogates, so no second escape is asked for
  have hhigh : ¬ (0xD800 ≤ n ∧ n < 0xDC00) := by omega
  have hlow : ¬ (0xDC00 ≤ n ∧ n < 0xE000) := by omega
  have hpair : ¬ (0xD800 ≤ n ∧ n < 0xE000) := by omega
  rw [readStringBody.eq_def]
  split
  · rename_i h
    cases h
  · rename_i h
    cases h
  · -- another escape follows, and it is read by itself
    rename_i h
    cases h
    simp only [hword, ← Bool.decide_and, decide_eq_true_eq, hhigh, hlow, if_false,
      bind_eq_map_prepend]
  · rename_i h
    cases h
    simp only [hword, ← Bool.decide_and, decide_eq_true_eq, hpair, if_false, bind_eq_map_prepend]
  · rename_i hnot h
    cases h
    exact (hnot a b c d tail rfl rfl).elim
  · rename_i hnot h
    cases h
    exact (hnot _ _ rfl rfl).elim

/-- An escape of two characters. -/
theorem readStringBody_short {c e : Char} (hshort : shortEscape c = some e) (tail : List Char) :
    readStringBody ('\\' :: c :: tail) = (readStringBody tail).map (prepend e) := by
  have hu : c ≠ 'u' := by
    rintro rfl
    cases hshort
  -- so no `\u` escape starts here, and the cases for these do not apply
  rw [readStringBody]
  · simp only [hshort, bind_eq_map_prepend]
  · intros
    contradiction
  · intros
    contradiction

/-- A character that stands for itself. -/
theorem readStringBody_plain {c : Char} (hquote : c ≠ '"') (hbackslash : c ≠ '\\')
    (hcontrol : ¬ c.toNat < 0x20) (tail : List Char) :
    readStringBody (c :: tail) = (readStringBody tail).map (prepend c) := by
  rw [readStringBody]
  · simp only [hcontrol, decide_false, beq_eq_false_iff_ne.2 hbackslash, Bool.or_false,
      Bool.false_eq_true, if_false, bind_eq_map_prepend]
  · exact hquote
  · intros
    contradiction
  · intros
    contradiction
  · intros
    contradiction

/-- However a character is written, it is read back. -/
theorem readStringBody_literalChar (c : Char) (tail : List Char) :
    readStringBody (literalChar c ++ tail) = (readStringBody tail).map (prepend c) := by
  -- the first seven cases are the short escapes
  unfold literalChar
  split
  · exact readStringBody_short rfl tail
  · exact readStringBody_short rfl tail
  · exact readStringBody_short rfl tail
  · exact readStringBody_short rfl tail
  · exact readStringBody_short rfl tail
  · exact readStringBody_short rfl tail
  · exact readStringBody_short rfl tail
  · -- no short escape: a control character by its number, and all others as they are
    rename_i hquote hbackslash _ _ _ _ _
    split
    · rename_i hcontrol
      have h := readStringBody_unicode (hexWord_hexDigit c.toNat hcontrol) (by omega) tail
      rw [Char.ofNat_toNat] at h
      exact h
    · rename_i hcontrol
      exact readStringBody_plain hquote hbackslash hcontrol tail

/-! ## Whole literals -/

/-- What is written between quotes is read back, up to the closing quote. -/
theorem readStringBody_flatMap (cs rest : List Char) :
    readStringBody (cs.flatMap literalChar ++ '"' :: rest) = some (cs, rest) := by
  induction cs with
  | nil =>
    show readStringBody ('"' :: rest) = some ([], rest)
    rw [readStringBody]
  | cons c cs ih =>
    rw [List.flatMap_cons, List.append_assoc, readStringBody_literalChar, ih]
    rfl

theorem toList_literal (s : String) : (literal s).toList = literalChars s.toList :=
  String.toList_ofList

/-- The literal of a text is read as the text, and what follows it is left. -/
theorem readString_literal (s : String) (rest : List Char) :
    readString ((literal s).toList ++ rest) = some (s, rest) := by
  have hbody := readStringBody_flatMap s.toList rest
  rw [toList_literal]
  unfold literalChars
  rw [List.cons_append, List.cons_append, List.append_assoc, List.singleton_append]
  show (readStringBody (s.toList.flatMap literalChar ++ '"' :: rest)).map _ = _
  rw [hbody]
  show some (String.ofList s.toList, rest) = _
  rw [String.ofList_toList]

example : readString (literal "\"\\\n\x01é").toList = some ("\"\\\n\x01é", []) := by decide

/-! ## One line -/

/-- No control characters, and so no line break: the text stands on one line. -/
def OneLine (cs : List Char) : Prop := ∀ c ∈ cs, 0x20 ≤ c.toNat

instance (cs : List Char) : Decidable (OneLine cs) := List.decidableBAll _ cs

/-- A literal stands on one line: control characters are escaped, and a line break is one. -/
theorem OneLine.newline_not_mem {cs : List Char} (h : OneLine cs) : '\n' ∉ cs := by
  intro hmem
  have hnewline := h '\n' hmem
  contradiction

theorem oneLine_cons {c : Char} {cs : List Char} :
    OneLine (c :: cs) ↔ 0x20 ≤ c.toNat ∧ OneLine cs := List.forall_mem_cons

theorem oneLine_append {a b : List Char} : OneLine (a ++ b) ↔ OneLine a ∧ OneLine b :=
  List.forall_mem_append

/-- The two digits of a control character are no control characters. -/
theorem oneLine_hexDigits : ∀ n < 0x20, OneLine [hexDigit (n / 16), hexDigit (n % 16)] := by
  decide

theorem oneLine_literalChar (c : Char) : OneLine (literalChar c) := by
  unfold literalChar
  split
  any_goals decide
  -- what has no short escape is written by its number, or is no control character
  split
  · rename_i hcontrol
    have hnumber : OneLine ['\\', 'u', '0', '0'] := by decide
    exact oneLine_append.2 ⟨hnumber, oneLine_hexDigits c.toNat hcontrol⟩
  · rename_i hcontrol
    exact oneLine_cons.2 ⟨Nat.not_lt.1 hcontrol, by decide⟩

/-- A literal stands on one line, whatever its text. -/
theorem oneLine_literal (s : String) : OneLine (literal s).toList := by
  have hbody : OneLine (s.toList.flatMap literalChar) := by
    intro c hc
    obtain ⟨written, -, hmem⟩ := List.mem_flatMap.1 hc
    exact oneLine_literalChar written c hmem
  rw [toList_literal]
  unfold literalChars
  exact oneLine_append.2 ⟨oneLine_cons.2 ⟨by decide, hbody⟩, by decide⟩

/-- So module texts can be cut at their line breaks. -/
theorem newline_not_mem_literal (s : String) : '\n' ∉ (literal s).toList :=
  (oneLine_literal s).newline_not_mem

end Stencil.Json
