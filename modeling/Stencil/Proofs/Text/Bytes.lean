import Mathlib.Data.List.Lex
import Mathlib.Tactic.Common

/-!
# Code points order texts as bytes do

The bytes of a text are those of its characters, one character after the other. A smaller character has
smaller bytes, whatever comes behind (`utf8EncodeChar_append_lt`), so texts that are compared character
by character are compared byte by byte (`lt_iff_utf8_lt`).
-/

namespace Stencil

def utf8 (cs : List Char) : List UInt8 := (String.ofList cs).toUTF8.data.toList

theorem utf8_cons (c : Char) (rest : List Char) :
    utf8 (c :: rest) = String.utf8EncodeChar c ++ utf8 rest := by
  have hbytes (cs : List Char) : utf8 cs = cs.flatMap String.utf8EncodeChar := by
    show (List.toByteArray _).data.toList = _
    rw [List.data_toByteArray]
  rw [hbytes, hbytes, List.flatMap_cons]

/-- The bytes of a smaller character are smaller at the first place where they differ. -/
theorem utf8EncodeChar_append_lt {c d : Char} (h : c < d) (a b : List UInt8) :
    String.utf8EncodeChar c ++ a < String.utf8EncodeChar d ++ b := by
  have hlt : c.val.toNat < d.val.toNat := h
  have hbound : d.val.toNat < 0x110000 := by
    have hvalid := d.valid
    simp only [UInt32.isValidChar, Nat.isValidChar] at hvalid
    omega
  unfold String.utf8EncodeChar
  simp only
  generalize c.val.toNat = v at *
  generalize d.val.toNat = w at *
  have hlater (n : Nat) : (n % 64 + 128) % 2 ^ 8 = n % 64 + 128 := by omega
  have hfirst (n : Nat) : (n % 8 + 240) % 2 ^ 8 = n % 8 + 240 := by omega
  have hthird (n : Nat) : n / 4096 = n / 64 / 64 := by rw [Nat.div_div_eq_div_mul]
  have hfourth (n : Nat) : n / 262144 = n / 64 / 64 / 64 := by
    rw [Nat.div_div_eq_div_mul, Nat.div_div_eq_div_mul]
  -- the first byte says how many there are, and more for the greater character
  split_ifs <;>
    simp only [List.cons_append, List.nil_append, List.cons_lt_cons_iff, UInt8.lt_iff_toNat_lt,
      ← UInt8.toNat_inj, UInt8.toNat_ofNat', hlater, hfirst, hthird,
      hfourth] <;>
    omega

/-- Texts are in the order of their bytes. -/
theorem utf8_lt_of_lt {a b : List Char} (h : a < b) : utf8 a < utf8 b := by
  induction a generalizing b with
  | nil =>
    cases b with
    | nil => exact absurd h (List.not_lt_nil [])
    | cons d rest =>
      rw [utf8_cons]
      obtain ⟨first, more, hbytes⟩ := List.exists_cons_of_ne_nil (String.utf8EncodeChar_ne_nil (c := d))
      rw [hbytes]
      exact List.nil_lt_cons _ _
  | cons c more ih =>
    cases b with
    | nil => exact absurd h (List.not_lt_nil _)
    | cons d rest =>
      rw [utf8_cons, utf8_cons]
      rcases List.cons_lt_cons_iff.1 h with h | ⟨rfl, hrest⟩
      · -- the characters differ, and so do their bytes, within the shorter encoding
        exact utf8EncodeChar_append_lt h _ _
      · exact List.append_left_lt (ih hrest)

/-- Texts compare by code points as their encodings compare by bytes. -/
theorem lt_iff_utf8_lt {a b : List Char} : a < b ↔ utf8 a < utf8 b := by
  refine ⟨utf8_lt_of_lt, fun h => ?_⟩
  by_contra hge
  rcases List.le_iff_lt_or_eq.1 (List.not_lt.1 hge) with hlt | rfl
  · exact List.lt_asymm (utf8_lt_of_lt hlt) h
  · exact List.lt_irrefl _ h

end Stencil
