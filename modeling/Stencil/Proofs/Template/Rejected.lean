import Stencil.Proofs.Except
import Stencil.Proofs.Template.Grammar
import Stencil.Template.Check

/-!
# Why a source is rejected

A source is rejected because it does not match the grammar, because a literal has no value, or because a
closing tag has the wrong name. `Rejection.Of` has a case for each, with what is known of it, and every
rejection of a source is one of these (`rejection_of_ofSource`): the checks go over the pieces that the
grammar reads, which are regular, and the first one that fails is the answer.
-/

namespace Stencil.Template

/-- The rejections that a source can have. All but those of literals have a place in the source, and a
helper's block is opened and closed with names that are made of symbols. -/
inductive Rejection.Of (source : List Char) : Rejection → Prop
  | unmatched {c : Cursor} (hc : c.In source) : Of source ⟨.unmatched, some c.position⟩
  | literal (text : String) : Of source ⟨.literal text, none⟩
  | helper {c : Cursor} (hc : c.In source) {opened closed : String} (hopened : IsIdentifier opened)
      (hclosed : IsIdentifier closed) :
      Of source ⟨.closing .helper opened closed, some c.position⟩
  | decorator {c : Cursor} (hc : c.In source) (opened closed : String) :
      Of source ⟨.closing .decorator opened closed, some c.position⟩

def Document.rejection? (source : String) : Option Rejection :=
  match ofSource source with
  | .ok _ => none
  | .error rejection => some rejection

/-- A rejection is decided by running the parser and the checks. -/
theorem Document.rejection?_eq_some_iff {source : String} {rejection : Rejection} :
    rejection? source = some rejection ↔ ofSource source = .error rejection := by
  unfold rejection?
  cases ofSource source with
  | ok document => simp
  | error rejection' => simp

/-! ## Literals -/

section Literals

variable {L M ε : Type} {f : L → Except ε M} {e : ε}

mutual

/-- Reading the literals of an operand fails only where one of them cannot be read. -/
theorem exists_of_mapLiterals_eq_error : (x : Operand L) → x.mapLiterals f = .error e →
    ∃ value, f value = .error e
  | .name _, h => by cases h
  | .path _, h => by cases h
  | .literal value, h => by
    unfold Operand.mapLiterals at h
    refine ⟨value, ?_⟩
    cases hvalue : f value with
    | error e' =>
      rw [hvalue] at h
      cases h
      rfl
    | ok y =>
      rw [hvalue] at h
      cases h
  -- the head of a call is an operand itself
  | .call head args, h => by
    unfold Operand.mapLiterals at h
    obtain hhead | ⟨head', -, h⟩ := bind_eq_error h
    · exact exists_of_mapLiterals_eq_error head hhead
    · obtain hargs | ⟨args', -, h⟩ := bind_eq_error h
      · exact exists_of_all_eq_error args hargs
      · cases h

theorem exists_of_all_eq_error : (args : Arguments L) →
    Operand.mapLiterals.all f args = .error e → ∃ value, f value = .error e
  | [], h => by cases h
  | (_, x) :: rest, h => by
    unfold Operand.mapLiterals.all at h
    obtain hx | ⟨x', -, h⟩ := bind_eq_error h
    · exact exists_of_mapLiterals_eq_error x hx
    · obtain hrest | ⟨rest', -, h⟩ := bind_eq_error h
      · exact exists_of_all_eq_error rest hrest
      · cases h

end

end Literals

variable {source : List Char} {rejection : Rejection}

/-- A call is rejected only for a literal in it. -/
theorem rejection_of_checkCall {call : Call Grammar.LiteralText}
    (h : checkCall call = .error rejection) : Rejection.Of source rejection := by
  -- the literal stands in the head or in an argument
  have hliteral : ∃ text, checkLiteral text = .error rejection := by
    unfold checkCall Call.mapLiterals at h
    obtain hhead | ⟨head, -, h⟩ := bind_eq_error h
    · exact exists_of_mapLiterals_eq_error _ hhead
    · obtain hargs | ⟨args, -, h⟩ := bind_eq_error h
      · exact exists_of_all_eq_error _ hargs
      · cases h
  obtain ⟨text, htext⟩ := hliteral
  unfold checkLiteral at htext
  split at htext
  · cases htext
  · cases htext
    exact .literal _

/-- Checking a call does not change its name. -/
theorem Call.IsNamed.of_checkCall {call : Call Grammar.LiteralText} {checked : Call Json}
    (hcall : call.IsNamed) (h : checkCall call = .ok checked) : checked.IsNamed := by
  obtain ⟨name, hhead, hname⟩ := hcall
  refine ⟨name, ?_, hname⟩
  unfold checkCall Call.mapLiterals at h
  rw [hhead] at h
  -- checking replaces literals by their values and keeps the name
  cases hargs : Operand.mapLiterals.all checkLiteral call.args with
  | error e =>
    rw [hargs] at h
    cases h
  | ok args =>
    rw [hargs] at h
    cases h
    rfl

/-! ## Closing names -/

/-- A helper block is rejected for a closing tag with another name. -/
theorem rejection_of_helper {call : Call Json} (hcall : call.IsNamed) {closing : Tag}
    (hclosing : closing.start.In source) {name : String} (hname : IsIdentifier name)
    (h : checkClosing .helper call closing name = .error rejection) :
    Rejection.Of source rejection := by
  obtain ⟨opened, hhead, hopened⟩ := hcall
  unfold checkClosing at h
  rw [hhead] at h
  split at h
  · cases h
  · cases h
    exact .helper hclosing hopened hname

/-- The block of a decorator or a partial is rejected for a closing tag with another name. -/
theorem rejection_of_decorator {call : Call Json} {closing : Tag}
    (hclosing : closing.start.In source) {name : String}
    (h : checkClosing .decorator call closing name = .error rejection) :
    Rejection.Of source rejection := by
  unfold checkClosing at h
  split at h
  · cases h
  · cases h
    exact .decorator hclosing _ _

/-! ## Pieces -/

mutual

/-- A regular piece is rejected for a literal or for a closing tag, with one case for each piece. -/
theorem rejection_of_checkPiece : (piece : Piece Grammar.LiteralText) → piece.Regular source →
    checkPiece piece = .error rejection → Rejection.Of source rejection
  | .text _, _, h => by cases h
  | .comment _, _, h => by cases h
  | .value _ call _, _, h => by
    unfold checkPiece at h
    obtain hcall | ⟨call', -, h⟩ := bind_eq_error h
    · exact rejection_of_checkCall hcall
    · cases h
  -- the call, both bodies, and then the closing tag
  | .block _ call body _ inverse closing name, hpiece, h => by
    cases hpiece with
    | block hnamed hbody hinverse hclosing hname =>
      unfold checkPiece at h
      obtain hcall | ⟨call', hcall, h⟩ := bind_eq_error h
      · exact rejection_of_checkCall hcall
      obtain hfails | ⟨body', -, h⟩ := bind_eq_error h
      · exact rejection_of_checkPieces body hbody hfails
      obtain hfails | ⟨inverse', -, h⟩ := bind_eq_error h
      · exact rejection_of_checkPieces inverse hinverse hfails
      obtain hfails | ⟨-, -, h⟩ := bind_eq_error h
      · exact rejection_of_helper (hnamed.of_checkCall hcall) hclosing hname hfails
      · cases h
  | .raw _ call _ closing name, hpiece, h => by
    cases hpiece with
    | raw hnamed hclosing hname =>
      unfold checkPiece at h
      obtain hcall | ⟨call', hcall, h⟩ := bind_eq_error h
      · exact rejection_of_checkCall hcall
      obtain hfails | ⟨-, -, h⟩ := bind_eq_error h
      · exact rejection_of_helper (hnamed.of_checkCall hcall) hclosing hname hfails
      · cases h
  | .decorator _ call, _, h => by
    unfold checkPiece at h
    obtain hcall | ⟨call', -, h⟩ := bind_eq_error h
    · exact rejection_of_checkCall hcall
    · cases h
  | .decoratorBlock _ call body closing name, hpiece, h => by
    cases hpiece with
    | decoratorBlock _ hbody hclosing _ =>
      unfold checkPiece at h
      obtain hcall | ⟨call', -, h⟩ := bind_eq_error h
      · exact rejection_of_checkCall hcall
      obtain hfails | ⟨body', -, h⟩ := bind_eq_error h
      · exact rejection_of_checkPieces body hbody hfails
      obtain hfails | ⟨-, -, h⟩ := bind_eq_error h
      · exact rejection_of_decorator hclosing hfails
      · cases h
  | .include _ call, _, h => by
    unfold checkPiece at h
    obtain hcall | ⟨call', -, h⟩ := bind_eq_error h
    · exact rejection_of_checkCall hcall
    · cases h
  | .includeBlock _ call body closing name, hpiece, h => by
    cases hpiece with
    | includeBlock hbody hclosing =>
      unfold checkPiece at h
      obtain hcall | ⟨call', -, h⟩ := bind_eq_error h
      · exact rejection_of_checkCall hcall
      obtain hfails | ⟨body', -, h⟩ := bind_eq_error h
      · exact rejection_of_checkPieces body hbody hfails
      obtain hfails | ⟨-, -, h⟩ := bind_eq_error h
      · exact rejection_of_decorator hclosing hfails
      · cases h

theorem rejection_of_checkPieces : (pieces : List (Piece Grammar.LiteralText)) →
    (∀ piece ∈ pieces, piece.Regular source) →
    checkPiece.checkPieces pieces = .error rejection → Rejection.Of source rejection
  | [], _, h => by cases h
  | piece :: rest, hpieces, h => by
    obtain ⟨hpiece, hrest⟩ := List.forall_mem_cons.1 hpieces
    unfold checkPiece.checkPieces at h
    obtain hfails | ⟨piece', -, h⟩ := bind_eq_error h
    · exact rejection_of_checkPiece piece hpiece hfails
    obtain hfails | ⟨rest', -, h⟩ := bind_eq_error h
    · exact rejection_of_checkPieces rest hrest hfails
    · cases h

end

/-- Whatever is rejected, the rejection is one that the source can have. -/
theorem rejection_of_ofSource {source : String}
    (h : Document.ofSource source = .error rejection) :
    Rejection.Of source.toList rejection := by
  unfold Document.ofSource at h
  obtain hparse | ⟨document, hparse, h⟩ := bind_eq_error h
  · -- the grammar takes the whole source or gives up where it got to
    unfold Document.parse at hparse
    simp only at hparse
    split at hparse
    · cases hparse
    · cases hparse
      exact .unmatched ((Cursor.in_start source.toList).forward _)
  · obtain hfails | ⟨pieces, -, h⟩ := bind_eq_error h
    · refine rejection_of_checkPieces document.pieces ?_ hfails
      have hgives := Grammar.gives_document (source.toList.length + 1) false
        (Cursor.start source.toList) 0 (Cursor.in_start source.toList)
      unfold Document.parse at hparse
      simp only at hparse
      generalize Grammar.document (source.toList.length + 1) false
        (Cursor.start source.toList) 0 = outcome at hgives hparse
      obtain ⟨_ | ⟨found, stop⟩, furthest⟩ := outcome
      · cases hparse
      · cases hparse
        exact (hgives document stop rfl).2
    · cases h

end Stencil.Template
