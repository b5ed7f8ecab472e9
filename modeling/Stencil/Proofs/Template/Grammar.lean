import Stencil.Template.Grammar

/-!
# What the grammar reads

A parser that starts at a place in a source and matches ends at a place in this source, and what can be
said of its result follows from its parts (`Parser.Gives`). There is one lemma for each way to put
parsers together, and then one for each production; those that contain themselves are done by induction
on their levels.

* **`gives_template`**: the pieces of a template are *regular*. Their closing tags stand in the source,
  and the blocks of helpers and decorators are opened and closed with names that are made of symbols.
  Only a block around an inclusion can have other names.
-/

namespace Stencil.Template

/-- A place in a source: what stands before it and what follows make up the source. -/
def Cursor.In (source : List Char) (c : Cursor) : Prop := c.before.reverse ++ c.rest = source

theorem Cursor.in_start (source : List Char) : (Cursor.start source).In source := rfl

theorem Cursor.In.forward {source : List Char} {c : Cursor} (h : c.In source) (n : Nat) :
    (c.forward n).In source := by
  unfold In
  rw [reverse_before_append_rest_forward]
  exact h

namespace Parser

/-- Wherever in the source the parser starts, it ends in the source if it matches, with a good
result. -/
def Gives (source : List Char) {α : Type} (p : Parser α) (good : α → Prop) : Prop :=
  ∀ unwanted c furthest, c.In source → ∀ x stop,
    (p unwanted c furthest).found = some (x, stop) → stop.In source ∧ good x

/-- The same, whatever the result is. -/
def Moves (source : List Char) {α : Type} (p : Parser α) : Prop := p.Gives source fun _ => True

section Combinators

variable {source : List Char} {α β : Type} {p q : Parser α} {good : α → Prop} {fine : β → Prop}

/-- A parser whose results are good gives results that satisfy anything weaker. -/
theorem Gives.mono {better : α → Prop} (h : p.Gives source better)
    (hgood : ∀ x, better x → good x) : p.Gives source good := by
  intro unwanted c furthest hc x stop hfound
  obtain ⟨hstop, hx⟩ := h unwanted c furthest hc x stop hfound
  exact ⟨hstop, hgood x hx⟩

theorem Gives.moves (h : p.Gives source good) : p.Moves source := h.mono fun _ _ => trivial

theorem gives_pure {x : α} (h : good x) : (pure x : Parser α).Gives source good := by
  intro unwanted c furthest hc y stop hfound
  cases hfound
  exact ⟨hc, h⟩

theorem moves_pure (x : α) : (pure x : Parser α).Moves source := gives_pure trivial

/-- The second parser goes on from wherever the first has moved to. -/
theorem Gives.bind {next : α → Parser β} (h : p.Gives source good)
    (hnext : ∀ x, good x → (next x).Gives source fine) : (p >>= next).Gives source fine := by
  intro unwanted c furthest hc y stop hfound
  change (Parser.bind p next unwanted c furthest).found = some (y, stop) at hfound
  unfold Parser.bind at hfound
  have hp := h unwanted c furthest hc
  generalize p unwanted c furthest = outcome at hp hfound
  obtain ⟨_ | ⟨x, c'⟩, furthest'⟩ := outcome
  · cases hfound
  · obtain ⟨hc', hx⟩ := hp x c' rfl
    exact hnext x hx unwanted c' furthest' hc' y stop hfound

/-- Of the first of two parsers only matters where it ends. -/
theorem Moves.andThen {next : α → Parser β} (h : p.Moves source)
    (hnext : ∀ x, (next x).Gives source fine) : (p >>= next).Gives source fine :=
  h.bind fun x _ => hnext x

/-- Either alternative starts at the same place. -/
theorem Gives.orElse (h : p.Gives source good) (hq : q.Gives source good) :
    (p <|> q).Gives source good := by
  intro unwanted c furthest hc x stop hfound
  change (Parser.orElse p (fun _ => q) unwanted c furthest).found = some (x, stop) at hfound
  unfold Parser.orElse at hfound
  have hp := h unwanted c furthest hc
  generalize p unwanted c furthest = outcome at hp hfound
  obtain ⟨_ | ⟨y, c'⟩, furthest'⟩ := outcome
  · exact hq unwanted c furthest' hc x stop hfound
  · exact hp x stop hfound

theorem gives_fail : (fail : Parser α).Gives source good := by
  intro unwanted c furthest _ x stop hfound
  cases hfound

theorem gives_here : here.Gives source (Cursor.In source) := by
  intro unwanted c furthest hc x stop hfound
  cases hfound
  exact ⟨hc, hc⟩

/-- Reporting that it goes wrong does not change what a parser gives. -/
theorem Gives.rule (h : p.Gives source good) : (rule p).Gives source good := by
  intro unwanted c furthest hc x stop hfound
  refine h unwanted c furthest hc x stop ?_
  unfold Parser.rule at hfound
  simp only at hfound
  split at hfound
  · exact hfound
  · exact hfound

theorem moves_notAhead : (notAhead p).Moves source := by
  intro unwanted c furthest hc x stop hfound
  unfold notAhead at hfound
  generalize p (!unwanted) c furthest = outcome at hfound
  obtain ⟨_ | ⟨y, c'⟩, furthest'⟩ := outcome
  · cases hfound
    exact ⟨hc, trivial⟩
  · cases hfound

/-- A token gives the part of the source that its scan has taken. -/
theorem gives_token {scan : List Char → Option Nat} {good : List Char → Prop}
    (h : ∀ cs n, scan cs = some n → good (cs.take n)) : (token scan).Gives source good := by
  intro unwanted c furthest hc x stop hfound
  unfold token at hfound
  split at hfound
  · rename_i n hscan
    cases hfound
    exact ⟨hc.forward n, h c.rest n hscan⟩
  · cases hfound

theorem moves_token (scan : List Char → Option Nat) : (token scan).Moves source :=
  gives_token fun _ _ _ => trivial

theorem moves_word (text : List Char) : (word text).Moves source := moves_token _

theorem moves_skip : skip.Moves source := (moves_token _).andThen fun _ => moves_pure _

theorem Gives.optional (h : p.Gives source good) :
    (optional p).Gives source fun x => ∀ y ∈ x, good y := by
  refine Gives.orElse (h.bind fun x hx => gives_pure ?_) (gives_pure ?_)
  · intro y hy
    cases hy
    exact hx
  · intro y hy
    cases hy

theorem Moves.optional (h : p.Moves source) : (optional p).Moves source :=
  (Gives.optional h).moves

/-- Repeating a parser gives a list of good results, by induction on the limit. -/
theorem Gives.further (h : p.Gives source good) (limit : Nat) :
    (further p limit).Gives source fun xs => ∀ x ∈ xs, good x := by
  induction limit with
  | zero => exact gives_pure (List.forall_mem_nil _)
  | succ limit ih =>
    refine Gives.orElse ?_ (gives_pure (List.forall_mem_nil _))
    exact moves_skip.andThen fun _ => h.bind fun x hx => ih.bind fun xs hxs =>
      gives_pure (List.forall_mem_cons.2 ⟨hx, hxs⟩)

theorem Gives.many (h : p.Gives source good) :
    (many p).Gives source fun xs => ∀ x ∈ xs, good x := by
  intro unwanted c furthest
  refine Gives.orElse (h.bind fun x hx => (h.further c.rest.length).bind fun xs hxs => ?_)
    (gives_pure (List.forall_mem_nil _)) unwanted c furthest
  exact gives_pure (List.forall_mem_cons.2 ⟨hx, hxs⟩)

theorem Moves.many (h : p.Moves source) : (many p).Moves source := (Gives.many h).moves

theorem Moves.many1 (h : p.Moves source) : (many1 p).Moves source := by
  intro unwanted c furthest
  have hfurther := (Gives.further h c.rest.length).moves
  exact (Moves.andThen h fun _ => hfurther.andThen fun _ => moves_pure _) unwanted c furthest

theorem Moves.tight (h : p.Moves source) (limit : Nat) : (tight p limit).Moves source := by
  induction limit with
  | zero => exact moves_pure _
  | succ limit ih =>
    exact Gives.orElse (h.andThen fun _ => Moves.andThen ih fun _ => moves_pure _) (moves_pure _)

theorem Moves.textOf (h : p.Moves source) : (textOf p).Moves source :=
  gives_here.moves.andThen fun _ => h.andThen fun _ => gives_here.moves.andThen fun _ => moves_pure _

end Combinators

end Parser

/-! ## Pieces -/

/-- A name that is made of symbols. -/
def IsIdentifier (name : String) : Prop := ∀ c ∈ name.toList, isSymbol c = true

/-- The call of something with a name that is made of symbols. -/
def Call.IsNamed {L : Type} (call : Call L) : Prop :=
  ∃ name, call.head = .name name ∧ IsIdentifier name

/-- A piece of a source whose closing tags stand in it. The blocks of helpers and decorators have names
that are made of symbols, on both sides. -/
inductive Piece.Regular (source : List Char) {L : Type} : Piece L → Prop
  | text (prose : Prose) : Regular source (.text prose)
  | comment (tag : Tag) : Regular source (.comment tag)
  | value (tag : Tag) (call : Call L) (escaped : Bool) : Regular source (.value tag call escaped)
  | block {opening closing : Tag} {call : Call L} {body inverse : List (Piece L)}
      {middle : Option Tag} {name : String} (hcall : call.IsNamed)
      (hbody : ∀ piece ∈ body, Regular source piece)
      (hinverse : ∀ piece ∈ inverse, Regular source piece)
      (hclosing : closing.start.In source) (hname : IsIdentifier name) :
      Regular source (.block opening call body middle inverse closing name)
  | raw {opening closing : Tag} {call : Call L} {prose : Prose} {name : String}
      (hcall : call.IsNamed) (hclosing : closing.start.In source) (hname : IsIdentifier name) :
      Regular source (.raw opening call prose closing name)
  | decorator (tag : Tag) (call : Call L) : Regular source (.decorator tag call)
  | decoratorBlock {opening closing : Tag} {call : Call L} {body : List (Piece L)} {name : String}
      (hcall : call.IsNamed) (hbody : ∀ piece ∈ body, Regular source piece)
      (hclosing : closing.start.In source) (hname : IsIdentifier name) :
      Regular source (.decoratorBlock opening call body closing name)
  | include (tag : Tag) (call : Call L) : Regular source (.include tag call)
  | includeBlock {opening closing : Tag} {call : Call L} {body : List (Piece L)} {name : String}
      (hbody : ∀ piece ∈ body, Regular source piece) (hclosing : closing.start.In source) :
      Regular source (.includeBlock opening call body closing name)

namespace Grammar

open Template.Parser

variable {source : List Char}

/-! ## Literals and paths -/

theorem moves_stringLiteral : stringLiteral.Moves source :=
  ((moves_token _).andThen fun _ => moves_pure _).rule

theorem moves_furtherItems {item : Parser Unit} (h : item.Moves source) :
    (furtherItems item).Moves source := by
  have hitem : (do let _ ← word [',']; skip; item : Parser Unit).Moves source :=
    (moves_word _).andThen fun _ => moves_skip.andThen fun _ => h
  exact hitem.many.andThen fun _ => moves_pure _

theorem moves_bracketed (opening closing : Char) {item : Parser Unit} (h : item.Moves source) :
    (bracketed opening closing item).Moves source := by
  refine Gives.rule ?_
  exact (moves_word _).andThen fun _ => moves_skip.andThen fun _ => h.optional.andThen fun _ =>
    moves_skip.andThen fun _ => (moves_furtherItems h).andThen fun _ =>
    moves_skip.andThen fun _ => (moves_word _).andThen fun _ => moves_pure _

theorem moves_member {value : Parser Unit} (h : value.Moves source) :
    (member value).Moves source :=
  moves_stringLiteral.andThen fun _ => moves_skip.andThen fun _ => (moves_word _).andThen fun _ =>
    moves_skip.andThen fun _ => h

theorem moves_plainLiteral : plainLiteral.Moves source := by
  have hword : (token (scanKeyword ['t', 'r', 'u', 'e']) <|>
      token (scanKeyword ['f', 'a', 'l', 's', 'e'])).Moves source :=
    Gives.orElse (moves_token _) (moves_token _)
  have hnull : (Parser.rule (token (scanKeyword ['n', 'u', 'l', 'l']))).Moves source :=
    Gives.rule (moves_token _)
  have hany := Gives.orElse (Gives.rule (moves_token scanNumber)) (Gives.orElse hnull hword.rule)
  exact hany.moves.andThen fun _ => moves_pure _

/-- By induction on the nesting that is allowed. -/
theorem moves_literal (levels : Nat) : (literal levels).Moves source := by
  induction levels with
  | zero => exact gives_fail
  | succ levels ih =>
    exact Gives.rule (Gives.orElse moves_stringLiteral (Gives.orElse (moves_bracketed _ _ ih)
      (Gives.orElse (moves_bracketed _ _ (moves_member ih)) moves_plainLiteral)))

theorem moves_pathSign : pathSign.Moves source :=
  (Gives.orElse (moves_word _) (moves_word _)).moves.andThen fun _ => moves_pure _

theorem moves_pathName : pathName.Moves source := by
  have hbetween : (do
      let _ ← word ['[']
      let text ← Parser.rule (token fun cs => some (cs.takeWhile (· != ']')).length)
      let _ ← word [']']
      return text : Parser (List Char)).Moves source :=
    (moves_word _).andThen fun _ => (Gives.rule (moves_token _)).moves.andThen fun _ =>
      (moves_word _).andThen fun _ => moves_pure _
  exact (Gives.orElse (Gives.rule (moves_token _)) hbetween).moves.andThen fun _ => moves_pure _

theorem moves_pathMark (text : List Char) (step : PathStep) : (pathMark text step).Moves source :=
  Gives.rule ((moves_word _).andThen fun _ => moves_pure _)

theorem moves_pathSteps : pathSteps.Moves source := by
  have hcurrent : ((do let _ ← word ['t', 'h', 'i', 's']; pathSign) <|>
      (do let _ ← word ['.', '/']; return ()) : Parser Unit).Moves source :=
    Gives.orElse ((moves_word _).andThen fun _ => moves_pathSign)
      ((moves_word _).andThen fun _ => moves_pure _)
  have hmark (text : List Char) (step : PathStep) :
      (do let s ← pathMark text step; pathSign; return s : Parser PathStep).Moves source :=
    (moves_pathMark text step).andThen fun _ => moves_pathSign.andThen fun _ => moves_pure _
  have hname : (do pathSign; pathName : Parser PathStep).Moves source :=
    moves_pathSign.andThen fun _ => moves_pathName
  -- in the order in which the parser reads the parts of a path
  exact hcurrent.optional.andThen fun _ => (hmark _ _).optional.andThen fun _ =>
    (moves_pathMark _ _).optional.andThen fun _ => gives_here.moves.andThen fun _ =>
    ((hmark _ _).tight _).andThen fun _ => moves_pathName.andThen fun _ =>
    (hname.tight _).andThen fun _ => moves_pure _

theorem moves_reference : reference.Moves source :=
  Gives.rule (gives_here.moves.andThen fun _ => moves_pathSteps.andThen fun _ =>
    gives_here.moves.andThen fun _ => moves_pure _)

/-! ## Arguments and calls -/

/-- An identifier is what its scan takes, read as text. -/
theorem gives_identifier : identifier.Gives source IsIdentifier := by
  have hscan : (token scanIdentifier).Gives source fun cs => ∀ c ∈ cs, isSymbol c = true := by
    refine gives_token fun cs n hscan => ?_
    unfold scanIdentifier scanClass at hscan
    split at hscan
    · cases hscan
    · cases hscan
      rw [← List.prefix_iff_eq_take.1 (List.takeWhile_prefix isSymbol)]
      exact List.all_eq_true.1 List.all_takeWhile
  refine hscan.rule.bind fun cs hcs => gives_pure ?_
  intro c hc
  rw [String.toList_ofList] at hc
  exact hcs c hc

theorem moves_partialName : partialName.Moves source :=
  (Gives.rule (moves_token _)).moves.andThen fun _ => moves_pure _

theorem moves_pathOperand : pathOperand.Moves source :=
  moves_reference.andThen fun _ => moves_pure _

section Values

variable {value : Parser (Operand LiteralText)} (h : value.Moves source)

include h

theorem moves_argument : (argument value).Moves source := by
  have hkeyed : (do
      let key ← identifier
      skip
      let _ ← word ['=']
      skip
      return (some key, ← value) : Parser (Option String × Operand LiteralText)).Moves source :=
    gives_identifier.moves.andThen fun _ => moves_skip.andThen fun _ =>
      (moves_word _).andThen fun _ => moves_skip.andThen fun _ => h.andThen fun _ => moves_pure _
  exact Gives.orElse hkeyed.rule (h.andThen fun _ => moves_pure _)

theorem moves_application : (application value).Moves source :=
  gives_identifier.moves.andThen fun _ => moves_skip.andThen fun _ =>
    (moves_argument h).many1.andThen fun _ => moves_pure _

theorem moves_subexpression : (subexpression value).Moves source := by
  have hcall := Gives.orElse (moves_application h)
    (moves_pathOperand.andThen fun head => moves_pure ({ head } : Call LiteralText))
  exact Gives.rule ((moves_word _).andThen fun _ => moves_skip.andThen fun _ =>
    hcall.moves.andThen fun _ => moves_skip.andThen fun _ => (moves_word _).andThen fun _ =>
    moves_pure _)

end Values

/-- Values nest as deep as the levels allow; the induction is on them. -/
theorem moves_value (levels : Nat) : (value levels).Moves source := by
  induction levels with
  | zero => exact gives_fail
  | succ levels ih =>
    have hliteral : (do return .literal (← textOf (literal levels)) :
        Parser (Operand LiteralText)).Moves source :=
      (moves_literal levels).textOf.andThen fun _ => moves_pure _
    exact Gives.rule (moves_notAhead.andThen fun _ => moves_skip.andThen fun _ =>
      Gives.orElse hliteral (Gives.orElse moves_pathOperand (moves_subexpression ih)))

theorem moves_name (levels : Nat) : (name levels).Moves source :=
  Gives.orElse (moves_subexpression (moves_value levels)) moves_pathOperand

theorem moves_expression (levels : Nat) : (expression levels).Moves source :=
  Gives.orElse (moves_application (moves_value levels))
    ((moves_name levels).andThen fun _ => moves_pure _)

theorem moves_blockParam : blockParam.Moves source := by
  refine Gives.rule ?_
  exact (moves_word _).andThen fun _ => moves_skip.andThen fun _ => (moves_word _).andThen fun _ =>
    moves_skip.andThen fun _ => gives_identifier.moves.andThen fun _ =>
    moves_skip.andThen fun _ => gives_identifier.moves.optional.andThen fun _ =>
    moves_skip.andThen fun _ => (moves_word _).andThen fun _ => moves_pure _

/-- The name of a block is made of symbols. -/
theorem gives_blockCall (levels : Nat) : (blockCall levels).Gives source Call.IsNamed := by
  refine gives_identifier.bind fun name hname => ?_
  exact moves_skip.andThen fun _ => (moves_argument (moves_value levels)).many.andThen fun _ =>
    moves_skip.andThen fun _ => moves_blockParam.optional.andThen fun _ =>
    gives_pure ⟨name, rfl, hname⟩

theorem moves_includeCall (levels : Nat) : (includeCall levels).Moves source := by
  have hname : (do return .name (← partialName) : Parser (Operand LiteralText)).Moves source :=
    moves_partialName.andThen fun _ => moves_pure _
  have hhead := Gives.orElse hname (moves_name levels)
  exact hhead.moves.andThen fun _ => moves_skip.andThen fun _ =>
    (moves_argument (moves_value levels)).many.andThen fun _ => moves_pure _

/-! ## Tags -/

theorem moves_trimMark : trimMark.Moves source :=
  (Gives.rule (moves_word _)).moves.optional.andThen fun _ => moves_pure _

/-- A tag starts in the source, and holds what its content gives. -/
theorem gives_tag (opening closing : List Char) {α : Type} {content : Parser α} {good : α → Prop}
    (h : content.Gives source good) :
    (tag opening closing content).Gives source fun found =>
      found.1.start.In source ∧ good found.2 := by
  refine gives_here.bind fun start hstart => ?_
  exact (moves_word _).andThen fun _ => moves_skip.andThen fun _ => moves_trimMark.andThen fun _ =>
    moves_skip.andThen fun _ => h.bind fun x hx => moves_skip.andThen fun _ =>
    moves_trimMark.andThen fun _ => moves_skip.andThen fun _ => (moves_word _).andThen fun _ =>
    gives_here.moves.andThen fun _ => gives_pure ⟨hstart, hx⟩

theorem gives_after (sign : Char) {α : Type} {content : Parser α} {good : α → Prop}
    (h : content.Gives source good) : (after sign content).Gives source good :=
  (moves_word _).andThen fun _ => moves_skip.andThen fun _ => h

theorem moves_middleTag : middleTag.Moves source := by
  have hmark : (Parser.rule (word ['e', 'l', 's', 'e'] <|> word ['^'])).Moves source :=
    Gives.rule (Gives.orElse (moves_word _) (moves_word _))
  exact Gives.rule (moves_notAhead.andThen fun _ => moves_skip.andThen fun _ =>
    (gives_tag opening closing hmark).moves.andThen fun _ => moves_pure _)

/-- A tag gives a piece that has its place in the source. -/
theorem gives_valueTag (levels : Nat) :
    (valueTag levels).Gives source (Piece.Regular source) := by
  refine Gives.rule (moves_notAhead.andThen fun _ => moves_skip.andThen fun _ => ?_)
  exact (gives_tag opening closing (moves_expression levels)).moves.andThen fun found =>
    gives_pure (.value found.1 found.2 true)

theorem gives_plainValueTag (levels : Nat) :
    (plainValueTag levels).Gives source (Piece.Regular source) := by
  have hbraces : (do
      let call ← expression levels
      skip
      let _ ← word ['\x7d']
      return call : Parser (Call LiteralText)).Moves source :=
    (moves_expression levels).andThen fun _ => moves_skip.andThen fun _ =>
      (moves_word _).andThen fun _ => moves_pure _
  have hname : (do return { head := ← name levels } : Parser (Call LiteralText)).Moves source :=
    (moves_name levels).andThen fun _ => moves_pure _
  -- three braces, two braces with a brace inside, or an ampersand
  have hany := Gives.orElse
    (gives_tag ['\x7b', '\x7b', '\x7b'] ['\x7d', '\x7d', '\x7d'] (moves_expression levels))
    (Gives.orElse (gives_tag opening closing (gives_after '\x7b' hbraces))
      (gives_tag opening closing (gives_after '&' hname)))
  exact Gives.rule (hany.moves.andThen fun found => gives_pure (.value found.1 found.2 false))

theorem gives_blockStart {content : Parser (Call LiteralText)} {good : Call LiteralText → Prop}
    (h : content.Gives source good) :
    (blockStart content).Gives source fun found => good found.2 :=
  Gives.rule ((gives_tag opening closing (gives_after '#' h)).mono fun _ hfound => hfound.2)

/-- The closing tag of a block keeps where it starts, which an error is placed at. -/
theorem gives_blockEnd {name : Parser String} {good : String → Prop}
    (h : name.Gives source good) :
    (blockEnd name).Gives source fun found => found.1.start.In source ∧ good found.2 :=
  Gives.rule (gives_tag opening closing (gives_after '/' h))

/-! ## Templates -/

theorem moves_prose (mark : List Char) : (prose mark).Moves source := by
  intro unwanted c furthest hc x stop hfound
  cases hfound
  exact ⟨hc.forward _, trivial⟩

theorem gives_text : text.Gives source (Piece.Regular source) := by
  intro unwanted c furthest hc x stop hfound
  have hprose := moves_prose tagMark unwanted c furthest hc
  unfold text at hfound
  generalize prose tagMark unwanted c furthest = outcome at hprose hfound
  obtain ⟨_ | ⟨prose, stop'⟩, furthest'⟩ := outcome
  · cases hfound
  · simp only at hfound
    split at hfound
    · cases hfound
    · cases hfound
      exact ⟨(hprose prose stop rfl).1, .text prose⟩

theorem gives_comment : comment.Gives source (Piece.Regular source) :=
  Gives.rule (gives_here.moves.andThen fun _ => (moves_token _).andThen fun _ =>
    gives_here.moves.andThen fun _ => gives_pure (.comment _))

section Nested

variable (levels : Nat) {template : Parser (List (Piece LiteralText))}
  (h : template.Gives source fun pieces => ∀ piece ∈ pieces, piece.Regular source)

include h

/-- A block is regular if its bodies are and its closing tag stands in the source. -/
theorem gives_block : (block levels template).Gives source (Piece.Regular source) := by
  refine (gives_blockStart (gives_blockCall levels)).bind fun start hcall => ?_
  refine moves_skip.andThen fun _ => h.bind fun body hbody => moves_skip.andThen fun _ => ?_
  have hsecond : (do
      let middle ← middleTag
      skip
      return (middle, ← template) : Parser (Tag × List (Piece LiteralText))).Gives source
        fun found => ∀ piece ∈ found.2, piece.Regular source :=
    moves_middleTag.andThen fun _ => moves_skip.andThen fun _ => h.bind fun inverse hinverse =>
      gives_pure hinverse
  refine hsecond.optional.bind fun second hinverse => moves_skip.andThen fun _ => ?_
  refine (gives_blockEnd gives_identifier).bind fun stop hstop => gives_pure ?_
  -- without an inverse there is nothing more to show
  cases second with
  | none => exact .block hcall hbody (List.forall_mem_nil _) hstop.1 hstop.2
  | some second => exact .block hcall hbody (hinverse second rfl) hstop.1 hstop.2

theorem gives_decoratorBlock :
    (decoratorBlock levels template).Gives source (Piece.Regular source) := by
  refine (gives_blockStart (gives_after '*' (gives_blockCall levels))).bind fun start hcall => ?_
  refine moves_skip.andThen fun _ => h.bind fun body hbody => moves_skip.andThen fun _ => ?_
  exact (gives_blockEnd gives_identifier).bind fun stop hstop =>
    gives_pure (.decoratorBlock hcall hbody hstop.1 hstop.2)

theorem gives_includeBlock :
    (includeBlock levels template).Gives source (Piece.Regular source) := by
  have hstart : (blockStart (after '>' (includeCall levels))).Moves source :=
    (gives_blockStart (gives_after '>' (moves_includeCall levels))).moves
  refine hstart.andThen fun start => moves_skip.andThen fun _ => ?_
  refine h.bind fun body hbody => moves_skip.andThen fun _ => ?_
  exact (gives_blockEnd moves_partialName).bind fun stop hstop =>
    gives_pure (.includeBlock hbody hstop.1)

end Nested

/-- The body of a raw block is prose, so nothing nests. -/
theorem gives_rawBlock (levels : Nat) :
    (rawBlock levels).Gives source (Piece.Regular source) := by
  refine (gives_tag rawMark _ (gives_blockCall levels)).rule.bind fun start hcall => ?_
  refine moves_skip.andThen fun _ => (moves_prose _).andThen fun _ => moves_skip.andThen fun _ => ?_
  exact (gives_tag rawMark _ (gives_after '/' gives_identifier)).rule.bind fun stop hstop =>
    gives_pure (.raw hcall.2 hstop.1 hstop.2)

theorem gives_decorator (levels : Nat) :
    (decorator levels).Gives source (Piece.Regular source) := by
  refine Gives.rule ?_
  exact (gives_tag opening closing (gives_after '*' (gives_blockCall levels))).moves.andThen
    fun found => gives_pure (.decorator found.1 found.2)

theorem gives_includeTag (levels : Nat) :
    (includeTag levels).Gives source (Piece.Regular source) := by
  refine Gives.rule ?_
  exact (gives_tag opening closing (gives_after '>' (moves_includeCall levels))).moves.andThen
    fun found => gives_pure (.include found.1 found.2)

/-- The pieces of a template are regular, however deep they are nested. -/
theorem gives_template (levels : Nat) :
    (template levels).Gives source fun pieces => ∀ piece ∈ pieces, piece.Regular source := by
  induction levels with
  | zero => exact gives_fail
  | succ levels ih =>
    refine Gives.rule (Gives.many ?_)
    exact gives_text.orElse <| (gives_valueTag levels).orElse <|
      (gives_plainValueTag levels).orElse <| (gives_block levels ih).orElse <|
      (gives_rawBlock levels).orElse <| gives_comment.orElse <| (gives_decorator levels).orElse <|
      (gives_decoratorBlock levels ih).orElse <| (gives_includeTag levels).orElse <|
      gives_includeBlock levels ih

/-- All pieces of a document are regular. -/
theorem gives_document (levels : Nat) : (document levels).Gives source fun found =>
    ∀ piece ∈ found.pieces, piece.Regular source := by
  have hend : endOfSource.Moves source :=
    Gives.rule ((moves_token _).andThen fun _ => moves_pure _)
  refine (gives_template levels).bind fun pieces hpieces => moves_skip.andThen fun _ => ?_
  exact gives_here.moves.andThen fun _ => hend.andThen fun _ => gives_pure hpieces

end Grammar

end Stencil.Template
