import Stencil.Proofs.Toml.Quoted
import Stencil.Proofs.Toml.Table

/-!
# Lines read back

A line that the writer makes sets its key to its value (`assignment_chars`), and a header opens its table.
What the lines of a file make of a table is a relation (`Makes`) that is read off line by line, so a list
of lines sets all its values in the table that the file is in (`Makes.values`).
-/

namespace Stencil.Toml

/-! ## Keys -/

/-- A character that a written key may start with. -/
def startsKey (c : Char) : Bool := isBare c || c == '"' || c == '\''

theorem startsKey_of_isBare {c : Char} (h : isBare c = true) : startsKey c = true := by
  simp [startsKey, h]

/-- A key does not start like a table or a comment. -/
theorem ne_of_startsKey {c d : Char} (h : startsKey c = true) (hd : startsKey d = false) :
    c ≠ d := by
  rintro rfl
  rw [h] at hd
  cases hd

/-- A key is written bare if it is not empty and needs no quotes. -/
theorem bare_iff {cs : List Char} :
    (!cs.isEmpty && cs.all isBare) = true ↔ cs ≠ [] ∧ ∀ c ∈ cs, isBare c = true := by
  simp

/-- A written key is not empty, and starts with a letter or a quote. -/
theorem exists_writeKey_eq_cons (cs : List Char) :
    ∃ c rest, writeKey cs = c :: rest ∧ startsKey c = true := by
  have hbasic : ∃ c rest, writeBasic cs = c :: rest ∧ startsKey c = true := ⟨_, _, rfl, rfl⟩
  unfold writeKey
  simp only
  -- bare, and otherwise in one of the two kinds of quotes
  split
  · rename_i h
    obtain ⟨hne, hbare⟩ := bare_iff.1 h
    obtain ⟨c, rest, rfl⟩ := List.exists_cons_of_ne_nil hne
    exact ⟨c, rest, rfl, startsKey_of_isBare (hbare c List.mem_cons_self)⟩
  split
  · exact hbasic
  split
  · exact ⟨_, _, rfl, rfl⟩
  · exact hbasic

section Start

variable {c : Char} (h : startsKey c = true)

include h

/-- No blanks stand before a key that is written. -/
theorem skipBlanks_of_startsKey (rest : List Char) : skipBlanks (c :: rest) = c :: rest := by
  have hblank : isBlank c = false := by
    unfold isBlank
    rw [beq_false_of_ne (ne_of_startsKey h rfl), beq_false_of_ne (ne_of_startsKey h rfl)]
    rfl
  exact List.dropWhile_cons_of_neg (by simp [hblank])

theorem skipLines_of_startsKey (rest : List Char) :
    skipLines false (c :: rest) = some (c :: rest) := by
  have hblank : (isBlank c || c == '\n') = false := by
    unfold isBlank
    rw [beq_false_of_ne (ne_of_startsKey h rfl), beq_false_of_ne (ne_of_startsKey h rfl),
      beq_false_of_ne (ne_of_startsKey h rfl)]
    rfl
  have hcomment : (c == '#') = false := beq_false_of_ne (ne_of_startsKey h rfl)
  rw [skipLines]
  · simp only [hblank, hcomment, Bool.false_eq_true, if_false]
  · intro more heq
    exact absurd heq (ne_of_startsKey h rfl)

end Start

section Keys

variable {cs rest : List Char}

/-- A bare key is read up to the first character that cannot belong to it. -/
theorem simpleKey_of_bare (hne : cs ≠ []) (hbare : ∀ c ∈ cs, isBare c = true)
    (hrest : ∀ c ∈ rest.head?, isBare c = false) :
    simpleKey (cs ++ rest) = some (String.ofList cs, rest) := by
  obtain ⟨c, more, rfl⟩ := List.exists_cons_of_ne_nil hne
  have hc : isBare c = true := hbare c List.mem_cons_self
  -- a quote is not bare, so the key is not taken for a quoted one
  have hquote : c ≠ '"' ∧ c ≠ '\'' :=
    ⟨by rintro rfl; exact absurd hc (by decide), by rintro rfl; exact absurd hc (by decide)⟩
  have htake : ((c :: more) ++ rest).takeWhile isBare = c :: more := by
    rw [List.takeWhile_append_of_pos hbare]
    cases rest with
    | nil => exact List.append_nil _
    | cons d rest =>
      rw [List.takeWhile_cons_of_neg (by simp [hrest d rfl]), List.append_nil]
  have hdrop : ((c :: more) ++ rest).dropWhile isBare = rest := by
    rw [List.dropWhile_append_of_pos hbare]
    cases rest with
    | nil => rfl
    | cons d rest => exact List.dropWhile_cons_of_neg (by simp [hrest d rfl])
  unfold simpleKey
  split
  · rename_i heq
    cases heq
    exact absurd rfl hquote.1
  · rename_i heq
    cases heq
    exact absurd rfl hquote.2
  · rw [htake, hdrop]

/-- A quoted key is read as a text on one line. -/
theorem simpleKey_of_lineText {basic : Bool} {text : List Char}
    (h : lineText (mark basic :: cs) = some (text, rest)) :
    simpleKey (mark basic :: cs) = some (String.ofList text, rest) := by
  cases basic with
  | true =>
    show (lineText (mark true :: cs)).map _ = _
    rw [h]
    rfl
  | false =>
    show (lineText (mark false :: cs)).map _ = _
    rw [h]
    rfl

/-- Any text is read back from the key in which it is written. -/
theorem simpleKey_writeKey (hrest : ∀ c ∈ rest.head?, isBare c = false) :
    simpleKey (writeKey cs ++ rest) = some (String.ofList cs, rest) := by
  have hbasic : simpleKey (writeBasic cs ++ rest) = some (String.ofList cs, rest) := by
    rw [writeBasic_append]
    exact simpleKey_of_lineText (lineText_of_spells (spells_basicChars false cs 0) rest)
  unfold writeKey
  simp only
  split
  · rename_i h
    exact simpleKey_of_bare (bare_iff.1 h).1 (bare_iff.1 h).2 hrest
  split
  · exact hbasic
  split
  · rename_i _ _ h
    simp only [Bool.and_eq_true, Bool.not_eq_true', List.any_eq_false, Bool.or_eq_true, beq_iff_eq,
      not_or, List.contains_eq_mem, decide_eq_false_iff_not] at h
    -- the writer has looked for everything that a literal text may not hold
    have hcontrol : cs.any isControl = false := List.any_eq_false.2 fun c hc => (h.1 c hc).1
    have hspells : Spells false false 0 cs cs := by
      refine spells_literal hcontrol (fun _ hmem => (h.1 _ hmem).2 rfl) ?_
      exact Nat.le_of_eq (longestRun_eq_zero h.2)
    rw [writeLiteral_append]
    exact simpleKey_of_lineText (lineText_of_spells hspells rest)
  · exact hbasic

variable {parts : Nat} {part : String}

/-- Without a dot behind it, a part ends the key. -/
theorem dottedKey_last (hpart : simpleKey (skipBlanks cs) = some (part, rest))
    (hno : ∀ more, skipBlanks rest ≠ '.' :: more) :
    dottedKey (parts + 1) cs = some (([], part), skipBlanks rest) := by
  rw [dottedKey, hpart]
  simp only [Option.bind_eq_bind, Option.bind_some]
  rfl

/-- With a dot behind it, a part is followed by the rest of the key. -/
theorem dottedKey_dot {path : List String} {last : String} {more rest' : List Char}
    (hpart : simpleKey (skipBlanks cs) = some (part, rest)) (hdot : skipBlanks rest = '.' :: more)
    (hmore : dottedKey parts more = some ((path, last), rest')) :
    dottedKey (parts + 1) cs = some ((part :: path, last), rest') := by
  rw [dottedKey, hpart]
  simp only [Option.bind_eq_bind, Option.bind_some, hdot, hmore]
  rfl

def dotted : (path : List String) → (key : String) → List Char
  | [], key => key.toList
  | part :: path, key => part.toList ++ '.' :: dotted path key

def isBareName (name : String) : Bool := !name.toList.isEmpty && name.toList.all isBare

theorem simpleKey_of_isBareName {name : String} (h : isBareName name = true)
    (hrest : ∀ c ∈ rest.head?, isBare c = false) :
    simpleKey (skipBlanks (name.toList ++ rest)) = some (name, rest) := by
  obtain ⟨hne, hbare⟩ := bare_iff.1 h
  have hread := simpleKey_of_bare hne hbare hrest
  rw [String.ofList_toList] at hread
  obtain ⟨c, more, hcons⟩ := List.exists_cons_of_ne_nil hne
  have hstarts : startsKey c = true := startsKey_of_isBare (hbare c (hcons ▸ List.mem_cons_self))
  rw [hcons, List.cons_append] at hread ⊢
  rw [skipBlanks_of_startsKey hstarts, hread]

/-- A key of names that need no quotes is read up to what ends a header. -/
theorem dottedKey_dotted {path : List String} {last : String} (hlength : path.length < parts)
    (hpath : ∀ part ∈ path, isBareName part = true) (hlast : isBareName last = true)
    (rest : List Char) :
    dottedKey parts (dotted path last ++ ']' :: rest) = some ((path, last), ']' :: rest) := by
  induction path generalizing parts with
  | nil =>
    obtain _ | parts := parts
    · cases hlength
    · have hread : simpleKey (skipBlanks (last.toList ++ ']' :: rest)) = some (last, ']' :: rest) :=
        simpleKey_of_isBareName hlast (by simp; decide)
      -- the bracket of the header ends the key
      refine dottedKey_last hread ?_
      intro more heq
      cases heq
  | cons part path ih =>
    obtain _ | parts := parts
    · cases hlength
    · have hread : simpleKey (skipBlanks
          (part.toList ++ '.' :: (dotted path last ++ ']' :: rest))) =
            some (part, '.' :: (dotted path last ++ ']' :: rest)) :=
        simpleKey_of_isBareName (hpath part List.mem_cons_self) (by simp; decide)
      rw [dotted, List.append_assoc, List.cons_append]
      exact dottedKey_dot hread rfl
        (ih (Nat.lt_of_succ_lt_succ hlength) fun p hp => hpath p (List.mem_cons_of_mem _ hp))

/-- Such a key starts with a letter. -/
theorem exists_dotted_eq_cons {path : List String} {last : String}
    (hpath : ∀ part ∈ path, isBareName part = true) (hlast : isBareName last = true) :
    ∃ c more, dotted path last = c :: more ∧ c ≠ '[' := by
  have hname : ∀ name, isBareName name = true → ∃ c more, name.toList = c :: more ∧ c ≠ '[' := by
    intro name h
    obtain ⟨hne, hbare⟩ := bare_iff.1 h
    obtain ⟨c, more, hcons⟩ := List.exists_cons_of_ne_nil hne
    have hstarts := startsKey_of_isBare (hbare c (hcons ▸ List.mem_cons_self))
    exact ⟨c, more, hcons, ne_of_startsKey hstarts rfl⟩
  -- a second bracket would open an array of tables
  cases path with
  | nil => exact hname last hlast
  | cons part path =>
    obtain ⟨c, more, hcons, hbracket⟩ := hname part (hpath part List.mem_cons_self)
    exact ⟨c, more ++ '.' :: dotted path last, by rw [dotted, hcons]; rfl, hbracket⟩

end Keys

/-! ## Lines -/

/-- A line with the key and the value that it sets. -/
structure Line where
  key : String
  written : List Char
  value : Value
  read : ∀ rest, Toml.value maxDepth (skipBlanks (written ++ '\n' :: rest)) =
    some (value, '\n' :: rest)

namespace Line

def chars (l : Line) : List Char := entryLine l.key.toList l.written

def entry (l : Line) : String × Value := (l.key, l.value)

/-- A quote makes the value a text. -/
theorem value_of_quotedText {basic : Bool} {cs text rest : List Char}
    (h : quotedText (mark basic :: cs) = some (text, rest)) (depth : Nat) :
    Toml.value depth (mark basic :: cs) = some (.text (String.ofList text), rest) := by
  cases basic with
  | true =>
    show Toml.value depth ('"' :: cs) = _
    rw [Toml.value]
    show (quotedText (mark true :: cs)).map _ = _
    rw [h]
    rfl
  | false =>
    show Toml.value depth ('\'' :: cs) = _
    rw [Toml.value]
    show (quotedText (mark false :: cs)).map _ = _
    rw [h]
    rfl

/-- A written text starts with a quote. -/
theorem exists_writeText_eq_cons (cs : List Char) :
    ∃ basic rest, writeText cs = mark basic :: rest := by
  -- six ways to write a text, all of which start with a quote
  unfold writeText
  simp only
  split
  · exact ⟨true, _, rfl⟩
  split
  · exact ⟨false, _, rfl⟩
  split
  · exact ⟨true, _, rfl⟩
  split
  · exact ⟨false, _, rfl⟩
  split
  · exact ⟨true, _, rfl⟩
  · exact ⟨true, _, rfl⟩

def ofText (key text : String) : Line where
  key
  written := writeText text.toList
  value := .text text
  read rest := by
    have hread : quotedText (writeText text.toList ++ '\n' :: rest) =
        some (text.toList, '\n' :: rest) :=
      quotedText_writeText (by simp) (by simp)
    obtain ⟨basic, written, hwritten⟩ := exists_writeText_eq_cons text.toList
    rw [hwritten, List.cons_append] at hread ⊢
    have hstarts : startsKey (mark basic) = true := by cases basic <;> rfl
    rw [skipBlanks_of_startsKey hstarts, value_of_quotedText hread, String.ofList_toList]

def ofBool (key : String) (b : Bool) : Line where
  key
  written := writeBool b
  value := .boolean b
  read rest := by
    cases b <;> rfl

/-- A line starts with its key. -/
theorem exists_chars_eq_cons (l : Line) : ∃ c rest, l.chars = c :: rest ∧ startsKey c = true := by
  obtain ⟨c, more, hcons, hstarts⟩ := exists_writeKey_eq_cons l.key.toList
  refine ⟨c, more ++ [' ', '=', ' '] ++ l.written ++ ['\n'], ?_, hstarts⟩
  unfold chars entryLine
  rw [hcons]
  rfl

/-- A line is read as its key and its value. -/
theorem assignment_chars (l : Line) (rest : List Char) :
    assignment (Toml.value maxDepth) (l.chars ++ rest) =
      some ((([], l.key), l.value), '\n' :: rest) := by
  have hchars : l.chars ++ rest =
      writeKey l.key.toList ++ ' ' :: '=' :: ' ' :: (l.written ++ '\n' :: rest) := by
    simp [chars, entryLine]
  have hsimple : simpleKey (writeKey l.key.toList ++
      ' ' :: '=' :: ' ' :: (l.written ++ '\n' :: rest)) =
        some (String.ofList l.key.toList, ' ' :: '=' :: ' ' :: (l.written ++ '\n' :: rest)) :=
    simpleKey_writeKey (by simp; decide)
  -- after the key there are blanks and the equals sign
  have hkey : Toml.key (l.chars ++ rest) =
      some (([], l.key), skipBlanks (' ' :: '=' :: ' ' :: (l.written ++ '\n' :: rest))) := by
    obtain ⟨c, more, hcons, hstarts⟩ := exists_writeKey_eq_cons l.key.toList
    rw [String.ofList_toList, hcons, List.cons_append] at hsimple
    rw [hchars, hcons, List.cons_append]
    refine dottedKey_last (by rw [skipBlanks_of_startsKey hstarts, hsimple]) ?_
    intro more heq
    cases heq
  unfold assignment
  rw [hkey]
  show (Toml.value maxDepth (skipBlanks (l.written ++ '\n' :: rest))).bind _ = _
  rw [l.read]
  rfl

end Line

/-- A header between its brackets. -/
theorem header_dotted {path : List String} {last : String} (hlength : path.length < maxDepth)
    (hpath : ∀ part ∈ path, isBareName part = true) (hlast : isBareName last = true)
    (rest : List Char) :
    header [']'] (dotted path last ++ ']' :: '\n' :: rest) = some ((path, last), rest) := by
  have hkey : key (dotted path last ++ ']' :: '\n' :: rest) =
      some ((path, last), ']' :: '\n' :: rest) :=
    dottedKey_dotted hlength hpath hlast _
  unfold header
  rw [hkey]
  rfl

/-! ## Files -/

/-- What lines make of a table, if they add to the table in it that a path leads to. -/
def Makes (inside : List String) (t : Table) (cs : List Char) (result : Table) : Prop :=
  ∀ fuel, cs.length < fuel → lines fuel inside t cs = some result

namespace Makes

variable {inside : List String} {t t' result : Table} {rest : List Char}

theorem nil (inside : List String) (t : Table) : Makes inside t [] t := by
  intro fuel hfuel
  obtain _ | fuel := fuel
  · cases hfuel
  · rfl

/-- A line that sets a value. -/
theorem line {l : Line} (h : Makes inside t' rest result)
    (hset : t.change false (Table.assign [] l.key l.value) inside = some t') :
    Makes inside t (l.chars ++ rest) result := by
  intro fuel hfuel
  obtain _ | fuel := fuel
  · cases hfuel
  have hshorter : rest.length < fuel := by
    simp only [Line.chars, entryLine, List.length_append, List.length_singleton] at hfuel
    omega
  have hread := l.assignment_chars rest
  obtain ⟨c, more, hcons, hstarts⟩ := l.exists_chars_eq_cons
  rw [hcons, List.cons_append] at hread ⊢
  rw [lines, skipLines_of_startsKey hstarts]
  simp only [Option.bind_eq_bind, Option.bind_some]
  split
  · -- the line starts a key, so it is neither the end nor a header of either kind
    rename_i heq
    cases heq
  · rename_i heq
    exact absurd (List.cons.inj heq).1 (ne_of_startsKey hstarts rfl)
  · rename_i heq
    exact absurd (List.cons.inj heq).1 (ne_of_startsKey hstarts rfl)
  · rw [hread]
    simp only [Option.bind_some, hset]
    exact h fuel hshorter

/-- A blank line with a header behind it. -/
theorem header {path : List String} {last : String} (h : Makes (path ++ [last]) t' rest result)
    (hopen : t.openTable path last = some t') (hlength : path.length < maxDepth)
    (hpath : ∀ part ∈ path, isBareName part = true) (hlast : isBareName last = true) :
    Makes inside t ('\n' :: '[' :: (dotted path last ++ ']' :: '\n' :: rest)) result := by
  intro fuel hfuel
  obtain _ | fuel := fuel
  · cases hfuel
  have hshorter : rest.length < fuel := by
    simp only [List.length_cons, List.length_append] at hfuel
    omega
  have hread := header_dotted hlength hpath hlast rest
  obtain ⟨c, more, hcons, hbracket⟩ := exists_dotted_eq_cons hpath hlast
  -- the empty line before the header is skipped
  have hlines : skipLines false ('\n' :: '[' :: (dotted path last ++ ']' :: '\n' :: rest)) =
      some ('[' :: (dotted path last ++ ']' :: '\n' :: rest)) := rfl
  rw [lines, hlines]
  rw [hcons, List.cons_append] at hread ⊢
  simp only [Option.bind_eq_bind, Option.bind_some]
  split
  · rename_i heq
    cases heq
  · rename_i heq
    cases heq
    exact absurd rfl hbracket
  · rename_i heq
    cases heq
    simp only [hread, Option.bind_some, hopen]
    exact h fuel hshorter
  · rename_i hno
    exact absurd rfl (hno _)

/-- A list of lines sets all its values, in the table that the file is in. -/
theorem values {around : Table → Table} (hleads : Table.Leads inside around) {inner : Table}
    (hdotted : inner.dotted = false) {ls : List Line} (hnodup : (ls.map Line.key).Nodup)
    (hfree : ∀ l ∈ ls, inner.entries.lookup l.key = none)
    (h : Makes inside (around (inner.setting (ls.map Line.entry))) rest result) :
    Makes inside (around inner) (ls.flatMap Line.chars ++ rest) result := by
  induction ls generalizing inner with
  | nil =>
    rw [List.map_nil, Table.setting_nil] at h
    exact h
  | cons l ls ih =>
    obtain ⟨hnew, hnodup⟩ := List.nodup_cons.1 hnodup
    have hset := hleads.assign hdotted (hfree l List.mem_cons_self) l.value
    -- the keys of the other lines are still free, since no two lines share one
    have hstill : ∀ other ∈ ls, (inner.setting [l.entry]).entries.lookup other.key = none := by
      intro other hother
      refine Table.lookup_setting (hfree other (List.mem_cons_of_mem _ hother)) ?_
      intro entry hentry heq
      rw [List.mem_singleton.1 hentry] at heq
      exact hnew (List.mem_map.2 ⟨other, hother, heq.symm⟩)
    have hrest : Makes inside (around (inner.setting [l.entry])) (ls.flatMap Line.chars ++ rest)
        result := by
      refine ih hdotted hnodup hstill ?_
      rw [Table.setting_setting]
      exact h
    rw [List.flatMap_cons, List.append_assoc]
    exact hrest.line hset

end Makes

/-- A file that starts with a line is read as what its lines make of an empty table. -/
theorem read?_of_makes {l : Line} {rest : List Char} {result : Table}
    (h : Makes [] {} (l.chars ++ rest) result) :
    read? (String.ofList (l.chars ++ rest)) = some (.table result.frozen) := by
  -- one character more than the text is fuel enough
  have hlines := h _ (Nat.lt_succ_self _)
  obtain ⟨c, more, hcons, hstarts⟩ := l.exists_chars_eq_cons
  rw [hcons, List.cons_append] at hlines ⊢
  unfold read?
  rw [String.toList_ofList]
  split
  · -- no byte order mark is in front
    rename_i heq
    exact absurd (List.cons.inj heq).1 (ne_of_startsKey hstarts (by decide))
  · show (lines _ _ _ _).map _ = _
    rw [hlines]
    rfl

end Stencil.Toml
