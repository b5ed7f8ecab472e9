import Stencil.Toml.Reader

/-!
# Writing configuration files

Text is written in the plainest form that holds it: basic without escapes, literal, basic over lines,
literal over lines, and basic with escapes. Keys go without quotes where they can.
-/

namespace Stencil.Toml

def longestRun (x : Char) (cs : List Char) : Nat :=
  (cs.foldl (fun (longest, now) c =>
    if c == x then (max longest (now + 1), now + 1) else (longest, 0)) (0, 0)).1

/-- A control character that is no tab and no line break. -/
def isControl (c : Char) : Bool :=
  (c.toNat < 0x20 && c != '\t' && c != '\n') || c.toNat == 0x7F

/-- A character in basic text; over lines a line break stays as it is. -/
def basicChar (lines : Bool) (c : Char) : List Char :=
  match c with
  | '\x08' => ['\\', 'b']
  | '\t' => ['\\', 't']
  | '\n' => if lines then ['\n'] else ['\\', 'n']
  | '\x0c' => ['\\', 'f']
  | '\r' => ['\\', 'r']
  | '\\' => ['\\', '\\']
  | c =>
    if isControl c then
      ['\\', 'u', '0', '0', Nat.digitChar (c.toNat / 16), (Nat.digitChar (c.toNat % 16)).toUpper]
    else [c]

/-- Basic text. At most `quotes` double quotes in a row stay as they are; `run` of them, with no escape
among them, stand before. -/
def basicChars (lines : Bool) (quotes : Nat) : (run : Nat) → List Char → List Char
  | _, [] => []
  | run, c :: rest =>
    if c == '"' then
      if quotes ≤ run then '\\' :: '"' :: basicChars lines quotes 0 rest
      else '"' :: basicChars lines quotes (run + 1) rest
    else basicChar lines c ++ basicChars lines quotes 0 rest

def writeBasic (cs : List Char) : List Char := '"' :: basicChars false 0 0 cs ++ ['"']

def writeLiteral (cs : List Char) : List Char := '\'' :: cs ++ ['\'']

/-- Three quotes around text over lines; text that has a line break starts on a line of its own. -/
def betweenQuotes (quote : Char) (hasBreak : Bool) (body : List Char) : List Char :=
  [quote, quote, quote] ++ (if hasBreak then ['\n'] else []) ++ body ++ [quote, quote, quote]

def writeBasicLines (cs : List Char) : List Char :=
  betweenQuotes '"' (cs.contains '\n') (basicChars true 2 0 cs)

def writeLiteralLines (cs : List Char) : List Char :=
  betweenQuotes '\'' (cs.contains '\n') cs

def writeText (cs : List Char) : List Char :=
  let control := cs.any isControl
  let backslash := cs.contains '\\'
  let hasBreak := cs.contains '\n'
  if !control && !backslash && !hasBreak && longestRun '"' cs = 0 then writeBasic cs
  else if !control && !hasBreak && longestRun '\'' cs = 0 then writeLiteral cs
  else if !control && !backslash && longestRun '"' cs ≤ 2 then writeBasicLines cs
  else if !control && longestRun '\'' cs ≤ 2 then writeLiteralLines cs
  else if hasBreak then writeBasicLines cs
  else writeBasic cs

def writeKey (cs : List Char) : List Char :=
  let control := cs.any fun c => isControl c || c == '\n'
  if !cs.isEmpty && cs.all isBare then cs
  else if !control && !cs.contains '\\' && !cs.contains '"' then writeBasic cs
  else if !control && !cs.contains '\'' then writeLiteral cs
  else writeBasic cs

def entryLine (key value : List Char) : List Char :=
  writeKey key ++ [' ', '=', ' '] ++ value ++ ['\n']

def writeBool (b : Bool) : List Char :=
  if b then ['t', 'r', 'u', 'e'] else ['f', 'a', 'l', 's', 'e']

end Stencil.Toml
