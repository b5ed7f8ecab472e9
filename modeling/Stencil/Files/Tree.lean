import Stencil.Path.Basic

/-!
# File trees

A file system as a value: directories of named entries, which are files, further directories or
symbolic links. A location is the list of names from the root down to an entry, with no link on the
way.
-/

namespace Stencil.Files

inductive Content where
  | text (text : String)
  | binary
deriving DecidableEq, Repr, Inhabited

abbrev Name := List Char

inductive Node where
  | file (content : Content)
  | directory (entries : List (Name × Node))
  | link (target : Path)
deriving Repr, Inhabited

/-- The names from the root to an entry. -/
abbrev Location := List Name

inductive Fault where
  | notFound
  | notADirectory
  | isADirectory
  | alreadyExists
  | invalidData
  | invalidInput
  | invalidName
  | linkLoop
  | other
deriving DecidableEq, Repr, Inhabited

def Name.Valid (name : Name) : Prop :=
  name ≠ [] ∧ name ≠ ['.'] ∧ name ≠ ['.', '.'] ∧ '/' ∉ name ∧ '\x00' ∉ name

namespace Node

def isDirectory : Node → Bool
  | directory _ => true
  | _ => false

def entry? (name : Name) : Node → Option Node
  | directory entries => entries.lookup name
  | _ => none

def descend? (node : Node) : Location → Option Node
  | [] => some node
  | name :: rest => (node.entry? name).bind fun next => next.descend? rest

/-- The names of every directory are valid and distinct. -/
inductive WellFormed : Node → Prop where
  | file (content : Content) : WellFormed (.file content)
  | link (target : Path) : WellFormed (.link target)
  | directory (entries : List (Name × Node))
      (valid : ∀ entry ∈ entries, Name.Valid entry.1)
      (distinct : entries.Pairwise fun a b => a.1 ≠ b.1)
      (below : ∀ entry ∈ entries, WellFormed entry.2) : WellFormed (.directory entries)

inductive LinkFree : Node → Prop where
  | file (content : Content) : LinkFree (.file content)
  | directory (entries : List (Name × Node))
      (below : ∀ entry ∈ entries, LinkFree entry.2) : LinkFree (.directory entries)

/-- The entry of a name replaced or removed, or added at the end. -/
def setEntry (name : Name) (node : Option Node) : List (Name × Node) → List (Name × Node)
  | [] => node.toList.map (name, ·)
  | (other, old) :: rest =>
    if other = name then node.toList.map (name, ·) ++ rest else (other, old) :: setEntry name node rest

/-- The entry at a location replaced or removed. Nothing changes if there is no directory for it. -/
def update (node : Option Node) : Location → Node → Node
  | [], old => node.getD old
  | [name], .directory entries => .directory (setEntry name node entries)
  | name :: rest, .directory entries =>
    match entries.lookup name with
    | some next => .directory (setEntry name (some (update node rest next)) entries)
    | none => .directory entries
  | _, old => old

def directoryCount : Node → Nat
  | directory entries => 1 + countBelow entries
  | _ => 0
where
  /-- How many directories there are at and below entries. -/
  countBelow : List (Name × Node) → Nat
    | [] => 0
    | (_, node) :: rest => directoryCount node + countBelow rest

end Node

end Stencil.Files

namespace Stencil

/-- A file system: the tree, and the location of the current directory. Once that directory has been
removed it stays gone, even if another one is made in its place. -/
structure FileSystem where
  root : Files.Node
  current : Files.Location
  currentGone : Bool := false
deriving Repr, Inhabited

end Stencil
