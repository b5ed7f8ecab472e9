import Stencil.Files.Tree

/-!
# Walking along a path

The system reads a path piece by piece from the root or the current directory. A name leads to an
entry, `..` back to the directory above (at the root it stays there), and a link goes on along its
target. Every piece but the last name has to be a directory. What happens at the last name, behind
which there may be slashes, depends on the aim of the walk. At most forty links are followed.
-/

namespace Stencil.Files

/-- What a path is walked for: to look at what it leads to, through a link at its end; for the name at
its end, where something is made or removed; or for a file to be written, which may have to be made. -/
inductive Aim where
  | look
  | name
  | file
deriving DecidableEq, Repr

/-- Whether a link at the end of the path is followed. -/
def Aim.follows : Aim → Bool
  | name => false
  | _ => true

/-- Where a path leads: to a directory, if its last piece is `.` or `..` or it has none, and else to a
name in a directory, which may have slashes behind it and may be free. -/
inductive Place where
  | directory (location : Location) (entries : List (Name × Node))
  | entry (directory : Location) (name : Name) (slashed : Bool) (node : Option Node)
deriving Repr, Inhabited

/-- What there is at a place. Behind slashes it has to be a directory. -/
def Place.node? : Place → Except Fault (Location × Node)
  | directory location entries => .ok (location, .directory entries)
  | entry _ _ _ none => .error .notFound
  | entry above name slashed (some node) =>
    if slashed && !node.isDirectory then .error .notADirectory else .ok (above ++ [name], node)

def byteLength (cs : List Char) : Nat := (String.ofList cs).utf8ByteSize

def longestName : Nat := 255

def longestPath : Nat := 4095

/-- How many links are followed on the way. -/
def linkLimit : Nat := 40

/-- Where the pieces of a path start: an absolute path at the root. -/
def startOf (current : Location) (p : Path) : Location := if Path.isAbsolute p then [] else current

/-- Walks along pieces until a link has to be followed, and then goes on as `again` does. A name with
slashes behind it is no name for a file to be written, whatever is there. -/
def walkPieces (root : Node) (aim : Aim) (again : Location → List Name → Except Fault Place)
    (location : Location) : List Name → Except Fault Place
  | [] =>
    match root.descend? location with
    | some (.directory entries) => .ok (.directory location entries)
    | some _ => .error .notADirectory
    | none => .error .notFound
  | piece :: rest =>
    match root.descend? location with
    | some (.directory entries) =>
      let isLast := rest.all (· = [])
      let slashed := !rest.isEmpty
      if Path.isIdle piece then walkPieces root aim again location rest
      else if piece = ['.', '.'] then walkPieces root aim again location.dropLast rest
      else if isLast && slashed && aim = .file then .error .isADirectory
      else if longestName < byteLength piece then .error .invalidName
      else
        match entries.lookup piece with
        | none =>
          if isLast then .ok (.entry location piece slashed none) else .error .notFound
        | some (.link target) =>
          if isLast && !aim.follows then .ok (.entry location piece slashed (some (.link target)))
          else if target = [] then .error .notFound
          else again (startOf location target) (Path.segments target ++ rest)
        | some node =>
          if isLast then .ok (.entry location piece slashed (some node))
          else walkPieces root aim again (location ++ [piece]) rest
    | some _ => .error .notADirectory
    | none => .error .notFound

/-- Walks along pieces and follows at most `links` links. -/
def walk (root : Node) (aim : Aim) : (links : Nat) → Location → List Name → Except Fault Place
  | 0 => walkPieces root aim fun _ _ => .error .linkLoop
  | links + 1 => walkPieces root aim (walk root aim links)

end Stencil.Files

namespace Stencil.FileSystem

open Files

/-- Walks along pieces from the current directory. One that is gone is empty, but there is still a way
up from it. -/
def walkFromCurrent (fs : FileSystem) (aim : Aim) (pieces : List Name) : Except Fault Place :=
  if fs.currentGone then
    match pieces.dropWhile Path.isIdle with
    | [] => .ok (.directory fs.current [])
    | piece :: rest =>
      if piece = ['.', '.'] then walk fs.root aim linkLimit fs.current.dropLast rest
      else .error .notFound
  else walk fs.root aim linkLimit fs.current pieces

def place (fs : FileSystem) (aim : Aim) (p : Path) : Except Fault Place :=
  if p = [] then .error .notFound
  else if '\x00' ∈ p then .error .invalidInput
  else if longestPath < byteLength p then .error .invalidName
  else if Path.isAbsolute p then walk fs.root aim linkLimit [] (Path.segments p)
  else fs.walkFromCurrent aim (Path.segments p)

/-- The entry that a path leads to, with its location. -/
def find (fs : FileSystem) (p : Path) : Except Fault (Location × Node) :=
  (fs.place .look p).bind Place.node?

def isDirectory (fs : FileSystem) (p : Path) : Bool :=
  match fs.find p with
  | .ok (_, node) => node.isDirectory
  | .error _ => false

def readText (fs : FileSystem) (p : Path) : Except Fault String := do
  match (← fs.find p).2 with
  | .file (.text text) => return text
  | .file .binary => .error .invalidData
  | _ => .error .isADirectory

end Stencil.FileSystem
