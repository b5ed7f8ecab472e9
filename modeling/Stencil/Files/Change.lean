import Stencil.Files.Walk

/-!
# Changing a tree

Writing, removing, and making directories and links. What a single step refuses changes nothing. Making
directories on the way and removing a whole directory are several steps, and what was done before the
step that failed remains done.
-/

namespace Stencil

/-- A file system after a change, and the fault that ended it, if one did. -/
structure FileChange where
  fs : FileSystem
  fault : Option Files.Fault := none
deriving Repr, Inhabited

def FileChange.ofStep (fs : FileSystem) : Except Files.Fault FileSystem → FileChange
  | .ok fs => ⟨fs, none⟩
  | .error fault => ⟨fs, some fault⟩

namespace Files

def Content.ofBytes (bytes : ByteArray) : Content :=
  match String.fromUTF8? bytes with
  | some s => .text s
  | none => .binary

end Files

namespace Path

/-- The paths to the entries that a path of these pieces passes, the last one first. The pieces are
given last one first, and so are those of the result. -/
def prefixesOf : (pieces : List (List Char)) → List Path
  | [] => []
  | piece :: above =>
    if isIdle piece then prefixesOf above else joined (piece :: above).reverse :: prefixesOf above

/-- The paths to the directories that lead to the last name of a path, nearest first. -/
def ancestors (p : Path) : List Path := (prefixesOf (segments p).reverse).tail

/-- A path of pieces below a directory; a `/` in front of it does not count. -/
def below (base p : Path) : Path := (segments p).foldl join base

end Path

namespace FileSystem

open Files

/-- With an entry put at a location, or removed from it. -/
def set (fs : FileSystem) (location : Location) (node : Option Node) : FileSystem :=
  let root := fs.root.update node location
  { fs with
    root
    currentGone := fs.currentGone || !(root.descend? fs.current).any Node.isDirectory }

/-- With a file written; a directory for it has to be there. -/
def write (fs : FileSystem) (p : Path) (content : Content) : Except Fault FileSystem := do
  match ← fs.place .file p with
  | .directory .. => .error .isADirectory
  | .entry _ _ _ (some (.directory _)) => .error .isADirectory
  | .entry above name _ _ => return fs.set (above ++ [name]) (some (.file content))

def makeDirectory (fs : FileSystem) (p : Path) : Except Fault FileSystem := do
  match ← fs.place .name p with
  | .entry above name _ none => return fs.set (above ++ [name]) (some (.directory []))
  | _ => .error .alreadyExists

/-- Makes the first of the directories, after the others, which are those above it, nearest first, as
far as they are needed. -/
def makeAll (fs : FileSystem) : List Path → FileChange
  | [] => ⟨fs, none⟩
  | p :: above =>
    match fs.makeDirectory p with
    | .ok fs => ⟨fs, none⟩
    | .error .notFound =>
      match makeAll fs above with
      | ⟨fs, some fault⟩ => ⟨fs, some fault⟩
      | ⟨fs, none⟩ => if fs.isDirectory p then ⟨fs, none⟩ else .ofStep fs (fs.makeDirectory p)
    | .error fault => ⟨fs, if fs.isDirectory p then none else some fault⟩

def makeDirectories (fs : FileSystem) (p : Path) : FileChange :=
  fs.makeAll (p :: Path.ancestors p)

/-- Writes a text file, after making the directories that it needs. -/
def writeText (fs : FileSystem) (p : Path) (text : String) : FileChange :=
  match fs.makeAll (Path.ancestors p) with
  | ⟨fs, some fault⟩ => ⟨fs, some fault⟩
  | ⟨fs, none⟩ => .ofStep fs (fs.write p (.text text))

def removeFile (fs : FileSystem) (p : Path) : Except Fault FileSystem := do
  match ← fs.place .name p with
  | .directory .. => .error .isADirectory
  | .entry _ _ _ none => .error .notFound
  | .entry _ _ _ (some (.directory _)) => .error .isADirectory
  | .entry above name slashed (some _) =>
    if slashed then .error .notADirectory else return fs.set (above ++ [name]) none

/-- With an empty directory removed. It has to be called by its name. -/
def removeEmptyDirectory (fs : FileSystem) (p : Path) : Except Fault FileSystem := do
  match ← fs.place .name p with
  | .directory .. => .error .invalidInput
  | .entry _ _ _ none => .error .notFound
  | .entry above name _ (some (.directory _)) => return fs.set (above ++ [name]) none
  | .entry .. => .error .notADirectory

/-- Removes all that is in the directory at a location and then, as what `p` calls it, the directory. If
nothing has that name any longer, all is done. -/
def removeTree (fs : FileSystem) (p : Path) (location : Location) : FileChange :=
  let fs := fs.set location (some (.directory []))
  match fs.removeEmptyDirectory p with
  | .error .notFound => ⟨fs, none⟩
  | step => .ofStep fs step

/-- Removes a file, a link or a whole directory. -/
def remove (fs : FileSystem) (p : Path) : FileChange :=
  match fs.find p, fs.place .name p with
  | .ok (_, .directory _), .ok (.entry _ _ false (some (.link _))) => .ofStep fs (fs.removeFile p)
  | .ok (location, .directory _), _ => fs.removeTree p location
  | _, _ => .ofStep fs (fs.removeFile p)

def makeLink (fs : FileSystem) (p target : Path) : Except Fault FileSystem :=
  if '\x00' ∈ p ∨ '\x00' ∈ target then .error .invalidInput
  else if target = [] then .error .notFound
  else if longestPath < byteLength target then .error .invalidName
  else do
    match ← fs.place .name p with
    | .entry above name slashed none =>
      if slashed then .error .notFound
      else return fs.set (above ++ [name]) (some (.link target))
    | _ => .error .alreadyExists

end FileSystem

end Stencil
