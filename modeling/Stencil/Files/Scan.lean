import Stencil.Files.Walk
import Stencil.Partials.Naming

/-!
# Scanning a directory

Every file below a directory whose name ends with the extension, in ascending order of its path.
Links are followed. A broken link and a link back to a directory that is being walked are faults,
whatever they are called; the fault names the link. Directories are opened and links followed by their
whole paths, so a path that the system refuses is a fault as well. `Path.sorted` keeps every path
(`perm_sorted`) and puts them in order (`pairwise_sorted`).
-/

namespace Stencil

namespace Path

/-- Put into an ascending list of paths. -/
def insertSorted (p : Path) : List Path → List Path
  | [] => [p]
  | q :: rest => if p < q then p :: q :: rest else q :: insertSorted p rest

def sorted (paths : List Path) : List Path := paths.foldr insertSorted []

/-- Sorting in loses no path and makes none. -/
theorem perm_insertSorted (p : Path) (paths : List Path) :
    (insertSorted p paths).Perm (p :: paths) := by
  induction paths with
  | nil => exact .refl _
  | cons q rest ih =>
    simp only [insertSorted]
    split
    · exact .refl _
    · exact (List.Perm.cons q ih).trans (.swap p q rest)

/-- Sorting keeps every path as often as it was there. -/
theorem perm_sorted (paths : List Path) : (sorted paths).Perm paths := by
  induction paths with
  | nil => exact .refl _
  | cons p rest ih => exact (perm_insertSorted p (sorted rest)).trans (.cons p ih)

theorem pairwise_insertSorted {p : Path} {paths : List Path}
    (h : paths.Pairwise fun a b => ¬ b < a) :
    (insertSorted p paths).Pairwise fun a b => ¬ b < a := by
  induction paths with
  | nil => simp [insertSorted]
  | cons q rest ih =>
    obtain ⟨hq, hrest⟩ := List.pairwise_cons.1 h
    -- the path goes in front of the first that is greater, or behind the first and into the rest
    simp only [insertSorted]
    split
    case isTrue hlt =>
      refine List.pairwise_cons.2 ⟨fun r hr => ?_, h⟩
      rcases List.mem_cons.1 hr with rfl | hr
      · exact List.lt_asymm hlt
      · exact fun hr' => hq r hr (List.lt_trans hr' hlt)
    case isFalse hge =>
      refine List.pairwise_cons.2 ⟨fun r hr => ?_, ih hrest⟩
      rcases List.mem_cons.1 ((perm_insertSorted p rest).mem_iff.1 hr) with rfl | hr
      · exact hge
      · exact hq r hr

/-- What is sorted ascends: nothing stands behind something greater. -/
theorem pairwise_sorted (paths : List Path) : (sorted paths).Pairwise fun a b => ¬ b < a := by
  induction paths with
  | nil => exact .nil
  | cons p rest ih => exact pairwise_insertSorted ih

end Path

namespace Files

structure ScanFault where
  path : Path
  fault : Fault
deriving DecidableEq, Repr

/-- What an entry of a directory is once links are followed: nothing to look into, a file, or a
directory at a location. -/
inductive Reached where
  | file
  | directory (location : Location) (entries : List (Name × Node))

/-- Follows an entry; `above` are the directories being walked. A directory is opened by its path, and a
link is looked at by its path, on which there may be other links. -/
def reach (fs : FileSystem) (above : List Location) (shown : Path) (directory : Location)
    (name : Name) (node : Node) : Except ScanFault Reached :=
  match node with
  | .file _ => .ok .file
  | .directory entries =>
    match fs.find shown with
    | .ok _ => .ok (.directory (directory ++ [name]) entries)
    | .error fault => .error ⟨shown, fault⟩
  | .link _ =>
    match fs.find shown with
    | .ok (location, .directory entries) =>
      if location ∈ above then .error ⟨shown, .other⟩ else .ok (.directory location entries)
    | .ok _ => .ok .file
    | .error fault => .error ⟨shown, fault⟩

/-- The files below a directory whose names end with the extension. `above` are the directories being
walked, this one included; at most `depth` more are entered. -/
def filesBelow (fs : FileSystem) (ext : Extension) :
    (depth : Nat) → (above : List Location) → (shown : Path) → (directory : Location) →
    List (Name × Node) → Except ScanFault (List Path)
  | 0, _, _, _, _ => .ok []
  | depth + 1, above, shown, directory, entries =>
    entries.foldlM (fun files (name, node) => do
      let p := Path.join shown name
      match ← reach fs above p directory name node with
      | .file => return if ext.matches? name then files ++ [p] else files
      | .directory location entries =>
        return files ++ (← filesBelow fs ext depth (location :: above) p location entries)) []

end Files

namespace FileSystem

open Files

/-- How deep a walk can get: between two links that are followed it goes down real directories, and
no link leads to a directory being walked. -/
def walkDepth (fs : FileSystem) : Nat := (fs.root.directoryCount + 1) * (fs.root.directoryCount + 1)

/-- The files below a directory in order; none if there is no such directory. -/
def scan (fs : FileSystem) (base : Path) (ext : Extension) :
    Option (Except ScanFault (List Path)) :=
  match fs.find base with
  | .ok (location, .directory entries) =>
    some ((filesBelow fs ext fs.walkDepth [location] base location entries).map Path.sorted)
  | _ => none

end FileSystem

end Stencil
