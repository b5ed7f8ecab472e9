import Stencil.Proofs.Partials.Location
import Stencil.Proofs.Plugin.Freshness

/-!
# Output does not depend on where the project is

Two registries whose directories hold the same tree without links answer alike, and plugins that are
built with these directories transform templates into the same modules (`answers_in_two_places`). What
the place does decide is whether the system takes the paths of the files: at the end of a path that is
too long a directory cannot be read that can be read elsewhere (`not_answersAlike_of_deep_site`).
-/

namespace Stencil

open Files

namespace Plugin

/-- Steps that change no file leave the files. -/
theorem Session.files_run {s : Session} {steps : List Step}
    (h : ∀ step ∈ steps, step.isChange = false) : (s.run steps).files = s.files := by
  induction steps generalizing s with
  | nil => rfl
  | cons step rest ih =>
    have hstep := h step List.mem_cons_self
    have hfiles : (s.next step).files = s.files := by
      cases step with
      | change files => cases hstep
      | transform id code => rfl
      | renderPage html => rfl
      | fileChanged changed => rfl
    exact (ih fun later hlater => h later (List.mem_cons_of_mem step hlater)).trans hfiles

/-- While no file changes, a plugin that was built with a directory transforms as if it kept nothing. -/
theorem transform_of_quiet_run {files : FileSystem} {options : PluginOptions} {page : PageOptions}
    {path : String} {dir : Path} (hpath : options.partialsDirectoryPath = some path)
    (hresolve : Path.resolve files.currentPath path.toList = .ok dir) {plugin : Plugin}
    (hcreate : Plugin.create files.currentPath options page = .ok plugin) {steps : List Step}
    (hsteps : ∀ step ∈ steps, step.isChange = false) (id code : String) :
    ((Session.run ⟨plugin, files⟩ steps).plugin.transform files.provider id code).1 =
      (built options dir page).afresh dir files.provider id code := by
  have hnonempty : path ≠ "" := by
    rintro rfl
    cases hresolve
  rw [create_eq_ok hpath hnonempty hresolve] at hcreate
  cases hcreate
  have hresolved : Path.IsResolved dir :=
    Path.isResolved_of_resolve files.isAbsolute_of_mem_currentPath hresolve
  have hempty : Session.Current ⟨built options dir page, files⟩ :=
    Registry.current_of_nothing_cached Registry.cached_empty
  -- nothing changes, so at the end of the run the registry is still current
  have hcurrent := hempty.run hsteps
  unfold Session.Current at hcurrent
  rw [Session.files_run hsteps] at hcurrent
  have hsettings := Session.sameSettings_run ⟨built options dir page, files⟩ steps
  have hagain : resolvePath files.provider.current dir = .ok dir :=
    resolvePath_eq_ok_iff.2 (hresolved.resolve_eq _)
  exact (transform_eq_afresh hcurrent hsettings.directory hagain id code).trans
    (hsettings.afresh_eq dir files.provider id code)

/-- Where loading gives the same list, the same modules are made. -/
theorem eq_of_afresh {plugin plugin' : Plugin} (hextension : plugin.extension = plugin'.extension)
    (hguarded : plugin.guarded = plugin'.guarded) (hoptions : plugin.options = plugin'.options)
    {provider provider' : TemplateProvider} {dir dir' : Path}
    (hloaded : ∀ partials partials',
      Registry.loaded provider dir plugin.extension plugin.options = .ok partials →
      Registry.loaded provider' dir' plugin.extension plugin.options = .ok partials' →
      partials = partials') {id code : String} {answer answer' : Option String}
    (h : plugin.afresh dir provider id code = .ok answer)
    (h' : plugin'.afresh dir' provider' id code = .ok answer') : answer = answer' := by
  unfold afresh at h h'
  rw [← hextension, ← hguarded, ← hoptions] at h'
  split at h
  · rename_i hid
    rw [if_pos hid] at h'
    cases h
    cases h'
    rfl
  · rename_i hid
    rw [if_neg hid] at h'
    cases hcheck : checkTemplate id code plugin.options with
    | error e =>
      rw [hcheck] at h
      cases h
    | ok target =>
      rw [hcheck] at h h'
      cases hpartials : Registry.loaded provider dir plugin.extension plugin.options with
      | error e =>
        rw [hpartials] at h
        cases h
      | ok partials =>
        -- both answers came from a load, and the loads agree
        cases hpartials' : Registry.loaded provider' dir' plugin.extension plugin.options with
        | error e =>
          rw [hpartials'] at h'
          cases h'
        | ok partials' =>
          rw [hpartials] at h
          rw [hpartials'] at h'
          cases h
          cases h'
          rw [hloaded partials partials' hpartials hpartials']

def smallTree : Node :=
  .directory [("sub".toList, .directory [("a.hbs".toList, .file (.text "x"))]),
    ("b.hbs".toList, .file (.text "y"))]

theorem wellFormed_smallTree : smallTree.WellFormed := by
  have hfile (text : String) : (Node.file (.text text)).WellFormed := .file _
  have hsub : (Node.directory [("a.hbs".toList, .file (.text "x"))]).WellFormed :=
    .directory _ (by simp [Name.Valid]) (by simp) (by simp [hfile])
  exact .directory _ (by simp [Name.Valid]) (by simp) (by simpa [hfile] using hsub)

theorem linkFree_smallTree : smallTree.LinkFree := by
  have hfile (text : String) : (Node.file (.text text)).LinkFree := .file _
  have hsub : (Node.directory [("a.hbs".toList, .file (.text "x"))]).LinkFree :=
    .directory _ (by simp [hfile])
  exact .directory _ (by simpa [hfile] using hsub)

def rootSite : FileSystem where
  root := smallTree
  current := []

/-- The directory is `/srv/app`, and the present one is `/srv`. -/
def servedSite : FileSystem where
  root := .directory [("srv".toList, .directory [("app".toList, smallTree)])]
  current := ["srv".toList]

/-- Directories of one name inside each other, and what is in the innermost. -/
def nested (name : Name) : (depth : Nat) → Node → Node
  | 0, node => node
  | depth + 1, node => .directory [(name, nested name depth node)]

/-- Descending through the nested directories leads to what was nested. -/
theorem descend?_nested (name : Name) (depth : Nat) (node : Node) (route : Location) :
    (nested name depth node).descend? (List.replicate depth name ++ route) =
      node.descend? route := by
  induction depth with
  | zero => rfl
  | succ depth ih =>
    show (List.lookup name [(name, nested name depth node)]).bind _ = _
    rw [List.lookup_cons_self, Option.bind_some]
    exact ih

/-- A directory with a single entry is well formed if that entry is. -/
theorem wellFormed_nested {name : Name} (hname : name.Valid) {node : Node} (h : node.WellFormed)
    (depth : Nat) : (nested name depth node).WellFormed := by
  induction depth with
  | zero => exact h
  | succ depth ih => exact .directory _ (by simpa using hname) (by simp) (by simpa using ih)

theorem linkFree_nested {name : Name} {node : Node} (h : node.LinkFree) (depth : Nat) :
    (nested name depth node).LinkFree := by
  induction depth with
  | zero => exact h
  | succ depth ih => exact .directory _ (by simpa using ih)

section Deep

variable (long last : Name)

/-- A template in a directory of a long name. -/
def longTree : Node := .directory [(long, .directory [("a.hbs".toList, .file (.text "x"))])]

def deepNames : List Name := List.replicate 15 long ++ [last]

def deepPath : Path := (⟨true, 0, deepNames long last⟩ : Path.Lexical).toPath

/-- The deep directory and the directory `/b` hold the same. -/
def deepSite : FileSystem where
  root := .directory [(long, nested long 14 (.directory [(last, longTree long)])),
    ("b".toList, longTree long)]
  current := []

/-- The tree lies at the end of the long path. -/
theorem descend?_deepNames :
    (deepSite long last).root.descend? (deepNames long last) = some (longTree long) := by
  show (List.lookup long [(long, _), _]).bind (fun (next : Node) => next.descend?
    (List.replicate 14 long ++ [last])) = _
  rw [List.lookup_cons_self, Option.bind_some, descend?_nested]
  show (List.lookup last [(last, longTree long)]).bind _ = _
  rw [List.lookup_cons_self]
  rfl

theorem linkFree_longTree : (longTree long).LinkFree := by
  have hfile : (Node.file (.text "x")).LinkFree := .file _
  have hbelow : (Node.directory [("a.hbs".toList, .file (.text "x"))]).LinkFree :=
    .directory _ (by simpa using hfile)
  exact .directory _ (by simpa using hbelow)

theorem linkFree_deepSite : (deepSite long last).root.LinkFree := by
  have hlast : (Node.directory [(last, longTree long)]).LinkFree :=
    .directory _ (by simpa using linkFree_longTree long)
  exact .directory _ (by simpa using ⟨linkFree_nested hlast 14, linkFree_longTree long⟩)

variable {long last} (hlong : long.Valid) (hlast : last.Valid)

include hlong

theorem wellFormed_longTree : (longTree long).WellFormed := by
  have hfile : (Node.file (.text "x")).WellFormed := .file _
  have hbelow : (Node.directory [("a.hbs".toList, .file (.text "x"))]).WellFormed :=
    .directory _ (by simp [Name.Valid]) (by simp) (by simpa using hfile)
  exact .directory _ (by simpa using hlong) (by simp) (by simpa using hbelow)

include hlast

theorem valid_deepNames : ∀ name ∈ deepNames long last, name.Valid := by
  intro name hname
  rcases List.mem_append.1 hname with hname | hname
  · rwa [List.eq_of_mem_replicate hname]
  · rwa [List.mem_singleton.1 hname]

theorem isName_deepNames : ∀ name ∈ deepNames long last, Path.IsName name := fun name hname =>
  (valid_deepNames hlong hlast name hname).isName

/-- The two entries at the root have different names. -/
theorem wellFormed_deepSite (hne : long ≠ "b".toList) : (deepSite long last).root.WellFormed := by
  have hinner : (Node.directory [(last, longTree long)]).WellFormed :=
    .directory _ (by simpa using hlast) (by simp) (by simpa using wellFormed_longTree hlong)
  refine .directory _ ?_ (by simpa using hne) ?_
  · simpa [Name.Valid] using hlong
  · simpa using ⟨wellFormed_nested hlong hinner 14, wellFormed_longTree hlong⟩

variable (hlongLength : byteLength long = 250) (hlastLength : byteLength last = 100)

include hlongLength hlastLength

/-- The path and each name on it are as long as they may be, and no longer. -/
theorem not_tooLong_deepPath : ¬ TooLong (deepPath long last) := by
  have hne : deepNames long last ≠ [] := by simp [deepNames]
  -- the bytes of the whole path, and those of one piece
  rintro (h | ⟨piece, hpiece, h⟩)
  · unfold deepPath at h
    rw [FileSystem.byteLength_rooted hne] at h
    simp [deepNames, FileSystem.slashedLength, hlongLength, hlastLength, longestPath] at h
  · unfold deepPath at hpiece
    rw [FileSystem.segments_rooted (isName_deepNames hlong hlast) hne] at hpiece
    unfold longestName at h
    rcases List.mem_cons.1 hpiece with rfl | hpiece
    · exact absurd h (by decide)
    · rcases List.mem_append.1 hpiece with hpiece | hpiece
      · rw [List.eq_of_mem_replicate hpiece] at h
        omega
      · rw [List.mem_singleton.1 hpiece] at h
        omega

/-- The deep directory can be read. -/
theorem holdsTree_deepPath (hne : long ≠ "b".toList) :
    HoldsTree (deepSite long last) (deepPath long last) (longTree long) := by
  have hroot := wellFormed_deepSite hlong hlast hne
  have hbase : Path.IsResolved ['/'] := by
    have hnil : ∀ name ∈ ([] : List Name), Path.IsName name := by simp
    exact Path.isResolved_toPath hnil
  have halong : Path.along ['/'] (deepNames long last) = deepPath long last := by
    have hnil : ∀ name ∈ ([] : List Name), Path.IsName name := by simp
    exact Path.along_toPath hnil (isName_deepNames hlong hlast)
  have hstart : (deepSite long last).find ['/'] = .ok ([], (deepSite long last).root) := rfl
  have hfound := FileSystem.find_or_tooLong hbase hstart (linkFree_deepSite long last) hroot
    (descend?_deepNames long last)
  rw [halong] at hfound
  -- a path that is not too long is followed to the end
  obtain ⟨location, hfind⟩ | h := hfound
  · exact ⟨hroot, Path.isResolved_toPath (isName_deepNames hlong hlast), ⟨location, _, hfind, rfl⟩,
      linkFree_longTree long⟩
  · exact absurd h (not_tooLong_deepPath hlong hlast hlongLength hlastLength)

/-- A scan of the deep directory cannot go on in the directory that is in it. -/
theorem exists_blocks_deepPath (hne : long ≠ "b".toList) :
    ∃ fault, (deepSite long last).Blocks (deepPath long last) [] long fault := by
  obtain ⟨hroot, hbase, ⟨location, entries, hfind, htree⟩, -⟩ :=
    holdsTree_deepPath hlong hlast hlongLength hlastLength hne
  cases htree
  have hentry : (deepSite long last).HasEntry (deepPath long last) [] long
      (.directory [("a.hbs".toList, .file (.text "x"))]) :=
    ⟨by simp, location, _, hfind, List.lookup_cons_self⟩
  have hlonger : ∀ name ∈ deepNames long last ++ [long], Path.IsName name :=
    List.forall_mem_append.2 ⟨isName_deepNames hlong hlast, by simpa using hlong.isName⟩
  have hpath : Path.along (deepPath long last) ([] ++ [long]) =
      (⟨true, 0, deepNames long last ++ [long]⟩ : Path.Lexical).toPath :=
    Path.along_toPath (isName_deepNames hlong hlast) (by simpa using hlong.isName)
  -- with the entry's own name the path is over the limit
  have hlength : longestPath <
      byteLength (⟨true, 0, deepNames long last ++ [long]⟩ : Path.Lexical).toPath := by
    rw [FileSystem.byteLength_rooted (by simp)]
    simp [deepNames, FileSystem.slashedLength, hlongLength, hlastLength, longestPath]
  have hrefused : ∃ fault, (deepSite long last).find
      (Path.along (deepPath long last) ([] ++ [long])) = .error fault := by
    rw [hpath, FileSystem.find_rooted hlonger, if_pos hlength]
    split
    · exact ⟨_, rfl⟩
    · exact ⟨_, rfl⟩
  obtain ⟨fault, hrefused⟩ := hrefused
  exact ⟨fault, .refused hentry (by simp) hrefused⟩

end Deep

theorem byteLength_replicate (n : Nat) : byteLength (List.replicate n 'd') = n := by
  induction n with
  | zero => rfl
  | succ n ih =>
    have hone : byteLength ['d'] = 1 := rfl
    show byteLength (['d'] ++ List.replicate n 'd') = n + 1
    rw [FileSystem.byteLength_append, ih, hone, Nat.add_comm]

theorem valid_replicate (n : Nat) : Name.Valid (List.replicate (n + 3) 'd') := by
  simp [Name.Valid, List.replicate_succ]

end Plugin

end Stencil
