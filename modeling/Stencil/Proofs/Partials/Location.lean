import Stencil.Proofs.Files.LinkFree
import Stencil.Proofs.Partials.Directory

/-!
# The place of a directory does not matter

Two directories that hold the same tree without links, in whatever file systems and wherever they are,
give the same partials in the same order, or an error of the same kind for the same file below them
(`AnswersAlike`). There is one exception, which is not the registry's: the path of an entry can be too
long for the system in one place and not in the other (`RefusedBelow`). Both of these pass through a
computation step by step (`Relocated.bind`), so it is enough to compare scans, and then files one by one
(`relocated_loaded`).
-/

namespace Stencil

open Files

/-! ## Answers from two places -/

/-- Two answers that say the same of directories at `base` and `base'`: they are the same value, or the
same error for the same file below. -/
inductive AnswersAlike {α : Type} (base base' : Path) : Except Error α → Except Error α → Prop
  | ok (a : α) : AnswersAlike base base' (.ok a) (.ok a)
  | rejected (route : List Name) (rejection : Template.Rejection) :
    AnswersAlike base base'
      (.error (.templateSyntax (String.ofList (Path.along base route)) rejection))
      (.error (.templateSyntax (String.ofList (Path.along base' route)) rejection))
  | unread (route : List Name) (fault : Fault) :
    AnswersAlike base base' (.error (.io .readTemplate (Path.along base route) fault))
      (.error (.io .readTemplate (Path.along base' route) fault))

/-- A directory that cannot be scanned makes a difference. -/
theorem AnswersAlike.ne_scanDirectory {α : Type} {base base' : Path} {answer answer' : Except Error α}
    (h : AnswersAlike base base' answer answer') {p : Path} {fault : Fault} :
    answer' ≠ .error (.io .scanDirectory p fault) := by
  rintro rfl
  cases h

/-- The answer is that the system refuses the path of an entry below, which is too long. -/
def RefusedBelow {α : Type} (base : Path) (tree : Node) (answer : Except Error α) : Prop :=
  ∃ action route node, tree.descend? route = some node ∧ TooLong (Path.along base route) ∧
    answer = .error (.io action (Path.along base route) .invalidName)

/-- Two answers say the same, or the system refuses a path in one of the places. -/
def Relocated {α : Type} (base base' : Path) (tree tree' : Node) (answer answer' : Except Error α) :
    Prop :=
  AnswersAlike base base' answer answer' ∨ RefusedBelow base tree answer ∨
    RefusedBelow base' tree' answer'

section Relocated

variable {α β : Type} {base base' : Path} {tree tree' : Node}

/-- Once the system has refused a path, nothing after it runs. -/
theorem RefusedBelow.bind {answer : Except Error α} (h : RefusedBelow base tree answer)
    (next : α → Except Error β) : RefusedBelow base tree (answer.bind next) := by
  obtain ⟨action, route, node, hdescend, hlong, rfl⟩ := h
  exact ⟨action, route, node, hdescend, hlong, rfl⟩

/-- What goes on alike after answers that are alike gives such answers. -/
theorem Relocated.bind {answer answer' : Except Error α}
    (h : Relocated base base' tree tree' answer answer') {next next' : α → Except Error β}
    (hnext : ∀ a, Relocated base base' tree tree' (next a) (next' a)) :
    Relocated base base' tree tree' (answer.bind next) (answer'.bind next') := by
  rcases h with h | h | h
  · cases h with
    | ok a => exact hnext a
    | rejected route rejection => exact .inl (.rejected route rejection)
    | unread route fault => exact .inl (.unread route fault)
  · exact .inr (.inl (h.bind next))
  · exact .inr (.inr (h.bind next'))

/-- Working on the answers changes neither their agreement nor a refusal. -/
theorem Relocated.map {answer answer' : Except Error α}
    (h : Relocated base base' tree tree' answer answer') (f : α → β) :
    Relocated base base' tree tree' (answer.map f) (answer'.map f) := by
  have hmap (answer : Except Error α) : answer.map f = answer.bind fun a => .ok (f a) := by
    cases answer <;> rfl
  rw [hmap, hmap]
  exact h.bind fun a => .inl (.ok (f a))

/-- Two answers of the two places that both succeed are equal. -/
theorem Relocated.eq_of_ok {answer answer' : Except Error α}
    (h : Relocated base base' tree tree' answer answer') {a b : α} (ha : answer = .ok a)
    (hb : answer' = .ok b) : a = b := by
  subst ha hb
  rcases h with h | ⟨_, _, _, -, -, h⟩ | ⟨_, _, _, -, -, h⟩
  · cases h
    rfl
  · cases h
  · cases h

/-- Items that are treated alike one by one are treated alike together. -/
theorem relocated_mapM {item : Type} {f g : item → Except Error α} {items : List item}
    (h : ∀ x ∈ items, Relocated base base' tree tree' (f x) (g x)) :
    Relocated base base' tree tree' (items.mapM f) (items.mapM g) := by
  induction items with
  | nil => exact .inl (.ok [])
  | cons x rest ih =>
    rw [List.mapM_cons, List.mapM_cons]
    have hrest := ih fun y hy => h y (List.mem_cons_of_mem x hy)
    exact (h x List.mem_cons_self).bind fun a => hrest.bind fun as => .inl (.ok (a :: as))

end Relocated

/-! ## Loading in two places -/

namespace Registry

/-- A load goes through the routes of the scan. -/
theorem loaded_of_scan {provider : TemplateProvider} {base : Path} {ext : Extension}
    (options : CompileOptions) {routes : List (List Name)}
    (h : provider.scan base ext = .ok (routes.map (Path.along base))) :
    loaded provider base ext options =
      (routes.mapM fun route => loadedFile provider base ext options (Path.along base route)).map
        PartialList.mk := by
  rw [loaded_eq, h]
  show Except.map _ ((routes.map (Path.along base)).mapM _) = _
  rw [List.mapM_map]
  rfl

/-- The name of a partial depends on its route and not on the base. -/
theorem loadedFile_eq_bind {fs : FileSystem} {base : Path} (hbase : Path.IsResolved base)
    {ext : Extension} (options : CompileOptions) {route : List Name} (hroute : IsRoute ext route) :
    loadedFile fs.provider base ext options (Path.along base route) =
      (fs.provider.read (Path.along base route)).bind fun text =>
        (checkTemplate (String.ofList (Path.along base route)) text options).map
          (String.ofList (ext.strip (Path.storage (Path.joined route))), ·) := by
  rw [loadedFile_eq, nameOfPartial?_along hbase hroute]

/-- Reading is following the path to a file and decoding its bytes. -/
theorem read_of_find {fs : FileSystem} {p : Path} {above : Location} {content : Content}
    (h : fs.find p = .ok (above, .file content)) :
    fs.provider.read p =
      match content with
      | .text text => .ok text
      | .binary => .error (.io .readTemplate p .invalidData) := by
  simp only [FileSystem.provider, FileSystem.readText, h]
  cases content <;> rfl

/-- A path that cannot be followed is not read. -/
theorem read_of_refused {fs : FileSystem} {p : Path} {fault : Fault} (h : fs.find p = .error fault) :
    fs.provider.read p = .error (.io .readTemplate p fault) := by
  simp only [FileSystem.provider, FileSystem.readText, h]
  rfl

/-- Paths that lead to the same file in two places are read alike. -/
theorem relocated_read {fs fs' : FileSystem} {base base' : Path} {tree tree' : Node}
    {route : List Name} {content : Content} (htree : tree.descend? route = some (.file content))
    (htree' : tree'.descend? route = some (.file content))
    (hfind : (∃ above, fs.find (Path.along base route) = .ok (above, .file content)) ∨
      fs.find (Path.along base route) = .error .invalidName ∧ TooLong (Path.along base route))
    (hfind' : (∃ above, fs'.find (Path.along base' route) = .ok (above, .file content)) ∨
      fs'.find (Path.along base' route) = .error .invalidName ∧ TooLong (Path.along base' route)) :
    Relocated base base' tree tree' (fs.provider.read (Path.along base route))
      (fs'.provider.read (Path.along base' route)) := by
  -- both paths are followed to the same file, or one of them is too long for its system
  rcases hfind with ⟨above, hfind⟩ | ⟨hrefused, hlong⟩
  · rcases hfind' with ⟨above', hfind'⟩ | ⟨hrefused, hlong⟩
    · left
      rw [read_of_find hfind, read_of_find hfind']
      cases content with
      | text text => exact .ok text
      | binary => exact .unread route .invalidData
    · exact .inr (.inr ⟨_, route, _, htree', hlong, read_of_refused hrefused⟩)
  · exact .inr (.inl ⟨_, route, _, htree, hlong, read_of_refused hrefused⟩)

/-- The check of a template does not depend on what it is called, but for the error. -/
theorem relocated_checkTemplate {base base' : Path} {tree tree' : Node} (route : List Name)
    (source : String) (options : CompileOptions) :
    Relocated base base' tree tree'
      (checkTemplate (String.ofList (Path.along base route)) source options)
      (checkTemplate (String.ofList (Path.along base' route)) source options) := by
  unfold checkTemplate
  cases Template.Document.ofSource source with
  | ok document => exact .inl (.ok _)
  | error rejection => exact .inl (.rejected route rejection)

end Registry

/-- The path leads to a directory with a tree without links. -/
structure HoldsTree (fs : FileSystem) (base : Path) (tree : Node) : Prop where
  wellFormed : fs.root.WellFormed
  resolved : Path.IsResolved base
  found : ∃ location entries, fs.find base = .ok (location, .directory entries) ∧
    tree = .directory entries
  linkFree : tree.LinkFree

/-- Lists in a strict order are equal if they have the same members. -/
theorem eq_of_pairwise_of_mem_iff {α : Type} {less : α → α → Prop}
    (hasymm : ∀ a b, less a b → ¬ less b a) {xs ys : List α} (hxs : xs.Pairwise less)
    (hys : ys.Pairwise less) (hmem : ∀ x, x ∈ xs ↔ x ∈ ys) : xs = ys := by
  have hnodup {zs : List α} (h : zs.Pairwise less) : zs.Nodup := by
    refine h.imp fun {a b} hless heq => ?_
    rw [heq] at hless
    exact hasymm b b hless hless
  have hperm := (List.perm_ext_iff_of_nodup (hnodup hxs) (hnodup hys)).2 hmem
  exact hperm.eq_of_pairwise (fun a b _ _ hab hba => absurd hba (hasymm a b hab)) hxs hys

/-- A common prefix does not matter for the order. -/
theorem append_lt_append_iff {front a b : List Char} : front ++ a < front ++ b ↔ a < b := by
  induction front with
  | nil => exact Iff.rfl
  | cons c rest ih => simp [ih]

/-- Routes are in the same order from everywhere. -/
theorem along_lt_along_iff {base : Path} (hbase : Path.IsResolved base) {ext : Extension}
    {route other : List Name} (hroute : IsRoute ext route) (hother : IsRoute ext other) :
    Path.along base route < Path.along base other ↔ Path.joined route < Path.joined other := by
  obtain ⟨front, hfront⟩ := Path.exists_front hbase
  rw [hfront route hroute.isName hroute.ne_nil, hfront other hother.isName hother.ne_nil]
  exact append_lt_append_iff

namespace HoldsTree

variable {fs fs' : FileSystem} {base base' : Path} {tree tree' : Node} {ext : Extension}

/-- A scan lists just the files of the tree, in the order of their routes, or it is refused a path. -/
theorem scan_cases (h : HoldsTree fs base tree) (ext : Extension) :
    RefusedBelow base tree (fs.provider.scan base ext) ∨
      ∃ routes : List (List Name), fs.provider.scan base ext = .ok (routes.map (Path.along base)) ∧
        routes.Pairwise (fun a b => Path.joined a < Path.joined b) ∧
        (∀ route, route ∈ routes ↔
          IsRoute ext route ∧ ∃ content, tree.descend? route = some (.file content)) ∧
        ∀ route ∈ routes, ∀ content, tree.descend? route = some (.file content) →
          (∃ above, fs.find (Path.along base route) = .ok (above, .file content)) ∨
            fs.find (Path.along base route) = .error .invalidName ∧
              TooLong (Path.along base route) := by
  obtain ⟨hroot, hbase, ⟨location, entries, hfind, rfl⟩, hfree⟩ := h
  have hentries := FileSystem.wellFormed_find hroot hfind
  cases hscan : fs.scan base ext with
  | none =>
    rw [FileSystem.scan_of_directory hfind] at hscan
    cases hscan
  | some result =>
    cases result with
    -- below the base only a path that is too long can block the scan
    | error failure =>
      obtain ⟨route, name, hblocks, hpath⟩ :=
        FileSystem.blocks_of_scan_eq_error hroot hbase hscan
      obtain ⟨hfault, hlong, node, hnode⟩ :=
        FileSystem.refused_of_blocks hbase hfind hfree hentries hblocks
      refine .inl ⟨.scanDirectory, route ++ [name], node, hnode, hlong, ?_⟩
      rw [FileSystem.provider_scan_of_error hscan, hpath, hfault]
    | ok paths =>
      obtain ⟨hopen, -⟩ := FileSystem.mem_scan_iff hroot hbase hscan
      obtain ⟨routes, rfl, hroutes⟩ := FileSystem.exists_routes_of_scan hroot hbase hscan
      refine .inr ⟨routes, FileSystem.provider_scan_eq_ok_iff.2 hscan, ?_, fun route => ?_,
        fun route hroute content hcontent => ?_⟩
      · have hsorted := FileSystem.pairwise_lt_scan hroot hbase hscan
        rw [List.pairwise_map] at hsorted
        -- paths below one base are in the order of what follows the base
        refine hsorted.imp_of_mem fun {a b} ha hb hlt => ?_
        exact (along_lt_along_iff hbase ((hroutes a).1 ha).1 ((hroutes b).1 hb).1).1 hlt
      · rw [hroutes route]
        exact and_congr_right (FileSystem.lists_iff hbase hfind hfree hentries hopen)
      · exact FileSystem.find_of_lists hbase hfind hfree hentries ((hroutes route).1 hroute).2 hcontent

/-- Trees that are alike are loaded alike. -/
theorem relocated_loaded (h : HoldsTree fs base tree) (h' : HoldsTree fs' base' tree')
    (halike : tree.Alike tree') (ext : Extension) (options : CompileOptions) :
    Relocated base base' tree tree' (Registry.loaded fs.provider base ext options)
      (Registry.loaded fs'.provider base' ext options) := by
  rcases h.scan_cases ext with hrefused | ⟨routes, hscan, hsorted, hroutes, hfind⟩
  · rw [Registry.loaded_eq fs.provider]
    exact .inr (.inl (hrefused.bind _))
  rcases h'.scan_cases ext with hrefused | ⟨routes', hscan', hsorted', hroutes', hfind'⟩
  · rw [Registry.loaded_eq fs'.provider]
    exact .inr (.inr (hrefused.bind _))
  -- both scans succeed, so they list the files of the same routes in the same order
  have hsame : routes = routes' := by
    refine eq_of_pairwise_of_mem_iff (fun a b hab hba => List.lt_asymm hab hba) hsorted hsorted'
      fun route => ?_
    rw [hroutes, hroutes']
    exact and_congr_right fun _ => exists_congr fun content => halike.file
  subst hsame
  rw [Registry.loaded_of_scan options hscan, Registry.loaded_of_scan options hscan']
  refine (relocated_mapM fun route hroute => ?_).map PartialList.mk
  obtain ⟨hisRoute, content, hcontent⟩ := (hroutes route).1 hroute
  rw [Registry.loadedFile_eq_bind h.resolved options hisRoute,
    Registry.loadedFile_eq_bind h'.resolved options hisRoute]
  have hcontent' := halike.file.1 hcontent
  have hread := Registry.relocated_read hcontent hcontent' (hfind route hroute content hcontent)
    (hfind' route hroute content hcontent')
  exact hread.bind fun text => (Registry.relocated_checkTemplate route text options).map _

end HoldsTree

end Stencil
