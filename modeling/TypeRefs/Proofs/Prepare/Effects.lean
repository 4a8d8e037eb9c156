import TypeRefs.Prepare.Run
import TypeRefs.Proofs.Fs.Emit

/-!
# What a preparation does to the filesystem

A preparation reads the world until it writes, so it fails leaving the world
as it was or ends in `World.emit` (`runPrepare_eq_ok`, `runPrepare_eq_error`)
at a path of names, where the laws of `emit` apply.
-/

namespace TypeRefs

open TypeRefs.Path

theorem World.isAbsolute_pathOf (loc : Location) : (World.pathOf loc).isAbsolute = true := by
  rw [isAbsolute_iff]
  exact ⟨("/".intercalate loc).toList, by simp [World.pathOf]⟩

namespace SearchPaths

variable {cwd root : Path} {extraDirs : List Path} {paths : SearchPaths}

theorem root_eq_ofNames (hcwd : cwd.isAbsolute = true) (h : build cwd root extraDirs = .ok paths) :
    exists ns, (∀ x ∈ ns, IsName x) ∧ paths.root = ofNames ns := by
  unfold build absoluteRoot at h
  split at h
  · cases h
  · cases h
    exact normalize_of_isAbsolute (isAbsolute_join root hcwd)

theorem declarationPath_eq_ofNames (hcwd : cwd.isAbsolute = true)
    (h : build cwd root extraDirs = .ok paths) (decl : Path) :
    exists ns, (∀ x ∈ ns, IsName x) ∧ (paths.root.join decl).normalize = ofNames ns := by
  obtain ⟨ns, -, hroot⟩ := root_eq_ofNames hcwd h
  rw [hroot]
  exact normalize_of_isAbsolute (isAbsolute_join decl (isAbsolute_ofNames ns))

end SearchPaths

section Run

variable {w w' : World} {input : PrepareInput} {hook : Hook}

theorem runPrepare_eq_ok {out : PrepareOutput} (h : runPrepare w input hook = (w', .ok out)) :
    exists paths edited,
      SearchPaths.build w.cwdPath input.root input.extraDirs = .ok paths ∧
      hook ((Locator.mk w paths .fresh).collect input.identifiers).1.references = .ok edited ∧
      out = ⟨(paths.root.join input.declarationPath).normalize, Reference.dedupe edited,
        ((Locator.mk w paths .fresh).collect input.identifiers).1.resolutions, paths.dirs⟩ ∧
      w.emit ⟨input.generator, Reference.dedupe edited⟩ out.declarationPath = (w', .ok ()) := by
  unfold runPrepare at h
  split at h
  · cases h
  · rename_i paths hpaths
    rcases hc : (Locator.mk w paths .fresh).collect input.identifiers with ⟨collected, l⟩
    rw [hc] at h
    dsimp only at h
    split at h
    · cases h
    · rename_i edited hedited
      split at h
      · cases h
      · rename_i hemit
        cases h
        exact ⟨paths, edited, hpaths, by rw [hc]; exact hedited, by rw [hc], hemit⟩

theorem runPrepare_eq_error {e : PrepareError} (h : runPrepare w input hook = (w', .error e)) :
    w' = w ∨ exists paths edited e',
      SearchPaths.build w.cwdPath input.root input.extraDirs = .ok paths ∧
      hook ((Locator.mk w paths .fresh).collect input.identifiers).1.references = .ok edited ∧
      e = .emit (paths.root.join input.declarationPath).normalize e' ∧
      w.emit ⟨input.generator, Reference.dedupe edited⟩
        (paths.root.join input.declarationPath).normalize = (w', .error e') := by
  unfold runPrepare at h
  split at h
  · cases h
    exact .inl rfl
  · rename_i paths hpaths
    rcases hc : (Locator.mk w paths .fresh).collect input.identifiers with ⟨collected, l⟩
    rw [hc] at h
    dsimp only at h
    split at h
    · cases h
      exact .inl rfl
    · rename_i edited hedited
      split at h
      · rename_i e' hemit
        cases h
        exact .inr ⟨paths, edited, e', hpaths, by rw [hc]; exact hedited, rfl, hemit⟩
      · cases h

/-- The tree after a preparation. On success, only directories named by
leading parts of the declaration path were added, and the entry the path
names was replaced by the declaration file; the scratch location is empty.
On failure, either nothing changed, or the write failed and only such
directories were added. -/
theorem runPrepare_changes_only_declaration {r : Except PrepareError PrepareOutput}
    (hfree : ∀ paths, SearchPaths.build w.cwdPath input.root input.extraDirs = .ok paths →
      w.ScratchFree (paths.root.join input.declarationPath).normalize)
    (hrun : runPrepare w input hook = (w', r)) :
    (∀ out, r = .ok out → exists ns x D t₁,
      out.declarationPath = ofNames (ns ++ [x]) ∧ w.tree.MadeDirsFor t₁ ns ∧ Reaches t₁ ns D ∧
      t₁.get? (D ++ [x]) ≠ some .dir ∧
      (∀ l, w'.tree.get? l = if l = D ++ [x]
        then some (.file (Text.bytesOf (Declaration.render ⟨input.generator, out.references⟩))
          (w.clock + 1))
        else t₁.get? l) ∧
      w'.tree.get? (D ++ [World.scratchName x w.pid w.scratchCount]) = none) ∧
    (∀ e, r = .error e → w' = w ∨
      exists ns e', e = .emit (ofNames ns) e' ∧ w.tree.MadeDirsFor w'.tree ns.dropLast) := by
  constructor
  · intro out hout
    subst hout
    obtain ⟨paths, edited, hpaths, -, rfl, hemit⟩ := runPrepare_eq_ok hrun
    obtain ⟨ns, hns, hdecl⟩ :=
      SearchPaths.declarationPath_eq_ofNames (World.isAbsolute_pathOf w.cwd) hpaths
        input.declarationPath
    have hfree' := hfree paths hpaths
    rw [hdecl] at hemit hfree'
    obtain ⟨ns0, x, D, t₁, rfl, -, -, hmade, hreach, hnotdir, hscratch, hget, -⟩ :=
      World.emit_ofNames_eq_ok hns hfree' hemit
    refine ⟨ns0, x, D, t₁, hdecl, hmade, hreach, hnotdir, hget, ?_⟩
    -- the scratch file was renamed away, and its name is not the declaration's
    have hne : D ++ [World.scratchName x w.pid w.scratchCount] ≠ D ++ [x] := by
      simpa using World.scratchName_ne x w.pid w.scratchCount
    rw [hget, if_neg hne]
    exact hscratch
  · intro e he
    subst he
    rcases runPrepare_eq_error hrun with hsame | ⟨paths, edited, e', hpaths, -, rfl, hemit⟩
    · exact .inl hsame
    · obtain ⟨ns, hns, hdecl⟩ :=
        SearchPaths.declarationPath_eq_ofNames (World.isAbsolute_pathOf w.cwd) hpaths
          input.declarationPath
      have hfree' := hfree paths hpaths
      rw [hdecl] at hemit hfree'
      exact .inr ⟨ns, e', by rw [hdecl], World.emit_ofNames_eq_error hns hfree' hemit⟩

/-- A package is installed and the declaration goes to a directory that does
not exist yet: the run finds the package and makes the directory. -/
theorem runPrepare_changes_only_declaration_new_dir :
    let w : World := ⟨⟨[(["node_modules"], .dir), (["node_modules", "p"], .dir),
      (["node_modules", "p", "package.json"], .file (Text.bytesOf "\x7b\"name\":\"p\"\x7d") 0)]⟩,
      [], 0, 0, 0, none⟩
    let input : PrepareInput :=
      { root := ⟨"/"⟩, identifiers := ["p"], declarationPath := ⟨"types/nuxt.d.ts"⟩ }
    (runPrepare w input Hook.noop).2.toOption.map (·.references) = some [.package "p"] ∧
    (runPrepare w input Hook.noop).1.tree.get? ["types"] = some .dir ∧
    (∀ paths, SearchPaths.build w.cwdPath input.root input.extraDirs = .ok paths →
      w.ScratchFree (paths.root.join input.declarationPath).normalize) ∧
    (∀ out, (runPrepare w input Hook.noop).2 = .ok out → exists ns x D t₁,
      out.declarationPath = ofNames (ns ++ [x]) ∧ w.tree.MadeDirsFor t₁ ns ∧ Reaches t₁ ns D ∧
      t₁.get? (D ++ [x]) ≠ some .dir ∧
      (∀ l, (runPrepare w input Hook.noop).1.tree.get? l = if l = D ++ [x]
        then some (.file (Text.bytesOf (Declaration.render ⟨input.generator, out.references⟩))
          (w.clock + 1))
        else t₁.get? l) ∧
      (runPrepare w input Hook.noop).1.tree.get? (D ++ [World.scratchName x w.pid w.scratchCount])
        = none) ∧
    (∀ e, (runPrepare w input Hook.noop).2 = .error e → (runPrepare w input Hook.noop).1 = w ∨
      exists ns e', e = .emit (ofNames ns) e' ∧
        w.tree.MadeDirsFor (runPrepare w input Hook.noop).1.tree ns.dropLast) := by
  intro w input
  have hrun : (runPrepare w input Hook.noop).2.toOption.map (·.references) = some [.package "p"] ∧
      (runPrepare w input Hook.noop).1.tree.get? ["types"] = some .dir := by
    decide +kernel
  have hfree : ∀ paths, SearchPaths.build w.cwdPath input.root input.extraDirs = .ok paths →
      w.ScratchFree (paths.root.join input.declarationPath).normalize :=
    fun _ _ => World.scratchFree_of_no_dot_names (by decide) _
  exact ⟨hrun.1, hrun.2, hfree, runPrepare_changes_only_declaration hfree (Prod.eta _).symm⟩

end Run

end TypeRefs
