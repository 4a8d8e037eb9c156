import TypeRefs.Cli.Run
import TypeRefs.Proofs.Prepare.Effects
import TypeRefs.Proofs.Declaration.Lines

/-!
# Preparing from the command line

`prepare` takes its paths from the working directory and the preparation
takes them again from the root (`Cli.runPrepareCommand_paths_from_root`);
with a relative working directory they land below the root twice
(`Cli.relative_cwd_writes_below_root`). With `--json`, a success writes the
declaration and prints its lines (`Cli.run_json_prepare_writes_declaration`).
-/

namespace TypeRefs

theorem eq_ok_of_isOk {σ ε α : Type} [Inhabited α] {p : σ × Except ε α} (h : p.2.isOk = true) :
    p = (p.1, .ok (p.2.toOption.getD default)) := by
  obtain ⟨s, r⟩ := p
  cases r with
  | error e => cases h
  | ok v => rfl

namespace SearchPaths

theorem build_eq_ok {cwd root : Path} {extraDirs : List Path} {paths : SearchPaths}
    (h : build cwd root extraDirs = .ok paths) :
    paths = ⟨(cwd.join root).normalize, dedupeFrom []
      (ancestorDirs (cwd.join root).normalize ((cwd.join root).normalize.components.length + 1) ++
        extraDirs.map fun d => ((cwd.join root).normalize.join d).normalize)⟩ := by
  unfold build absoluteRoot at h
  split at h
  · cases h
  · cases h
    rfl

end SearchPaths

namespace Cli

open TypeRefs.Path

theorem runPrepareCommand_eq_ok {w w' : World} {cwd : Path} {a : PrepareArgs} {o : PrepareOutput}
    (h : runPrepareCommand w cwd a = (w', .ok o)) :
    let root := (cwd.join ⟨a.root⟩).normalize
    exists found project, ProjectConfig.load w root (a.config.map Path.mk) = .ok (found, project) ∧
      runPrepare w
        { root,
          identifiers := project.identifiers ++ a.modules,
          extraDirs := project.modulesDir ++ a.modulesDir.map fun d => cwd.join ⟨d⟩,
          declarationPath := match a.output with
            | some out => cwd.join ⟨out⟩
            | none => project.declarationPath root,
          generator := a.generator.getD defaultGenerator } project.hook = (w', .ok o) := by
  intro root
  unfold runPrepareCommand at h
  simp only [ite_isAbsolute_eq_join] at h
  split at h
  · cases h
  · split at h
    · cases h
    · rename_i found project hload
      exact ⟨found, project, hload, h⟩

/-- Where a preparation from the command line puts the declaration and
which directories it searches, for every working directory: the root is taken
from the working directory and then from the process's directory, and the
output, the default declaration and the module directories are taken from the
working directory and then from that root. -/
theorem runPrepareCommand_paths_from_root {w w' : World} {cwd : Path} {a : PrepareArgs}
    {o : PrepareOutput} (h : runPrepareCommand w cwd a = (w', .ok o)) :
    let root := (cwd.join ⟨a.root⟩).normalize
    let R := (w.cwdPath.join root).normalize
    exists found project, ProjectConfig.load w root (a.config.map Path.mk) = .ok (found, project) ∧
      o.declarationPath = (R.join ((a.output.map fun out => cwd.join ⟨out⟩).getD
        (root.join (project.declaration.getD ⟨defaultDeclarationName⟩)))).normalize ∧
      o.searchPaths = SearchPaths.dedupeFrom [] (SearchPaths.ancestorDirs R (R.components.length + 1) ++
        (project.modulesDir ++ a.modulesDir.map fun d => cwd.join ⟨d⟩).map fun d => (R.join d).normalize) := by
  intro root R
  obtain ⟨found, project, hload, hrun⟩ := runPrepareCommand_eq_ok h
  obtain ⟨paths, edited, hpaths, -, hout, -⟩ := runPrepare_eq_ok hrun
  have hR := SearchPaths.build_eq_ok hpaths
  refine ⟨found, project, hload, ?_, ?_⟩
  · rw [hout, hR]
    cases a.output <;> simp only [ProjectConfig.declarationPath, Option.map_some, Option.getD_some,
      Option.map_none, Option.getD_none] <;> rfl
  · rw [hout, hR]

/-- A run in a world with the working directory `a` of the root, with
`--cwd a`: the preparation succeeds, and its paths are those taken twice. -/
theorem runPrepareCommand_paths_from_root_relative :
    let w : World := ⟨⟨[(["a"], .dir)]⟩, [], 0, 1, 0, none⟩
    let cwd : Path := ⟨"a"⟩
    let a : PrepareArgs := {}
    let r := runPrepareCommand w cwd a
    let o := r.2.toOption.getD default
    let root := (cwd.join ⟨a.root⟩).normalize
    let R := (w.cwdPath.join root).normalize
    r = (r.1, .ok o) ∧
      exists found project, ProjectConfig.load w root (a.config.map Path.mk) = .ok (found, project) ∧
        o.declarationPath = (R.join ((a.output.map fun out => cwd.join ⟨out⟩).getD
        (root.join (project.declaration.getD ⟨defaultDeclarationName⟩)))).normalize ∧
        o.searchPaths = SearchPaths.dedupeFrom [] (SearchPaths.ancestorDirs R (R.components.length + 1) ++
          (project.modulesDir ++ a.modulesDir.map fun d => cwd.join ⟨d⟩).map fun d => (R.join d).normalize) := by
  intro w cwd a r o root R
  have hok : r = (r.1, .ok o) := eq_ok_of_isOk (by decide +kernel)
  exact ⟨hok, runPrepareCommand_paths_from_root hok⟩

/-- With `--cwd a`, taken from the process's directory `/`, the declaration is
written at `a/a/nuxt.d.ts` and not at `a/nuxt.d.ts`, where a run with
`--cwd /a`, the absolute form of `a`, writes it. -/
theorem relative_cwd_writes_below_root :
    let w : World := ⟨⟨[(["a"], .dir)]⟩, [], 0, 1, 0, none⟩
    (w.cwdPath.join ⟨"a"⟩).text = "/a" ∧
      ((run w ["--json", "--cwd", "a", "prepare"]).1.tree.get? ["a", "a", "nuxt.d.ts"]).isSome = true ∧
      ((run w ["--json", "--cwd", "a", "prepare"]).1.tree.get? ["a", "nuxt.d.ts"]).isNone = true ∧
      ((run w ["--json", "--cwd", "/a", "prepare"]).1.tree.get? ["a", "nuxt.d.ts"]).isSome = true := by
  decide +kernel

theorem runPrepareCommand_absolute_cwd {w w' : World} {cwd : Path} {a : PrepareArgs}
    {o : PrepareOutput} (hcwd : cwd.isAbsolute = true) (h : runPrepareCommand w cwd a = (w', .ok o)) :
    let root := (cwd.join ⟨a.root⟩).normalize
    exists found project, ProjectConfig.load w root (a.config.map Path.mk) = .ok (found, project) ∧
      o.searchPaths = SearchPaths.dedupeFrom []
        (SearchPaths.ancestorDirs root (root.components.length + 1) ++
          project.modulesDir.map (fun d => (root.join d).normalize) ++
          a.modulesDir.map (fun d => (cwd.join ⟨d⟩).normalize)) ∧
      o.declarationPath = ((a.output.map fun out => cwd.join ⟨out⟩).getD
        (root.join (project.declaration.getD ⟨defaultDeclarationName⟩))).normalize ∧
      o.references = Reference.dedupe
        (((Locator.mk w ⟨root, o.searchPaths⟩ .fresh).collect (project.identifiers ++ a.modules)).1.references ++
          project.references.types.map Reference.package ++
          project.references.paths.map Reference.path) ∧
      w.emit ⟨a.generator.getD defaultGenerator, o.references⟩ o.declarationPath = (w', .ok ()) := by
  dsimp only
  obtain ⟨found, project, hload, hrun⟩ := runPrepareCommand_eq_ok h
  generalize hr : (cwd.join ⟨a.root⟩).normalize = root at hload hrun ⊢
  obtain ⟨paths, edited, hpaths, hedited, rfl, hemit⟩ := runPrepare_eq_ok hrun
  -- the root is absolute and normal, so the preparation takes it as it is
  have hjoin : ∀ p : Path, (cwd.join p).isAbsolute = true := fun p => isAbsolute_join p hcwd
  have hrootAbs : root.isAbsolute = true := by
    rw [← hr]
    exact isAbsolute_normalize (hjoin _)
  have hroot : (w.cwdPath.join root).normalize = root := by
    rw [join_of_isAbsolute _ hrootAbs, ← hr]
    exact normalize_normalize_of_isAbsolute (hjoin _)
  obtain rfl := SearchPaths.build_eq_ok hpaths
  simp only [ProjectConfig.hook, Hook.extra, Except.ok.injEq] at hedited
  subst hedited
  simp only [hroot] at hemit ⊢
  refine ⟨found, project, hload, ?_, ?_, ?_, hemit⟩
  · simp only [List.map_append, List.map_map, Function.comp_def, join_of_isAbsolute _ (hjoin _),
      List.append_assoc]
  · cases a.output with
    | some out => simp only [Option.map_some, Option.getD_some, join_of_isAbsolute _ (hjoin _)]
    | none =>
      simp only [Option.map_none, Option.getD_none, ProjectConfig.declarationPath,
        join_of_isAbsolute _ (isAbsolute_join _ hrootAbs)]
  · simp only [List.append_assoc]

theorem prepareCommand_json_of_ok {w w' : World} {g : Globals} {a : PrepareArgs} {o : PrepareOutput}
    (hjson : g.json = true)
    (hok : runPrepareCommand w ((g.cwd.map Path.mk).getD w.cwdPath) a = (w', .ok o)) :
    prepareCommand w g a = (w', ⟨0, (successJson o).write ++ "\n"⟩) := by
  unfold prepareCommand
  cases hg : g.cwd with
  | some c =>
    simp only [hg, Option.map_some, Option.getD_some] at hok ⊢
    rw [hok]
    simp only [hjson, if_true]
  | none =>
    simp only [hg, Option.map_none, Option.getD_none] at hok ⊢
    rw [hok]
    simp only [hjson, if_true]

/-- A successful `--json prepare` from an absolute or the process's working
directory writes one declaration file: its references are those of the core
modules, then the string entries of the build modules, modules and internal
modules, then the command line's modules, followed by the configuration's
extra package and path references, each writable line once. The search goes
through the `node_modules` directories of the root and above, then the
configured module directories from the root, then the command line's from
the working directory. The run exits with 0 and prints one JSON object whose
`lines` and `references` are the lines and the records of the file's
references, in the file's order; the file is its header, a blank line, and
each of those lines on a line of its own. -/
theorem run_json_prepare_writes_declaration {w w' : World} {args : List String} {g : Globals}
    {a : PrepareArgs} {o : PrepareOutput}
    (hparse : parse args = .run g (some (.prepare a))) (hjson : g.json = true)
    (hcwd : ∀ c, g.cwd = some c → (Path.mk c).isAbsolute = true)
    (hok : runPrepareCommand w ((g.cwd.map Path.mk).getD w.cwdPath) a = (w', .ok o)) :
    let cwd : Path := (g.cwd.map Path.mk).getD w.cwdPath
    let root := (cwd.join ⟨a.root⟩).normalize
    let generator := a.generator.getD defaultGenerator
    exists found project, ProjectConfig.load w root (a.config.map Path.mk) = .ok (found, project) ∧
      o.searchPaths = SearchPaths.dedupeFrom []
        (SearchPaths.ancestorDirs root (root.components.length + 1) ++
          project.modulesDir.map (fun d => (root.join d).normalize) ++
          a.modulesDir.map (fun d => (cwd.join ⟨d⟩).normalize)) ∧
      o.declarationPath = ((a.output.map fun out => cwd.join ⟨out⟩).getD
        (root.join (project.declaration.getD ⟨defaultDeclarationName⟩))).normalize ∧
      o.references = Reference.dedupe
        (((Locator.mk w ⟨root, o.searchPaths⟩ .fresh).collect
            (project.effectiveCoreModules ++
              (project.buildModules ++ project.modules ++ project.internalModules).filterMap Json.str? ++
              a.modules)).1.references ++
          project.references.types.map Reference.package ++
          project.references.paths.map Reference.path) ∧
      w.emit ⟨generator, o.references⟩ o.declarationPath = (w', .ok ()) ∧
      run w args = (w', ⟨0, (successJson o).write ++ "\n"⟩) ∧
      (successJson o).field? "lines" = some (Json.strings (o.references.map Reference.render)) ∧
      (successJson o).field? "references" = some (.array (o.references.map Reference.toJson)) ∧
      Declaration.render ⟨generator, o.references⟩ = Declaration.header ⟨generator, o.references⟩ ++
        "\n\n" ++ String.join (o.references.map fun r => r.render ++ "\n") ∧
      ∀ r ∈ o.references, '\n' ∉ r.render.toList := by
  dsimp only
  have hcwdAbs : ((g.cwd.map Path.mk).getD w.cwdPath).isAbsolute = true := by
    cases hg : g.cwd with
    | some c => exact hcwd c hg
    | none => exact World.isAbsolute_pathOf w.cwd
  obtain ⟨found, project, hload, hsearch, hdecl, hrefs, hemit⟩ := runPrepareCommand_absolute_cwd hcwdAbs hok
  refine ⟨found, project, hload, hsearch, hdecl, ?_, hemit, ?_, ?_, ?_, Declaration.render_eq _, ?_⟩
  · rw [hrefs]
    simp only [ProjectConfig.identifiers, List.append_assoc]
  · -- the command line runs `prepare`, which succeeds and prints its JSON object
    have hrun : run w args = prepareCommand w g a := by
      unfold run
      rw [hparse]
    rw [hrun, prepareCommand_json_of_ok hjson hok]
  · simp [successJson, Json.field?]
  · simp [successJson, Json.field?]
  · intro r hr
    rw [hrefs] at hr
    exact Reference.newline_not_mem_render (Reference.isWritable_of_mem_dedupe hr)

/-- The core module is installed, and the declaration goes to a directory
that does not exist yet: the package becomes the one reference. -/
theorem run_json_prepare_writes_declaration_with_package :
    let w : World := ⟨⟨[(["node_modules"], .dir), (["node_modules", "@nuxt"], .dir),
      (["node_modules", "@nuxt", "kit"], .dir),
      (["node_modules", "@nuxt", "kit", "package.json"],
        .file (Text.bytesOf "\x7b\"name\":\"@nuxt/kit\"\x7d") 0)]⟩, [], 0, 1, 0, none⟩
    let args := ["--json", "prepare", "/", "-o", "types/nuxt.d.ts"]
    let g : Globals := { json := true }
    let a : PrepareArgs := { root := "/", output := some "types/nuxt.d.ts" }
    let r := runPrepareCommand w ((g.cwd.map Path.mk).getD w.cwdPath) a
    let o := r.2.toOption.getD default
    let cwd : Path := (g.cwd.map Path.mk).getD w.cwdPath
    let root := (cwd.join ⟨a.root⟩).normalize
    let generator := a.generator.getD defaultGenerator
    o.references = [.package "@nuxt/kit"] ∧ r.1.tree.get? ["types"] = some .dir ∧
    parse args = .run g (some (.prepare a)) ∧ g.json = true ∧
      (∀ c, g.cwd = some c → (Path.mk c).isAbsolute = true) ∧ r = (r.1, .ok o) ∧
      exists found project, ProjectConfig.load w root (a.config.map Path.mk) = .ok (found, project) ∧
        o.searchPaths = SearchPaths.dedupeFrom []
          (SearchPaths.ancestorDirs root (root.components.length + 1) ++
            project.modulesDir.map (fun d => (root.join d).normalize) ++
            a.modulesDir.map (fun d => (cwd.join ⟨d⟩).normalize)) ∧
        o.declarationPath = ((a.output.map fun out => cwd.join ⟨out⟩).getD
          (root.join (project.declaration.getD ⟨defaultDeclarationName⟩))).normalize ∧
        o.references = Reference.dedupe
          (((Locator.mk w ⟨root, o.searchPaths⟩ .fresh).collect
              (project.effectiveCoreModules ++
                (project.buildModules ++ project.modules ++ project.internalModules).filterMap Json.str? ++
                a.modules)).1.references ++
            project.references.types.map Reference.package ++
            project.references.paths.map Reference.path) ∧
        w.emit ⟨generator, o.references⟩ o.declarationPath = (r.1, .ok ()) ∧
        run w args = (r.1, ⟨0, (successJson o).write ++ "\n"⟩) ∧
        (successJson o).field? "lines" = some (Json.strings (o.references.map Reference.render)) ∧
        (successJson o).field? "references" = some (.array (o.references.map Reference.toJson)) ∧
        Declaration.render ⟨generator, o.references⟩ = Declaration.header ⟨generator, o.references⟩ ++
          "\n\n" ++ String.join (o.references.map fun r => r.render ++ "\n") ∧
        ∀ r ∈ o.references, '\n' ∉ r.render.toList := by
  intro w args g a r o cwd root generator
  have hfound : o.references = [.package "@nuxt/kit"] ∧ r.1.tree.get? ["types"] = some .dir := by
    decide +kernel
  have hparse : parse args = .run g (some (.prepare a)) := by decide +kernel
  have hcwd : ∀ c, g.cwd = some c → (Path.mk c).isAbsolute = true := by
    intro c hc
    cases hc
  have hok : r = (r.1, .ok o) := eq_ok_of_isOk (by decide +kernel)
  exact ⟨hfound.1, hfound.2, hparse, rfl, hcwd, hok,
    run_json_prepare_writes_declaration hparse rfl hcwd hok⟩

end Cli

end TypeRefs
