import TypeRefs.Proofs.Prepare.Effects
import TypeRefs.Proofs.Reference.Dedupe

/-!
# The declaration a preparation writes

What a successful preparation reports, and that the file read back holds the
rendered declaration (`runPrepare_output_readBack`). A path reached through a
link the write replaces no longer leads to the file
(`readBack_fails_through_replaced_link`).
-/

namespace TypeRefs

open TypeRefs.Path

namespace World

variable {w' : World} {t₁ : Tree} {ns : List String} {x : String} {D : Location}
  {bytes : List UInt8} {now : Nat}

theorem readBytes_ofNames_of_set_file (hns : ∀ y ∈ ns ++ [x], IsName y)
    (hreach : Reaches t₁ ns D) (hcheck : checkPath (ofNames (ns ++ [x])).text = .ok ())
    (hx : IsLastName x)
    (hkeep : ∀ l, (t₁.get? l = some .dir ∨ exists s, t₁.get? l = some (.link s)) → l ≠ D ++ [x])
    (hget : ∀ l, w'.tree.get? l = if l = D ++ [x] then some (.file bytes now) else t₁.get? l) :
    w'.readBytes (ofNames (ns ++ [x])) = .ok bytes := by
  have hagree : ∀ l, (t₁.get? l = some .dir ∨ exists s, t₁.get? l = some (.link s)) →
      w'.tree.get? l = t₁.get? l := by
    intro l hl
    rw [hget, if_neg (hkeep l hl)]
  have hfile : w'.tree.get? (D ++ [x]) = some (.file bytes now) := by
    rw [hget, if_pos rfl]
  have hfind : w'.find (ofNames (ns ++ [x])) true = .ok (.found (D ++ [x]) (.file bytes now)) := by
    unfold find
    rw [lookup_ofNames_append hns (hreach.congr hagree) (.inr (fun s => by simp [hfile])), hcheck]
    show w'.tree.lastTarget D x = _
    simp [Tree.lastTarget_of_isLastName hx, Tree.targetAt, hfile]
  unfold readBytes stat
  rw [hfind]

end World

section Output

variable {w w' : World} {input : PrepareInput} {hook : Hook} {out : PrepareOutput}

/-- What a successful preparation reports, and what it leaves at the reported path. -/
theorem runPrepare_output_readBack (hwf : w.tree.WellFormed)
    (hfree : ∀ paths, SearchPaths.build w.cwdPath input.root input.extraDirs = .ok paths →
      w.ScratchFree (paths.root.join input.declarationPath).normalize)
    (hrun : runPrepare w input hook = (w', .ok out))
    (hnolink : ∀ loc s, w.find out.declarationPath false ≠ .ok (.found loc (.link s))) :
    exists paths edited,
      SearchPaths.build w.cwdPath input.root input.extraDirs = .ok paths ∧
      out.declarationPath = (paths.root.join input.declarationPath).normalize ∧
      hook ((Locator.mk w paths .fresh).collect input.identifiers).1.references = .ok edited ∧
      out.references = Reference.dedupe edited ∧
      out.references = (edited.filter Reference.isWritable).eraseDups ∧
      out.resolutions = ((Locator.mk w paths .fresh).collect input.identifiers).1.resolutions ∧
      w'.readBytes out.declarationPath =
        .ok (Text.bytesOf (Declaration.render ⟨input.generator, out.references⟩)) ∧
      (out.references.map Reference.render).Nodup ∧
      ∀ r ∈ out.references, r.isWritable = true := by
  obtain ⟨paths, edited, hpaths, hedited, rfl, hemit⟩ := runPrepare_eq_ok hrun
  obtain ⟨ns, hns, hdecl⟩ :=
    SearchPaths.declarationPath_eq_ofNames (World.isAbsolute_pathOf w.cwd) hpaths
      input.declarationPath
  have hfree' := hfree paths hpaths
  dsimp only at hemit hnolink ⊢
  rw [hdecl] at hemit hfree' hnolink
  obtain ⟨ns0, x, D, t₁, rfl, hcheck, hx, hmade, hreach, hnotdir, -, hget, -⟩ :=
    World.emit_ofNames_eq_ok hns hfree' hemit
  refine ⟨paths, edited, hpaths, rfl, hedited, rfl, Reference.dedupe_eq_eraseDups edited, rfl,
    ?_, Reference.nodup_map_render_dedupe edited, fun r hr => Reference.isWritable_of_mem_dedupe hr⟩
  rw [hdecl]
  apply World.readBytes_ofNames_of_set_file hns hreach hcheck hx _ hget
  -- the entry written holds no directory, and a link there would have been in `w` already
  intro l hl heq
  subst heq
  rcases hl with hdir | ⟨s, hlink⟩
  · exact hnotdir hdir
  · have hns0 : ∀ y ∈ ns0, IsName y := fun y hy => hns y (List.mem_append_left _ hy)
    have hsame := hmade.eq_of_link hwf hns0 hreach hlink
    have hreach₀ : Reaches w.tree ns0 D := hreach.congr (fun l _ => (hsame l).symm)
    apply hnolink (D ++ [x]) s
    rw [World.find_ofNames_append_false hns hreach₀ hcheck hx]
    simp [Tree.targetAt, ← hsame, hlink]

theorem runPrepare_output_readBack_new_dir :
    let w : World := ⟨⟨[(["node_modules"], .dir), (["node_modules", "p"], .dir),
      (["node_modules", "p", "package.json"], .file (Text.bytesOf "\x7b\"name\":\"p\"\x7d") 0)]⟩,
      [], 0, 0, 0, none⟩
    let input : PrepareInput :=
      { root := ⟨"/"⟩, identifiers := ["p"], declarationPath := ⟨"types/nuxt.d.ts"⟩ }
    exists out, (runPrepare w input Hook.noop).2 = .ok out ∧
    out.references = [.package "p"] ∧
    exists paths edited,
      SearchPaths.build w.cwdPath input.root input.extraDirs = .ok paths ∧
      out.declarationPath = (paths.root.join input.declarationPath).normalize ∧
      Hook.noop ((Locator.mk w paths .fresh).collect input.identifiers).1.references = .ok edited ∧
      out.references = Reference.dedupe edited ∧
      out.references = (edited.filter Reference.isWritable).eraseDups ∧
      out.resolutions = ((Locator.mk w paths .fresh).collect input.identifiers).1.resolutions ∧
      (runPrepare w input Hook.noop).1.readBytes out.declarationPath =
        .ok (Text.bytesOf (Declaration.render ⟨input.generator, out.references⟩)) ∧
      (out.references.map Reference.render).Nodup ∧
      ∀ r ∈ out.references, r.isWritable = true := by
  intro w input
  have hrun : (runPrepare w input Hook.noop).2.toOption.map (fun o => (o.declarationPath, o.references)) =
      some (⟨"/types/nuxt.d.ts"⟩, [.package "p"]) := by
    decide +kernel
  have hfind : (w.find ⟨"/types/nuxt.d.ts"⟩ false).toOption = none := by
    decide +kernel
  have hwf : w.tree.WellFormed := Tree.wellFormed_of_entries (by decide)
  have hfree : ∀ paths, SearchPaths.build w.cwdPath input.root input.extraDirs = .ok paths →
      w.ScratchFree (paths.root.join input.declarationPath).normalize :=
    fun _ _ => World.scratchFree_of_no_dot_names (by decide) _
  cases hr : (runPrepare w input Hook.noop).2 with
  | error e =>
    rw [hr] at hrun
    cases hrun
  | ok out =>
    rw [hr] at hrun
    obtain ⟨hdecl, hrefs⟩ := Prod.mk.inj (Option.some.inj hrun)
    have hnolink : ∀ loc s, w.find out.declarationPath false ≠ .ok (.found loc (.link s)) := by
      intro loc s h
      rw [hdecl] at h
      rw [h] at hfind
      cases hfind
    exact ⟨out, rfl, hrefs, runPrepare_output_readBack hwf hfree (Prod.ext rfl hr) hnolink⟩

/-- The declaration `b/c` from the root, where `c` links to the directory `d`
and `b` links to `c/..`: the directory of `b/c` is reached through the link
`c`, which the write replaces by the file, and `b/c` no longer leads to it. -/
theorem readBack_fails_through_replaced_link :
    let w : World := ⟨⟨[(["d"], .dir), (["c"], .link "d"), (["b"], .link "c/..")]⟩, [], 0, 0, 0, none⟩
    let input : PrepareInput := { root := ⟨"/"⟩, identifiers := [], declarationPath := ⟨"b/c"⟩ }
    exists out, (runPrepare w input Hook.noop).2 = .ok out ∧
      (runPrepare w input Hook.noop).1.readBytes out.declarationPath = .error IoError.notDir := by
  intro w input
  have hpath : (runPrepare w input Hook.noop).2.toOption.map (·.declarationPath) =
      some ⟨"/b/c"⟩ := by
    decide +kernel
  -- `c` is now the file, so `b -> c/..` passes through a file
  have hread : (runPrepare w input Hook.noop).1.readBytes ⟨"/b/c"⟩ = .error IoError.notDir := by
    decide +kernel
  cases hr : (runPrepare w input Hook.noop).2 with
  | error e =>
    rw [hr] at hpath
    cases hpath
  | ok out =>
    rw [hr] at hpath
    have hdecl : out.declarationPath = ⟨"/b/c"⟩ := Option.some.inj hpath
    exact ⟨out, rfl, hdecl ▸ hread⟩

end Output

end TypeRefs
