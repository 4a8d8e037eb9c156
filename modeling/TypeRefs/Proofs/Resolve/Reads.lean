import TypeRefs.Proofs.Path.Normal
import TypeRefs.Proofs.Resolve.Search

/-!
# What a search reads

Whatever the store holds, a search reads the world only at the manifests it
tries (`Locator.locate_congr_world`) and finds a package only in one of their
directories (`Locator.locate_tried_package`); for a bare identifier those
lie inside the search directories (`Locator.locateBare_reads_inside_dirs`).
-/

namespace TypeRefs

namespace World

variable {w w' : World} {p : Path}

theorem SameAt.fileStamp?_eq (h : w.SameAt w' p) : w'.fileStamp? p = w.fileStamp? p := by
  have hs := h.stat_toOption
  unfold fileStamp?
  cases hw : w.stat p <;> cases hw' : w'.stat p <;> simp_all [Except.toOption]

end World

namespace ManifestCache

variable {w w' : World} {p : Path}

theorem stampMatches_congr (h : w.SameAt w' p) (s : Option (Nat × Nat)) :
    stampMatches w' p s = stampMatches w p s := by
  cases s <;> simp [stampMatches, h.pathExists_eq, h.fileStamp?_eq]

theorem get?_congr (c : ManifestCache) (h : w.SameAt w' p) : c.get? w' p = c.get? w p := by
  cases c with
  | disabled => rfl
  | memory entries => simp only [get?, stampMatches_congr h]

theorem set_congr (c : ManifestCache) (h : w.SameAt w' p) (v : Json) : c.set w' p v = c.set w p v := by
  cases c <;> simp [set, h.fileStamp?_eq]

end ManifestCache

namespace Locator

theorem readManifest_world (l : Locator) (p : Path) : (l.readManifest p).2.world = l.world := by
  rw [readManifest_eq]
  cases l.cache.get? l.world p with
  | some v => rfl
  | none => cases l.world.manifest p <;> rfl

theorem readManifest_congr (l : Locator) {w' : World} {p : Path} (h : l.world.SameAt w' p) :
    { l with world := w' }.readManifest p =
      ((l.readManifest p).1, { (l.readManifest p).2 with world := w' }) := by
  rw [readManifest_eq, readManifest_eq]
  simp only [ManifestCache.get?_congr l.cache h, World.SameAt.manifest_eq h]
  cases l.cache.get? l.world p with
  | some v => rfl
  | none => cases l.world.manifest p <;> simp [ManifestCache.set_congr _ h]

theorem tryManifests_congr_world {w' : World} :
    ∀ (ms : List Path) (l : Locator) (tried : List Path) (saw : Bool), (∀ m ∈ ms, l.world.SameAt w' m) →
      { l with world := w' }.tryManifests tried saw ms =
        ((l.tryManifests tried saw ms).1, { (l.tryManifests tried saw ms).2 with world := w' }) := by
  intro ms
  induction ms with
  | nil => intro l tried saw _; rfl
  | cons m ms ih =>
    intro l tried saw hsame
    have hworld := readManifest_world l m
    simp only [tryManifests]
    rw [readManifest_congr l (hsame m List.mem_cons_self)]
    cases hread : l.readManifest m with
    | mk man l' =>
      rw [hread] at hworld
      have hrest : ∀ m' ∈ ms, l'.world.SameAt w' m' := fun m' hm' => hworld ▸ hsame m' (List.mem_cons_of_mem _ hm')
      cases man with
      | parsed v => rfl
      | invalid => exact ih l' _ true hrest
      | missing => exact ih l' _ saw hrest

theorem locate_congr_world (l : Locator) (id : String) {w' : World}
    (hsame : ∀ m ∈ manifestPaths l.paths id, l.world.SameAt w' m) :
    { l with world := w' }.locate id = ((l.locate id).1, { (l.locate id).2 with world := w' }) := by
  unfold manifestPaths at hsame
  unfold locate
  cases hk : IdentifierKind.of? id with
  | none => rfl
  | some k =>
    rw [hk] at hsame
    cases k with
    | path => exact tryManifests_congr_world _ l [] false hsame
    | bare =>
      unfold locateBare
      cases hc : packageCandidates id with
      | none => rfl
      | some names =>
        rw [hc] at hsame
        exact tryManifests_congr_world _ l [] false hsame

theorem mem_or_mem_cons_of_mem_addTried {tried ms : List Path} {m x : Path} (h : x ∈ addTried tried m) :
    x ∈ tried ∨ x ∈ m :: ms := by
  rcases mem_of_mem_addTried h with h | rfl
  · exact .inl h
  · exact .inr List.mem_cons_self

theorem tryManifests_tried_package :
    ∀ (ms : List Path) (l : Locator) (tried : List Path) (saw : Bool),
      (∀ m ∈ (l.tryManifests tried saw ms).1.tried, m ∈ tried ∨ m ∈ ms) ∧
      ∀ pkg, (l.tryManifests tried saw ms).1.package = some pkg →
        pkg.manifest ∈ ms ∧ pkg.dir = pkg.manifest.parent?.getD pkg.manifest := by
  intro ms
  induction ms with
  | nil =>
    intro l tried saw
    exact ⟨fun m hm => .inl hm, fun pkg h => by simp [tryManifests, Located.missing] at h⟩
  | cons m ms ih =>
    intro l tried saw
    simp only [tryManifests]
    cases l.readManifest m with
    | mk man l' =>
      cases man with
      | parsed v =>
        dsimp only
        refine ⟨fun x hx => ?_, fun pkg h => ?_⟩
        · have hx' : x ∈ addTried tried m := by
            unfold Located.ofManifest at hx
            split at hx <;> exact hx
          exact mem_or_mem_cons_of_mem_addTried hx'
        · unfold Located.ofManifest at h
          split at h
          · cases h
          · cases h
            exact ⟨List.mem_cons_self, rfl⟩
      | invalid | missing =>
        dsimp only
        obtain ⟨htried, hpkg⟩ := ih l' (addTried tried m) _
        refine ⟨fun x hx => ?_, fun pkg h => ?_⟩
        · rcases htried x hx with hx | hx
          · exact mem_or_mem_cons_of_mem_addTried hx
          · exact .inr (List.mem_cons_of_mem m hx)
        · obtain ⟨hmem, hdir⟩ := hpkg pkg h
          exact ⟨List.mem_cons_of_mem m hmem, hdir⟩

theorem locate_tried_package (l : Locator) (id : String) :
    (∀ m ∈ (l.locate id).1.tried, m ∈ manifestPaths l.paths id) ∧
    ∀ pkg, (l.locate id).1.package = some pkg →
      pkg.manifest ∈ manifestPaths l.paths id ∧ pkg.dir = pkg.manifest.parent?.getD pkg.manifest := by
  have hloop := fun ms => tryManifests_tried_package ms l [] false
  unfold manifestPaths locate
  cases hk : IdentifierKind.of? id with
  | none => simp
  | some k =>
    cases k with
    | path =>
      obtain ⟨htried, hpkg⟩ := hloop (pathManifests l.paths.root [] (pathCandidates id))
      exact ⟨fun m hm => (htried m hm).resolve_left (by simp), hpkg⟩
    | bare =>
      unfold locateBare
      cases hc : packageCandidates id with
      | none => simp
      | some names =>
        obtain ⟨htried, hpkg⟩ := hloop (names.flatMap fun name =>
          l.paths.dirs.map fun d => (d.join ⟨name⟩).join ⟨manifestName⟩)
        exact ⟨fun m hm => (htried m hm).resolve_left (by simp), hpkg⟩

end Locator

namespace Path

theorem components_intercalate_names {segs : List String} (hne : segs ≠ []) (h : ∀ s ∈ segs, IsName s) :
    (Path.mk ("/".intercalate segs)).components = segs.map .normal := by
  have hwrite : ofComponents (segs.map .normal) = ⟨"/".intercalate segs⟩ := by
    obtain ⟨s, rest, rfl⟩ := List.exists_cons_of_ne_nil hne
    rw [ofComponents_of_head?_ne (by simp)]
    simp [Component.text, Function.comp_def]
  rw [← hwrite]
  apply components_ofComponents
  refine ⟨[], segs.map .normal, rfl, .inl rfl, ?_⟩
  intro c hc
  obtain ⟨s, hs, rfl⟩ := List.mem_map.mp hc
  exact .inr ⟨s, h s hs, rfl⟩

theorem lead_eq_nil_of_components {p : Path} {n : String} {cs : List Component}
    (h : p.components = .normal n :: cs) : lead p.text.toList = [] := by
  rw [components_eq] at h
  rcases lead_cases p.text.toList with hl | hl | hl <;> rw [hl] at h
  · exact hl
  · simp at h
  · simp at h

theorem isAbsolute_eq_false_of_lead {p : Path} (h : lead p.text.toList = []) : p.isAbsolute = false := by
  cases habs : p.isAbsolute with
  | false => rfl
  | true =>
    obtain ⟨rest, hrest⟩ := isAbsolute_iff.mp habs
    rw [hrest] at h
    cases h

theorem components_join_of_lead (a : Path) {b : Path} (hb : lead b.text.toList = []) :
    (a.join b).components = a.components ++ b.components := by
  have hrel := isAbsolute_eq_false_of_lead hb
  by_cases ha : a.text = ""
  · rw [join_of_text_eq_empty b hrel ha, components_eq a, ha]
    rfl
  · rw [components_join hrel ha, components_eq b, hb, List.nil_append]

theorem isName_manifestName : IsName manifestName := by
  decide

theorem components_manifestName : (Path.mk manifestName).components = [.normal manifestName] := by
  have hone : [manifestName] ≠ [] := List.cons_ne_nil _ _
  simpa using components_intercalate_names hone (by simpa using isName_manifestName)

end Path

open TypeRefs.Path in
theorem mem_packageCandidates {id name : String} {names : List String} (h : packageCandidates id = some names)
    (hname : name ∈ names) : ∃ segs : List String, segs ≠ [] ∧ (∀ s ∈ segs, IsName s) ∧
      name = "/".intercalate segs := by
  unfold packageCandidates at h
  generalize String.ofList (id.toList.reverse.dropWhile (· == '/')).reverse = trimmed at h
  dsimp only at h
  split at h
  · cases h
  · rename_i hgood
    cases h
    have hsegs : ∀ s ∈ (slashFields trimmed.toList).map String.ofList, IsName s := by
      intro s hs
      have hok := List.any_eq_false.mp (Bool.not_eq_true _ ▸ hgood) s hs
      obtain ⟨f, hf, rfl⟩ := List.mem_map.mp hs
      simp only [Bool.or_eq_true, String.isEmpty_iff, beq_iff_eq, not_or] at hok
      exact ⟨hok.1.1, hok.1.2, hok.2, by simpa using slash_not_mem_of_mem_slashFields hf⟩
    have hne : (slashFields trimmed.toList).map String.ofList ≠ [] := by simp [slashFields_ne_nil]
    rcases List.mem_cons.mp hname with rfl | hshort
    · -- the whole identifier, trailing slashes dropped
      refine ⟨_, hne, hsegs, ?_⟩
      apply String.toList_inj.mp
      simp [Function.comp_def, intercalate_slashFields]
    · -- a leading run of its segments
      obtain ⟨i, -, rfl⟩ := List.mem_map.mp hshort
      refine ⟨_, ?_, fun s hs => hsegs s (List.mem_of_mem_take hs), rfl⟩
      simpa using hne

namespace Locator

open TypeRefs.Path in
/-- A search for a bare identifier, whatever the world and the store, reads
the world only at the manifests it tries; each of them is
`d/c/package.json` for a search directory `d` and a package name `c` made of
names only, so it lies strictly inside `d`; and the search records only
manifests it tries. -/
theorem locateBare_reads_inside_dirs (l : Locator) (id : String) (hbare : IdentifierKind.of? id = some .bare) :
    (∀ w' : World, (∀ m ∈ manifestPaths l.paths id, l.world.SameAt w' m) →
      { l with world := w' }.locate id = ((l.locate id).1, { (l.locate id).2 with world := w' })) ∧
    (∀ m ∈ manifestPaths l.paths id, ∃ d ∈ l.paths.dirs, ∃ c : Path,
      c.components ≠ [] ∧ (∀ x ∈ c.components, ∃ n, IsName n ∧ x = .normal n) ∧
      m = (d.join c).join ⟨manifestName⟩ ∧
      m.components = d.components ++ c.components ++ [.normal manifestName]) ∧
    (∀ m ∈ (l.locate id).1.tried, m ∈ manifestPaths l.paths id) := by
  refine ⟨fun w' hsame => locate_congr_world l id hsame, fun m hm => ?_, (locate_tried_package l id).1⟩
  unfold manifestPaths at hm
  rw [hbare] at hm
  cases hc : packageCandidates id with
  | none =>
    rw [hc] at hm
    cases hm
  | some names =>
    rw [hc] at hm
    obtain ⟨name, hname, hm⟩ := List.mem_flatMap.mp hm
    obtain ⟨d, hd, rfl⟩ := List.mem_map.mp hm
    obtain ⟨segs, hne, hsegs, rfl⟩ := mem_packageCandidates hc hname
    have hcomp := components_intercalate_names hne hsegs
    refine ⟨d, hd, _, by simpa [hcomp] using hne, ?_, rfl, ?_⟩
    · rw [hcomp]
      intro x hx
      obtain ⟨s, hs, rfl⟩ := List.mem_map.mp hx
      exact ⟨s, hsegs s hs, rfl⟩
    · -- the package name and the manifest's name each start with a name
      obtain ⟨s, rest, rfl⟩ := List.exists_cons_of_ne_nil hne
      have hlead := lead_eq_nil_of_components (hcomp.trans (List.map_cons ..))
      rw [components_join_of_lead _ (lead_eq_nil_of_components components_manifestName),
        components_join_of_lead _ hlead, components_manifestName]

open TypeRefs.Path in
theorem locateBare_reads_inside_dirs_scoped :
    let l : Locator := ⟨⟨Tree.empty, [], 0, 0, 0, none⟩, ⟨⟨"/r"⟩, [⟨"/r/node_modules"⟩, ⟨"/node_modules"⟩]⟩, .fresh⟩
    IdentifierKind.of? "@s/p/x" = some .bare ∧
    (∀ w' : World, (∀ m ∈ manifestPaths l.paths "@s/p/x", l.world.SameAt w' m) →
      { l with world := w' }.locate "@s/p/x" =
        ((l.locate "@s/p/x").1, { (l.locate "@s/p/x").2 with world := w' })) ∧
    (∀ m ∈ manifestPaths l.paths "@s/p/x", ∃ d ∈ l.paths.dirs, ∃ c : Path,
      c.components ≠ [] ∧ (∀ x ∈ c.components, ∃ n, IsName n ∧ x = .normal n) ∧
      m = (d.join c).join ⟨manifestName⟩ ∧
      m.components = d.components ++ c.components ++ [.normal manifestName]) ∧
    (∀ m ∈ (l.locate "@s/p/x").1.tried, m ∈ manifestPaths l.paths "@s/p/x") := by
  intro l
  have hbare : IdentifierKind.of? "@s/p/x" = some .bare := by decide +kernel
  exact ⟨hbare, locateBare_reads_inside_dirs l "@s/p/x" hbare⟩

end Locator

end TypeRefs
