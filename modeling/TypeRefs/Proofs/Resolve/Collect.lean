import TypeRefs.Proofs.Reference.Dedupe
import TypeRefs.Proofs.Resolve.Search

/-!
# Collecting the references of identifiers

A collection from a faithful store resolves each distinct identifier once, in
first order, as with nothing remembered (`World.resolution`); every
resolution is consistent, and its reference is writable
(`Reference.isWritable_package_of_usableName`), so deduplication only drops
repeats. The main result is `Locator.collect_eq_distinct_resolutions`.
-/

namespace TypeRefs

namespace Text

theorem isBlankText_trim_eq_false {s : String} (h : trim s ≠ "") : isBlankText (trim s) = false := by
  have hne : (s.toList.dropWhile isBlank).reverse.dropWhile isBlank ≠ [] := by
    intro hnil
    apply h
    simp [trim, trimChars, hnil]
  have hkept := List.head_dropWhile_not isBlank hne
  rw [isBlankText, List.all_eq_false]
  refine ⟨_, ?_, by rw [hkept]; decide⟩
  simp only [trim, trimChars, String.toList_ofList, List.mem_reverse]
  exact List.head_mem hne

end Text

theorem Reference.isWritable_package_of_usableName {v : Json} {n : String}
    (h : usableName v = some n) : (Reference.package n).isWritable = true := by
  obtain ⟨s, -, rfl, hne, hq, hn, hr⟩ := usableName_eq_some_iff.mp h
  have hnone : (Text.trim s).toList.any (fun c => c == '"' || c == '\n' || c == '\r') = false := by
    rw [List.any_eq_false]
    intro c hc
    have hcq : c ≠ '"' := fun hceq => hq (hceq ▸ hc)
    have hcn : c ≠ '\n' := fun hceq => hn (hceq ▸ hc)
    have hcr : c ≠ '\r' := fun hceq => hr (hceq ▸ hc)
    simp [hcq, hcn, hcr]
  simp [isWritable, value, isWritableValue, Text.isBlankText_trim_eq_false hne, hnone]

theorem distinctIds_eq_eraseDups (seen ids : List String) :
    distinctIds seen ids = (ids.filter (· ∉ seen)).eraseDups := by
  induction ids generalizing seen with
  | nil => rfl
  | cons id ids ih =>
    simp only [distinctIds, List.contains_iff_mem]
    by_cases hid : id ∈ seen
    · rw [if_pos hid, List.filter_cons_of_neg (by simpa using hid), ih]
    · rw [if_neg hid, List.filter_cons_of_pos (by simpa using hid), List.eraseDups_cons, ih,
        List.filter_filter]
      congr 2
      apply List.filter_congr
      intro x _
      by_cases hx : x = id <;> simp [hx]

namespace Locator

theorem tryManifests_package_name :
    ∀ (ms : List Path) (l : Locator) (tried : List Path) (saw : Bool) {pkg : Package},
      (l.tryManifests tried saw ms).1.package = some pkg → exists v, usableName v = some pkg.name := by
  intro ms
  induction ms with
  | nil =>
    intro l tried saw pkg h
    cases h
  | cons m ms ih =>
    intro l tried saw pkg h
    simp only [tryManifests] at h
    rcases hread : l.readManifest m with ⟨man, l'⟩
    rw [hread] at h
    cases man with
    | parsed v =>
      dsimp only at h
      unfold Located.ofManifest at h
      cases hv : usableName v with
      | none =>
        rw [hv] at h
        cases h
      | some name =>
        rw [hv] at h
        cases h
        exact ⟨v, hv⟩
    | invalid => exact ih l' _ true h
    | missing => exact ih l' _ saw h

theorem locate_package_name (l : Locator) (id : String) {pkg : Package}
    (h : (l.locate id).1.package = some pkg) : exists v, usableName v = some pkg.name := by
  unfold locate at h
  cases hk : IdentifierKind.of? id with
  | none =>
    rw [hk] at h
    cases h
  | some k =>
    rw [hk] at h
    cases k with
    | path => exact tryManifests_package_name _ l [] false h
    | bare =>
      unfold locateBare at h
      cases hc : packageCandidates id with
      | none =>
        rw [hc] at h
        cases h
      | some names =>
        rw [hc] at h
        exact tryManifests_package_name _ l [] false h

end Locator

/-- The resolution of `id` with nothing remembered. -/
def World.resolution (w : World) (paths : SearchPaths) (id : String) : Resolution :=
  ((Locator.mk w paths .disabled).resolve id).1

/-- A resolution agrees with the search for its identifier and with the
world: a package outcome is exactly a reference to the name of the package
found, with its directory and no reason; a path outcome is exactly a
reference to the identifier itself, naming something that exists from the
root; and an identifier is unresolved exactly when it has no reference. -/
structure Resolution.Consistent (w : World) (paths : SearchPaths) (r : Resolution) : Prop where
  package_iff : r.outcome = .package ↔
    (exists pkg, ((Locator.mk w paths .disabled).locate r.identifier).1.package = some pkg ∧
      r.reference = some (.package pkg.name)) ∧ r.packageDir.isSome ∧ r.reason = none
  path_iff : r.outcome = .path ↔
    r.reference = some (.path r.identifier) ∧
      w.pathExists (paths.root.join ⟨r.identifier⟩).normalize = true
  unresolved_iff : r.outcome = .unresolved ↔ r.reference = none

namespace World

variable {w : World} {paths : SearchPaths}

theorem resolution_consistent (w : World) (paths : SearchPaths) (id : String) :
    (w.resolution paths id).identifier = id ∧ (w.resolution paths id).Consistent w paths ∧
      ∀ e, (w.resolution paths id).reference = some e → e.isWritable = true := by
  have hstay : (Locator.mk w paths .disabled).locate id =
      (((Locator.mk w paths .disabled).locate id).1, Locator.mk w paths .disabled) :=
    Locator.locate_congr (fun _ _ => rfl)
  unfold resolution Locator.resolve
  rw [hstay]
  simp only [Locator.resolvePath]
  cases hpkg : ((Locator.mk w paths .disabled).locate id).1.package with
  | some pkg =>
    obtain ⟨v, hv⟩ := Locator.locate_package_name _ id hpkg
    refine ⟨rfl, ⟨?_, ?_, ?_⟩, ?_⟩
    · simp [hpkg]
    · simp
    · simp
    · intro e he
      cases he
      exact Reference.isWritable_package_of_usableName hv
  | none =>
    simp only
    by_cases hpresent : ((IdentifierKind.of? id).isSome && (Reference.path id).isWritable &&
        w.pathExists (paths.root.join ⟨id⟩).normalize) = true
    · -- the identifier names something that exists: a reference to itself
      have hparts : (Reference.path id).isWritable = true ∧
          w.pathExists (paths.root.join ⟨id⟩).normalize = true := by
        simp only [Bool.and_eq_true] at hpresent
        exact ⟨hpresent.1.2, hpresent.2⟩
      simp only [hpresent, if_true]
      refine ⟨trivial, ⟨?_, ?_, ?_⟩, ?_⟩
      · simp
      · simp [hparts.2]
      · simp
      · intro e he
        cases he
        exact hparts.1
    · simp only [hpresent, Bool.false_eq_true, if_false]
      refine ⟨trivial, ⟨?_, ?_, ?_⟩, ?_⟩
      · simp
      · simp
      · simp
      · intro e he
        cases he

end World

namespace Locator

variable {w : World} {paths : SearchPaths}

theorem resolveAll_disabled :
    ∀ ids : List String, (Locator.mk w paths .disabled).resolveAll ids =
      (ids.map (w.resolution paths), Locator.mk w paths .disabled) := by
  intro ids
  induction ids with
  | nil => rfl
  | cons id ids ih =>
    have hstay : (Locator.mk w paths .disabled).resolve id =
        (w.resolution paths id, Locator.mk w paths .disabled) :=
      resolve_congr (fun _ _ => rfl)
    simp only [resolveAll, hstay, ih, List.map_cons]

theorem collect_eq_of_storedIn {c : ManifestCache} (hc : c.StoredIn [w]) (ids : List String) :
    ((Locator.mk w paths c).collect ids).1 =
      ⟨Reference.dedupe ((ids.eraseDups.map (w.resolution paths)).filterMap Resolution.reference),
        ids.eraseDups.map (w.resolution paths)⟩ := by
  obtain ⟨col, c', hrun, hrun₀, -⟩ := collect_refines (World.stampsDetermineBytes_singleton w)
    (List.mem_singleton_self w) hc (l := Locator.mk w paths c) ids
  dsimp only at hrun hrun₀
  rw [hrun]
  have hnone := congrArg Prod.fst hrun₀
  dsimp only at hnone
  rw [← hnone]
  have hall : ids.filter (· ∉ ([] : List String)) = ids := List.filter_eq_self.mpr (by simp)
  simp only [collect, resolveAll_disabled, distinctIds_eq_eraseDups, hall]

/-- A collection resolves each distinct identifier once, in the order first
seen, as with nothing remembered; its references are those of the
resolutions, deduplicated. Every resolution agrees with its search and the
world and gives a reference that can be written, so the lines of the
references are exactly the lines of the resolutions' references. Collecting
more identifiers keeps both lists as they were at the front. -/
theorem collect_eq_distinct_resolutions {c : ManifestCache} (hc : c.StoredIn [w])
    (ids more : List String) :
    let col := ((Locator.mk w paths c).collect ids).1
    let col' := ((Locator.mk w paths c).collect (ids ++ more)).1
    col.resolutions = ids.eraseDups.map (w.resolution paths) ∧
    col.references = Reference.dedupe (col.resolutions.filterMap Resolution.reference) ∧
    (∀ r ∈ col.resolutions, r.Consistent w paths ∧
      ∀ e, r.reference = some e → e.isWritable = true) ∧
    (∀ s, s ∈ col.references.map Reference.render ↔
      ∃ r ∈ col.resolutions, ∃ e, r.reference = some e ∧ e.render = s) ∧
    col.references <+: col'.references ∧ col.resolutions <+: col'.resolutions := by
  intro col col'
  have hcol : col = _ := collect_eq_of_storedIn hc ids
  have hcol' : col' = _ := collect_eq_of_storedIn hc (ids ++ more)
  have hgood : ∀ r ∈ col.resolutions, r.Consistent w paths ∧
      ∀ e, r.reference = some e → e.isWritable = true := by
    intro r hr
    rw [hcol] at hr
    obtain ⟨id, -, rfl⟩ := List.mem_map.mp hr
    exact (World.resolution_consistent w paths id).2
  have hids : (ids ++ more).eraseDups = ids.eraseDups ++ (more.removeAll ids).eraseDups :=
    List.eraseDups_append
  refine ⟨by rw [hcol], by rw [hcol], hgood, ?_, ?_, ?_⟩
  · intro s
    rw [hcol]
    constructor
    · intro hs
      obtain ⟨e, he, rfl⟩ := List.mem_map.mp hs
      obtain ⟨hmem, -⟩ := Reference.mem_dedupe.mp he
      obtain ⟨r, hr, hre⟩ := List.mem_filterMap.mp hmem
      exact ⟨r, hr, e, hre, rfl⟩
    · rintro ⟨r, hr, e, hre, rfl⟩
      -- the reference of a resolution is writable, so deduplication keeps its line
      have hw := (hgood r (by rw [hcol]; exact hr)).2 e hre
      exact List.mem_map.mpr ⟨e, Reference.mem_dedupe.mpr ⟨List.mem_filterMap.mpr ⟨r, hr, hre⟩, hw⟩, rfl⟩
  · rw [hcol, hcol', hids, List.map_append, List.filterMap_append]
    exact Reference.dedupe_prefix_append _ _
  · rw [hcol, hcol', hids, List.map_append]
    exact List.prefix_append _ _

/-- An installed package, a directory named by a path, and an identifier
that names nothing, with a repeat, then one more package, with a fresh
store: the package and the path become references. -/
theorem collect_eq_distinct_resolutions_installed :
    let w : World := ⟨⟨[(["node_modules"], .dir), (["node_modules", "a"], .dir),
      (["node_modules", "a", "package.json"], .file (Text.bytesOf "\x7b\"name\":\"a\"\x7d") 0),
      (["lib"], .dir)]⟩, [], 0, 0, 0, none⟩
    let paths : SearchPaths := ⟨⟨"/"⟩, [⟨"/node_modules"⟩]⟩
    let ids := ["a", "./lib", "missing", "a"]
    let col := ((Locator.mk w paths .fresh).collect ids).1
    let col' := ((Locator.mk w paths .fresh).collect (ids ++ ["b"])).1
    col.references = [.package "a", .path "./lib"] ∧
    ManifestCache.fresh.StoredIn [w] ∧
    (col.resolutions = ids.eraseDups.map (w.resolution paths) ∧
    col.references = Reference.dedupe (col.resolutions.filterMap Resolution.reference) ∧
    (∀ r ∈ col.resolutions, r.Consistent w paths ∧
      ∀ e, r.reference = some e → e.isWritable = true) ∧
    (∀ s, s ∈ col.references.map Reference.render ↔
      ∃ r ∈ col.resolutions, ∃ e, r.reference = some e ∧ e.render = s) ∧
    col.references <+: col'.references ∧ col.resolutions <+: col'.resolutions) := by
  intro w paths ids col col'
  have hfound : col.references = [.package "a", .path "./lib"] := by decide +kernel
  exact ⟨hfound, ManifestCache.storedIn_fresh _,
    collect_eq_distinct_resolutions (ManifestCache.storedIn_fresh _) ids ["b"]⟩

end Locator

end TypeRefs
