import Mathlib.Data.List.Induction
import TypeRefs.Proofs.Path.Normal
import TypeRefs.Proofs.Reference.Dedupe
import TypeRefs.Resolve.SearchPaths

/-!
# The directories packages are searched in

The root, made absolute and normalised, is a path of names; the search
directories are the `node_modules` of each leading part, nearest first
(`SearchPaths.walk`), then the extra directories, each kept at its first
place (`SearchPaths.build_search_dirs`).
-/

namespace TypeRefs
namespace SearchPaths
open TypeRefs.Path

/-- The directory `ofNames ns` and each directory above it, nearest first, as
lists of names. -/
def ancestors (ns : List String) : List (List String) :=
  (List.range (ns.length + 1)).reverse.map ns.take

/-- The `node_modules` directories of the directory `ofNames ns` and of each
directory above it, nearest first, leaving out directories that are
themselves named `node_modules`. -/
def walk (ns : List String) : List Path :=
  ((ancestors ns).filter fun a => (ofNames a).fileName? != some packagesDirName).map
    fun a => (ofNames a).join ⟨packagesDirName⟩

/-!
## The walk
-/

theorem ancestors_nil : ancestors [] = [[]] := rfl

theorem ancestors_append_single (ns : List String) (x : String) :
    ancestors (ns ++ [x]) = (ns ++ [x]) :: ancestors ns := by
  unfold ancestors
  rw [List.length_append, List.length_singleton, List.range_succ, List.reverse_append,
    List.reverse_singleton, List.singleton_append, List.map_cons, List.take_of_length_le (by simp)]
  congr 1
  apply List.map_congr_left
  intro i hi
  have : i ≤ ns.length := by
    simp at hi
    omega
  exact List.take_append_of_le_length this

theorem isName_packagesDirName : IsName packagesDirName := by
  decide

theorem names_append_packagesDirName {ns : List String} (hns : ∀ x ∈ ns, IsName x) :
    ∀ y ∈ ns ++ [packagesDirName], IsName y := by
  intro y hy
  rcases List.mem_append.mp hy with hy | hy
  · exact hns y hy
  · rw [List.mem_singleton.mp hy]
    exact isName_packagesDirName

theorem ofNames_join_packagesDirName {ns : List String} (hns : ∀ x ∈ ns, IsName x) :
    (ofNames ns).join ⟨packagesDirName⟩ = ofNames (ns ++ [packagesDirName]) :=
  ofNames_join_name (names_append_packagesDirName hns)

theorem walk_nil : walk [] = [ofNames [packagesDirName]] := by
  simp [walk, ancestors_nil, fileName?_ofNames_nil, ofNames_join_packagesDirName]

theorem walk_append_single {ns : List String} {x : String} (hns : ∀ y ∈ ns ++ [x], IsName y) :
    walk (ns ++ [x]) =
      (if x = packagesDirName then [] else [ofNames (ns ++ [x, packagesDirName])]) ++ walk ns := by
  unfold walk
  rw [ancestors_append_single, List.filter_cons, fileName?_ofNames_append hns]
  by_cases hx : x = packagesDirName
  · simp [hx]
  · simp [hx, ofNames_join_packagesDirName hns]

theorem mem_ancestors {ns a : List String} (h : a ∈ ancestors ns) : a <+: ns := by
  obtain ⟨i, -, rfl⟩ := List.mem_map.mp h
  exact List.take_prefix i ns

theorem mem_walk {ns : List String} {d : Path} (h : d ∈ walk ns) :
    ∃ a, a <+: ns ∧ d = (ofNames a).join ⟨packagesDirName⟩ := by
  obtain ⟨a, ha, rfl⟩ := List.mem_map.mp h
  exact ⟨a, mem_ancestors (List.mem_filter.mp ha).1, rfl⟩

theorem mem_walk_ofNames {ns : List String} (hns : ∀ x ∈ ns, IsName x) {d : Path} (h : d ∈ walk ns) :
    ∃ a, a <+: ns ∧ (∀ y ∈ a ++ [packagesDirName], IsName y) ∧ d = ofNames (a ++ [packagesDirName]) := by
  obtain ⟨a, ha, rfl⟩ := mem_walk h
  have hna : ∀ y ∈ a, IsName y := fun y hy => hns y (ha.subset hy)
  exact ⟨a, ha, names_append_packagesDirName hna, ofNames_join_packagesDirName hna⟩

theorem isAbsolute_normalize_of_mem_walk {ns : List String} (hns : ∀ x ∈ ns, IsName x) {d : Path}
    (h : d ∈ walk ns) : d.isAbsolute = true ∧ d.normalize = d := by
  obtain ⟨a, -, hna, rfl⟩ := mem_walk_ofNames hns h
  exact ⟨isAbsolute_ofNames _, normalize_ofNames hna⟩

theorem length_components_ofNames {ns : List String} (hns : ∀ x ∈ ns, IsName x) :
    (ofNames ns).components.length = ns.length + 1 := by
  simp [components_ofNames hns]

theorem nodup_walk : ∀ {ns : List String}, (∀ x ∈ ns, IsName x) → (walk ns).Nodup := by
  intro ns
  induction ns using List.reverseRecOn with
  | nil => intro _; simp [walk_nil]
  | append_singleton ns x ih =>
    intro hns
    have hns' : ∀ y ∈ ns, IsName y := fun y hy => hns y (by simp [hy])
    rw [walk_append_single hns]
    by_cases hx : x = packagesDirName
    · simpa [hx] using ih hns'
    · rw [if_neg hx, List.singleton_append, List.nodup_cons]
      refine ⟨fun hmem => ?_, ih hns'⟩
      -- the new directory has more components than any of the old walk
      obtain ⟨a, ha, hna, heq⟩ := mem_walk_ofNames hns' hmem
      have hlen := congrArg (fun p : Path => p.components.length) heq
      have hdeep : ∀ y ∈ ns ++ [x, packagesDirName], IsName y := by
        simpa using names_append_packagesDirName hns
      simp only [length_components_ofNames hdeep, length_components_ofNames hna,
        List.length_append, List.length_cons] at hlen
      have := ha.length_le
      omega

theorem getLast?_walk : ∀ {ns : List String}, (∀ x ∈ ns, IsName x) →
    (walk ns).getLast? = some (ofNames [packagesDirName]) := by
  intro ns
  induction ns using List.reverseRecOn with
  | nil => intro _; simp [walk_nil]
  | append_singleton ns x ih =>
    intro hns
    rw [walk_append_single hns, List.getLast?_append, ih (fun y hy => hns y (by simp [hy]))]
    rfl


/-!
## The climb and the deduplication
-/

theorem ancestorDirs_ofNames :
    ∀ {ns : List String}, (∀ x ∈ ns, IsName x) → ∀ fuel, ns.length < fuel →
      ancestorDirs (ofNames ns) fuel = walk ns := by
  intro ns
  induction ns using List.reverseRecOn with
  | nil =>
    intro _ fuel hfuel
    obtain ⟨f, rfl⟩ : ∃ f, fuel = f + 1 := ⟨fuel - 1, by simp at hfuel; omega⟩
    simp [walk_nil, ancestorDirs, parent?_ofNames_nil, fileName?_ofNames_nil, ofNames_join_packagesDirName]
  | append_singleton ns x ih =>
    intro hns fuel hfuel
    obtain ⟨f, rfl⟩ : ∃ f, fuel = f + 1 := ⟨fuel - 1, by simp at hfuel; omega⟩
    have hf : ns.length < f := by simp at hfuel; omega
    simp only [walk_append_single hns, ancestorDirs, parent?_ofNames_append hns, fileName?_ofNames_append hns,
      ih (fun y hy => hns y (by simp [hy])) f hf]
    by_cases hx : x = packagesDirName
    · simp [hx]
    · simp [hx, ofNames_join_packagesDirName hns]

theorem dedupeFrom_eq_eraseDups (seen : List String) (ps : List Path) :
    dedupeFrom seen ps = (ps.filter fun p => p.text ∉ seen).eraseDups := by
  induction ps generalizing seen with
  | nil => rfl
  | cons p ps ih =>
    simp only [dedupeFrom, List.contains_iff_mem]
    by_cases hp : p.text ∈ seen
    · rw [if_pos hp, List.filter_cons_of_neg (by simpa using hp), ih]
    · rw [if_neg hp, List.filter_cons_of_pos (by simpa using hp), List.eraseDups_cons, ih,
        List.filter_filter]
      congr 2
      apply List.filter_congr
      intro q _
      by_cases hq : q = p
      · simp [hq]
      · have htext : q.text ≠ p.text := fun h => hq (by cases q; cases p; simpa using h)
        simp [hq, htext]

theorem dedupeFrom_nil (ps : List Path) : dedupeFrom [] ps = ps.eraseDups := by
  rw [dedupeFrom_eq_eraseDups, List.filter_eq_self.mpr (by simp)]

theorem nodup_dedupeFrom (seen : List String) (ps : List Path) :
    (dedupeFrom seen ps).Nodup ∧ ∀ p ∈ dedupeFrom seen ps, p.text ∉ seen := by
  induction ps generalizing seen with
  | nil => simp [dedupeFrom]
  | cons p ps ih =>
    simp only [dedupeFrom, List.contains_iff_mem]
    by_cases hp : p.text ∈ seen
    · rw [if_pos hp]
      exact ih seen
    · rw [if_neg hp]
      obtain ⟨hnd, hfresh⟩ := ih (p.text :: seen)
      refine ⟨List.nodup_cons.mpr ⟨fun hmem => hfresh p hmem (by simp), hnd⟩, ?_⟩
      intro q hq
      rcases List.mem_cons.mp hq with rfl | hq
      · exact hp
      · exact fun h => hfresh q hq (List.mem_cons_of_mem _ h)

/-!
## Building the search paths
-/

/-- The extra directories as the search takes them from the root `root`: an
absolute one as it is, a relative one below the root, each normalised. -/
def extraSearchDirs (root : Path) (extraDirs : List Path) : List Path :=
  extraDirs.map fun e => (if e.isAbsolute = true then e else root.join e).normalize

theorem isAbsolute_normalize_of_mem_extraSearchDirs {ns : List String} {extraDirs : List Path} {e : Path}
    (h : e ∈ extraSearchDirs (ofNames ns) extraDirs) : e.isAbsolute = true ∧ e.normalize = e := by
  obtain ⟨d, -, rfl⟩ := List.mem_map.mp h
  rw [ite_isAbsolute_eq_join]
  exact ⟨isAbsolute_normalize (isAbsolute_join d (isAbsolute_ofNames ns)), normalize_normalize _⟩

theorem isAbsolute_cwdPath (w : World) : w.cwdPath.isAbsolute = true := by
  simp [World.cwdPath, World.pathOf, isAbsolute]

theorem build_empty_root (cwd : Path) (extraDirs : List Path) :
    build cwd ⟨""⟩ extraDirs = .error (.invalidRoot ⟨""⟩ "root directory is empty") := by
  simp [build, absoluteRoot]

theorem build_eq_walk {cwd root : Path} (hcwd : cwd.isAbsolute = true) (hroot : root.text ≠ "")
    (extraDirs : List Path) : ∃ ns, (∀ x ∈ ns, IsName x) ∧ (cwd.join root).normalize = ofNames ns ∧
      build cwd root extraDirs =
        .ok ⟨ofNames ns, (walk ns ++ extraSearchDirs (ofNames ns) extraDirs).eraseDups⟩ := by
  obtain ⟨ns, hns, hnorm⟩ := normalize_of_isAbsolute (isAbsolute_join root hcwd)
  refine ⟨ns, hns, hnorm, ?_⟩
  have hne : root.text.isEmpty = false := by simpa using hroot
  have hextra : extraSearchDirs (ofNames ns) extraDirs = extraDirs.map fun d => ((ofNames ns).join d).normalize := by
    simp [extraSearchDirs, ite_isAbsolute_eq_join]
  have hfuel : ns.length < (ofNames ns).components.length + 1 := by
    rw [length_components_ofNames hns]
    omega
  simp only [build, absoluteRoot, hne, hnorm, Bool.false_eq_true, if_false, bind, Except.bind, pure,
    Except.pure]
  rw [ancestorDirs_ofNames hns _ hfuel, dedupeFrom_nil, hextra]

/-- The search paths of a project: an empty root is refused; any other root is
made absolute from the working directory and normalised to a path of names,
and the directories are its walk followed by the normalised extra directories,
each kept at its first place. So every directory is absolute and normal, none
comes twice, the walk comes first as it is and ends at the filesystem root's
`node_modules`, and every extra directory is searched, those not in the walk
after it in the order first named. -/
theorem build_search_dirs (w : World) (root : Path) (extraDirs : List Path) :
    build w.cwdPath ⟨""⟩ extraDirs = .error (.invalidRoot ⟨""⟩ "root directory is empty") ∧
    (root.text ≠ "" → ∃ ns : List String, (∀ x ∈ ns, IsName x) ∧
      (if root.isAbsolute = true then root else w.cwdPath.join root).normalize = ofNames ns ∧
      ∃ dirs, build w.cwdPath root extraDirs = .ok ⟨ofNames ns, dirs⟩ ∧
        dirs = (walk ns ++ extraSearchDirs (ofNames ns) extraDirs).eraseDups ∧
        (∀ d ∈ dirs, d.isAbsolute = true ∧ d.normalize = d) ∧
        dirs.Nodup ∧
        dirs = walk ns ++ ((extraSearchDirs (ofNames ns) extraDirs).filter (· ∉ walk ns)).eraseDups ∧
        (walk ns).getLast? = some (ofNames [packagesDirName]) ∧
        ∀ e ∈ extraSearchDirs (ofNames ns) extraDirs, e ∈ dirs) := by
  refine ⟨build_empty_root _ _, fun hroot => ?_⟩
  obtain ⟨ns, hns, hnorm, hbuild⟩ := build_eq_walk (isAbsolute_cwdPath w) hroot extraDirs
  have hnodup : ((walk ns ++ extraSearchDirs (ofNames ns) extraDirs).eraseDups).Nodup := by
    have h := (nodup_dedupeFrom [] (walk ns ++ extraSearchDirs (ofNames ns) extraDirs)).1
    rwa [dedupeFrom_nil] at h
  refine ⟨ns, hns, by rw [ite_isAbsolute_eq_join, hnorm], _, hbuild, rfl, ?_, hnodup, ?_, getLast?_walk hns, ?_⟩
  · intro d hd
    rcases List.mem_append.mp (List.mem_eraseDups.mp hd) with hd | hd
    · exact isAbsolute_normalize_of_mem_walk hns hd
    · exact isAbsolute_normalize_of_mem_extraSearchDirs hd
  · rw [List.eraseDups_append, eraseDups_of_nodup (nodup_walk hns), List.removeAll]
    simp
  · intro e he
    exact List.mem_eraseDups.mpr (List.mem_append_right _ he)


theorem build_search_dirs_relative_root :
    let w : World := ⟨Tree.empty, ["work"], 0, 0, 0, none⟩
    let root : Path := ⟨"apps/web"⟩
    let extraDirs : List Path := [⟨"/work/node_modules"⟩, ⟨"../lib"⟩]
    root.text ≠ "" ∧ ∃ ns : List String, (∀ x ∈ ns, IsName x) ∧
      (if root.isAbsolute = true then root else w.cwdPath.join root).normalize = ofNames ns ∧
      ∃ dirs, build w.cwdPath root extraDirs = .ok ⟨ofNames ns, dirs⟩ ∧
        dirs = (walk ns ++ extraSearchDirs (ofNames ns) extraDirs).eraseDups ∧
        (∀ d ∈ dirs, d.isAbsolute = true ∧ d.normalize = d) ∧
        dirs.Nodup ∧
        dirs = walk ns ++ ((extraSearchDirs (ofNames ns) extraDirs).filter (· ∉ walk ns)).eraseDups ∧
        (walk ns).getLast? = some (ofNames [packagesDirName]) ∧
        ∀ e ∈ extraSearchDirs (ofNames ns) extraDirs, e ∈ dirs := by
  intro w root extraDirs
  have hroot : root.text ≠ "" := by decide
  exact ⟨hroot, (build_search_dirs w root extraDirs).2 hroot⟩

end SearchPaths
end TypeRefs
