import TypeRefs.Proofs.Resolve.Reads

/-!
# What a search for a path identifier reads

For each leading part of the identifier the search reads the manifest of
that part's directory taken from the root (`Locator.dirAfter`). When only
names follow, that directory leads to the identifier's target
(`Path.normalize_join_take_prefix`); a `..` breaks this
(`Locator.path_search_reads_beside_target`).
-/

namespace TypeRefs

namespace Path

theorem head_slashFields_eq_nil {l : List Char} {fs : List (List Char)} (h : slashFields l = [] :: fs) :
    l = [] ∨ ∃ t, l = '/' :: t := by
  cases l with
  | nil => exact .inl rfl
  | cons c t =>
    by_cases hc : c = '/'
    · exact .inr ⟨t, by rw [hc]⟩
    · obtain ⟨f, gs, hf⟩ := List.exists_cons_of_ne_nil (slashFields_ne_nil t)
      simp [slashFields, hc, hf] at h

theorem components_ne_nil {p : Path} (h : p.text ≠ "") : p.components ≠ [] := by
  rw [components_eq]
  obtain ⟨c, rest, hcr⟩ := List.exists_cons_of_ne_nil (show p.text.toList ≠ [] by simpa using h)
  rw [hcr]
  rcases lead_cases (c :: rest) with hl | hl | hl
  · rw [hl, List.nil_append]
    have hc : c ≠ '/' := fun hc => by subst hc; cases hl
    obtain ⟨f, fs, hf⟩ := List.exists_cons_of_ne_nil (slashFields_ne_nil rest)
    have hfields : slashFields (c :: rest) = (c :: f) :: fs := by simp [slashFields, hc, hf]
    -- the first piece is a name or `..`, since a lone leading `.` reads as `.`
    have hpiece : Component.ofPiece (String.ofList (c :: f)) ≠ none := by
      unfold Component.ofPiece
      split
      · rename_i hbad
        rcases hbad with hempty | hdot
        · simp at hempty
        · have hcf : c :: f = ['.'] := by simpa using congrArg String.toList hdot
          obtain ⟨rfl, rfl⟩ := List.cons_eq_cons.mp hcf
          rcases head_slashFields_eq_nil hf with rfl | ⟨t, rfl⟩ <;> cases hl
      · split <;> simp
    simp only [pieces, hfields, List.filterMap_cons]
    cases hof : Component.ofPiece (String.ofList (c :: f)) with
    | none => exact absurd hof hpiece
    | some x => simp
  · simp [hl]
  · simp [hl]

theorem isAbsolute_iff_head? {p : Path} : p.isAbsolute = true ↔ p.components.head? = some .root := by
  rw [isAbsolute_iff, components_eq]
  constructor
  · rintro ⟨rest, hrest⟩
    rw [hrest]
    rfl
  · intro h
    rcases lead_cases p.text.toList with hl | hl | hl <;> rw [hl] at h
    · -- no piece is the root
      obtain ⟨c, hc⟩ : ∃ c, c ∈ pieces p.text.toList ∧ c = .root := by
        cases hps : pieces p.text.toList with
        | nil => rw [hps] at h; cases h
        | cons c cs => rw [hps] at h; exact ⟨c, List.mem_cons_self, by simpa using h⟩
      rcases isPiece_of_mem_pieces hc.1 with h' | ⟨x, -, h'⟩ <;> rw [hc.2] at h' <;> cases h'
    · unfold lead at hl
      split at hl
      · rename_i rest hrest
        exact ⟨rest, hrest⟩
      all_goals simp at hl
    · simp at h

theorem components_normalize_join (a b : Path) :
    (a.join b).normalize.components =
      (b.components.foldl normalStep
        (if b.isAbsolute = true then [] else a.components.foldl normalStep [])).reverse := by
  rw [components_normalize, normalComponents]
  by_cases hb : b.isAbsolute = true
  · rw [join_of_isAbsolute a hb, if_pos hb]
  · rw [if_neg hb, foldl_normalStep_components_join a (by simpa using hb)]

theorem ofComponents_components_of_normal {d : Path} (h : d.normalize = d) : ofComponents d.components = d := by
  have hcomp : d.components = normalComponents d.components := by
    rw [← components_normalize, h]
  calc ofComponents d.components = ofComponents (normalComponents d.components) := by rw [← hcomp]
    _ = d.normalize := rfl
    _ = d := h

theorem isAbsolute_eq_of_head? {p q : Path} (h : p.components.head? = q.components.head?) :
    p.isAbsolute = q.isAbsolute :=
  Bool.eq_iff_iff.mpr (by rw [isAbsolute_iff_head?, isAbsolute_iff_head?, h])

theorem normalize_join_congr (a : Path) {b b' : Path} (h : b.components = b'.components) :
    (a.join b).normalize = (a.join b').normalize := by
  have habs : b.isAbsolute = b'.isAbsolute := isAbsolute_eq_of_head? (congrArg List.head? h)
  rw [← ofComponents_components_of_normal (normalize_normalize (a.join b)),
    ← ofComponents_components_of_normal (normalize_normalize (a.join b')),
    components_normalize_join, components_normalize_join, h, habs]

theorem Readable.take {cs : List Component} (h : Readable cs) (j : Nat) : Readable (cs.take j) := by
  obtain ⟨start, body, rfl, hstart, hbody⟩ := h
  rcases hstart with rfl | rfl | rfl
  · exact ⟨[], body.take j, by simp, .inl rfl, fun c hc => hbody c (List.mem_of_mem_take hc)⟩
  all_goals cases j with
    | zero => exact ⟨[], [], by simp, .inl rfl, by simp⟩
    | succ k => exact ⟨[_], body.take k, rfl, by simp, fun c hc => hbody c (List.mem_of_mem_take hc)⟩

theorem Readable.isPiece_of_mem_drop {cs : List Component} (h : Readable cs) {j : Nat} (hj : 0 < j)
    {c : Component} (hc : c ∈ cs.drop j) : IsPiece c := by
  obtain ⟨start, body, rfl, hstart, hbody⟩ := h
  obtain ⟨k, rfl⟩ := Nat.exists_eq_succ_of_ne_zero (Nat.pos_iff_ne_zero.mp hj)
  rcases hstart with rfl | rfl | rfl
  · exact hbody c (List.mem_of_mem_drop (List.mem_of_mem_drop (by simpa using hc)))
  all_goals exact hbody c (List.mem_of_mem_drop (by simpa using hc))

theorem exists_eq_map_normal : ∀ {xs : List Component}, (∀ x ∈ xs, ∃ n, x = .normal n) →
    ∃ ns : List String, xs = ns.map .normal
  | [], _ => ⟨[], rfl⟩
  | x :: xs, h => by
    obtain ⟨n, rfl⟩ := h x List.mem_cons_self
    obtain ⟨ns, hns⟩ := exists_eq_map_normal fun y hy => h y (List.mem_cons_of_mem _ hy)
    exact ⟨n :: ns, by rw [hns]; rfl⟩

theorem normalize_join_take_prefix (a b : Path) {j : Nat} (hj : 0 < j)
    (hup : Component.up ∉ b.components.drop j) :
    (a.join (ofComponents (b.components.take j))).normalize.components <+: (a.join b).normalize.components := by
  have hread := readable_components b
  have hround : (ofComponents (b.components.take j)).components = b.components.take j :=
    components_ofComponents (hread.take j)
  have habs : (ofComponents (b.components.take j)).isAbsolute = b.isAbsolute :=
    isAbsolute_eq_of_head? (by rw [hround, List.head?_take, if_neg (by omega)])
  obtain ⟨ns, hns⟩ := exists_eq_map_normal fun x hx => by
    rcases hread.isPiece_of_mem_drop hj hx with rfl | ⟨n, -, rfl⟩
    · exact absurd hx hup
    · exact ⟨n, rfl⟩
  rw [components_normalize_join, components_normalize_join, hround, habs]
  generalize (if b.isAbsolute = true then [] else a.components.foldl normalStep []) = s
  conv => rhs; rw [← List.take_append_drop j b.components]
  rw [List.foldl_append, hns, foldl_normalStep_normal, List.reverse_append, List.reverse_reverse]
  exact List.prefix_append _ _

end Path

namespace Path

theorem parent?_join_manifestName {d : Path} (hd : d.normalize = d) :
    (d.join ⟨manifestName⟩).parent? = some d := by
  have hcomp : (d.join ⟨manifestName⟩).components = d.components ++ [.normal manifestName] := by
    rw [components_join_of_lead d (lead_eq_nil_of_components components_manifestName), components_manifestName]
  simp [parent?, hcomp, ofComponents_components_of_normal hd]

theorem join_manifestName_inj {d e : Path} (hd : d.normalize = d) (he : e.normalize = e)
    (h : d.join ⟨manifestName⟩ = e.join ⟨manifestName⟩) : d = e := by
  have hparent := parent?_join_manifestName hd
  rw [h, parent?_join_manifestName he] at hparent
  exact (Option.some.inj hparent).symm

end Path

namespace Locator

open TypeRefs.Path

/-- The directory a path identifier reaches from `root` after its first `j`
components, normalised. -/
def dirAfter (root : Path) (id : String) (j : Nat) : Path :=
  (root.join (ofComponents ((Path.mk id).components.take j))).normalize

theorem normalize_dirAfter (root : Path) (id : String) (j : Nat) :
    (dirAfter root id j).normalize = dirAfter root id j :=
  normalize_normalize _

theorem ne_empty_of_of?_eq_some {id : String} {k : IdentifierKind} (h : IdentifierKind.of? id = some k) :
    id ≠ "" := by
  rintro rfl
  simp [IdentifierKind.of?] at h

theorem exists_dirAfter_of_mem_pathCandidates (root : Path) {id : String} (hid : id ≠ "") {c : Path}
    (hc : c ∈ pathCandidates id) :
    ∃ j, 0 < j ∧ j ≤ (Path.mk id).components.length ∧ (root.join c).normalize = dirAfter root id j := by
  unfold pathCandidates at hc
  split at hc
  · -- an absolute identifier is its own only candidate: all of its components
    obtain rfl := List.mem_singleton.mp hc
    have hlen : 0 < (Path.mk id).components.length := List.length_pos_iff.mpr (components_ne_nil hid)
    refine ⟨_, hlen, Nat.le_refl _, ?_⟩
    rw [dirAfter, List.take_length]
    exact normalize_join_congr root (components_ofComponents (readable_components _)).symm
  · simp only [List.mem_map, List.mem_filter, List.mem_reverse, List.mem_range] at hc
    obtain ⟨pre, ⟨⟨i, hi, rfl⟩, -⟩, rfl⟩ := hc
    exact ⟨i + 1, by omega, by omega, rfl⟩

theorem exists_of_mem_pathManifests {root m : Path} :
    ∀ {tried cs : List Path}, m ∈ pathManifests root tried cs →
      ∃ c ∈ cs, (root.join c).normalize ≠ root ∧ m = (root.join c).normalize.join ⟨manifestName⟩
  | _, [], h => absurd h List.not_mem_nil
  | tried, c :: cs, h => by
    unfold pathManifests at h
    dsimp only at h
    split at h
    · obtain ⟨c', hc', hne, rfl⟩ := exists_of_mem_pathManifests h
      exact ⟨c', List.mem_cons_of_mem _ hc', hne, rfl⟩
    · rename_i hskip
      rcases List.mem_cons.mp h with rfl | h
      · refine ⟨c, List.mem_cons_self, fun heq => hskip ?_, rfl⟩
        simp [heq]
      · obtain ⟨c', hc', hne, rfl⟩ := exists_of_mem_pathManifests h
        exact ⟨c', List.mem_cons_of_mem _ hc', hne, rfl⟩

/-- A search for a path identifier, whatever the world and the store, reads
the world only at the manifests it lists; each of them is the manifest of a
directory that the identifier's first `j > 0` components reach from the root,
never the root itself, so the root's own manifest is never read when the root
is normal. Such a directory lies on the way to the path the identifier names
unless a `..` follows those components. The search records only manifests it
lists, and a package it finds lives in one of these directories. -/
theorem locatePath_reads_leading_dirs (l : Locator) (id : String)
    (hpath : IdentifierKind.of? id = some .path) (hroot : l.paths.root.normalize = l.paths.root) :
    (∀ w' : World, (∀ m ∈ manifestPaths l.paths id, l.world.SameAt w' m) →
      { l with world := w' }.locate id = ((l.locate id).1, { (l.locate id).2 with world := w' })) ∧
    (∀ m ∈ manifestPaths l.paths id, ∃ j, 0 < j ∧ j ≤ (Path.mk id).components.length ∧
      dirAfter l.paths.root id j ≠ l.paths.root ∧ m = (dirAfter l.paths.root id j).join ⟨manifestName⟩) ∧
    l.paths.root.join ⟨manifestName⟩ ∉ manifestPaths l.paths id ∧
    (∀ j, 0 < j → Component.up ∉ (Path.mk id).components.drop j →
      (dirAfter l.paths.root id j).components <+: (l.resolvePath id).components) ∧
    (∀ m ∈ (l.locate id).1.tried, m ∈ manifestPaths l.paths id) ∧
    (∀ pkg, (l.locate id).1.package = some pkg → ∃ j, 0 < j ∧ j ≤ (Path.mk id).components.length ∧
      pkg.dir = dirAfter l.paths.root id j ∧ pkg.manifest = pkg.dir.join ⟨manifestName⟩) := by
  have hlisted : ∀ m ∈ manifestPaths l.paths id, ∃ j, 0 < j ∧ j ≤ (Path.mk id).components.length ∧
      dirAfter l.paths.root id j ≠ l.paths.root ∧ m = (dirAfter l.paths.root id j).join ⟨manifestName⟩ := by
    intro m hm
    simp only [manifestPaths, hpath] at hm
    obtain ⟨c, hc, hne, rfl⟩ := exists_of_mem_pathManifests hm
    obtain ⟨j, hj, hjle, hdir⟩ := exists_dirAfter_of_mem_pathCandidates l.paths.root (ne_empty_of_of?_eq_some hpath) hc
    exact ⟨j, hj, hjle, hdir ▸ hne, by rw [hdir]⟩
  obtain ⟨htried, hpkg⟩ := locate_tried_package l id
  refine ⟨fun w' hsame => locate_congr_world l id hsame, hlisted, ?_, ?_, htried, ?_⟩
  · intro hm
    obtain ⟨j, -, -, hne, heq⟩ := hlisted _ hm
    exact hne (join_manifestName_inj (normalize_dirAfter _ _ _) hroot heq.symm)
  · intro j hj hup
    exact normalize_join_take_prefix l.paths.root ⟨id⟩ hj hup
  · intro pkg hfound
    obtain ⟨hm, hdir⟩ := hpkg pkg hfound
    obtain ⟨j, hj, hjle, -, heq⟩ := hlisted _ hm
    have hdir' : pkg.dir = dirAfter l.paths.root id j := by
      rw [hdir, heq, parent?_join_manifestName (normalize_dirAfter _ _ _)]
      rfl
    exact ⟨j, hj, hjle, hdir', hdir' ▸ heq⟩

theorem locatePath_reads_leading_dirs_nested :
    let l : Locator := ⟨⟨Tree.empty, [], 0, 0, 0, none⟩, ⟨⟨"/r"⟩, []⟩, .disabled⟩
    IdentifierKind.of? "./a/b" = some .path ∧ l.paths.root.normalize = l.paths.root ∧
    l.paths.root.join ⟨manifestName⟩ ∉ manifestPaths l.paths "./a/b" := by
  intro l
  have hpath : IdentifierKind.of? "./a/b" = some .path := by decide +kernel
  have hroot : l.paths.root.normalize = l.paths.root := by decide +kernel
  exact ⟨hpath, hroot, (locatePath_reads_leading_dirs l "./a/b" hpath hroot).2.2.1⟩

/-- The search for `./a/../b` from `/r` reads `/r/a/package.json`, and `/r/a`
is not on the way to `/r/b`, where the identifier leads. -/
theorem path_search_reads_beside_target :
    let l : Locator := ⟨⟨Tree.empty, [], 0, 0, 0, none⟩, ⟨⟨"/r"⟩, []⟩, .disabled⟩
    (Path.mk "/r/a/package.json") ∈ (l.locate "./a/../b").1.tried ∧
    l.resolvePath "./a/../b" = ⟨"/r/b"⟩ ∧
    ¬ (Path.mk "/r/a").components <+: (Path.mk "/r/b").components := by
  decide +kernel

end Locator

end TypeRefs
