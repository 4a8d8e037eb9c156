import TypeRefs.Path.Relative
import TypeRefs.Proofs.Resolve.PathSearch

/-!
# Relative paths

Both normal forms are split after their common leading components
(`Path.dropCommon_append`). Only a `..` left in the base's part makes the
relative path fail (`Path.all_isNormal_iff`); otherwise it climbs out of that
part and follows the rest, back to the path's own normal form
(`Path.normalize_join_relativeTo?`).
-/

namespace TypeRefs

namespace Path

/-!
## The common part
-/

theorem dropCommon_append {common rest up : List Component}
    (hlongest : rest.head? = none ∨ rest.head? ≠ up.head?) :
    dropCommon (common ++ rest) (common ++ up) = (rest, up) := by
  induction common with
  | nil =>
    rcases rest with _ | ⟨a, rest⟩
    · cases up <;> rfl
    · rcases up with _ | ⟨b, up⟩
      · rfl
      · have hab : a ≠ b := by
          rcases hlongest with h | h
          · cases h
          · simpa using h
        simp [dropCommon, hab]
  | cons c common ih => simp [dropCommon, ih]

/-!
## Normal forms
-/

theorem NormalForm.take {cs : List Component} (h : NormalForm cs) (j : Nat) : NormalForm (cs.take j) := by
  obtain ⟨ns, hns, rfl | ⟨k, rfl⟩⟩ := h
  · cases j with
    | zero => exact ⟨[], by simp, .inr ⟨0, rfl⟩⟩
    | succ j =>
      exact ⟨ns.take j, fun x hx => hns x (List.mem_of_mem_take hx), .inl (by simp [List.map_take])⟩
  · refine ⟨ns.take (j - k), fun x hx => hns x (List.mem_of_mem_take hx), .inr ⟨min j k, ?_⟩⟩
    rw [List.take_append, List.take_replicate, List.length_replicate, List.map_take]

theorem NormalForm.root_or_isPiece {cs : List Component} (h : NormalForm cs) {c : Component} (hc : c ∈ cs) :
    c = .root ∨ IsPiece c := by
  obtain ⟨ns, hns, rfl | ⟨k, rfl⟩⟩ := h
  · rcases List.mem_cons.mp hc with rfl | hc
    · exact .inl rfl
    · obtain ⟨x, hx, rfl⟩ := List.mem_map.mp hc
      exact .inr (.inr ⟨x, hns x hx, rfl⟩)
  · rcases List.mem_append.mp hc with hc | hc
    · exact .inr (.inl (List.eq_of_mem_replicate hc))
    · obtain ⟨x, hx, rfl⟩ := List.mem_map.mp hc
      exact .inr (.inr ⟨x, hns x hx, rfl⟩)

theorem NormalForm.up_not_mem {cs : List Component} (h : NormalForm cs) (hhead : cs.head? = some .root) :
    Component.up ∉ cs := by
  obtain ⟨ns, -, rfl | ⟨k, rfl⟩⟩ := h
  · simp
  · -- a run of `..` steps or a name stands first, never the root
    exfalso
    cases k with
    | zero => cases ns <;> simp at hhead
    | succ k => simp [List.replicate_succ] at hhead

theorem NormalForm.root_not_mem_of_append {c d : List Component} (h : NormalForm (c ++ d)) (hc : c ≠ []) :
    Component.root ∉ d := by
  obtain ⟨ns, -, heq | ⟨k, heq⟩⟩ := h
  · obtain ⟨x, c', rfl⟩ := List.exists_cons_of_ne_nil hc
    simp only [List.cons_append, List.cons.injEq] at heq
    intro hd
    have : Component.root ∈ ns.map Component.normal := heq.2 ▸ List.mem_append_right c' hd
    simp at this
  · intro hd
    have : Component.root ∈ List.replicate k Component.up ++ ns.map Component.normal :=
      heq ▸ List.mem_append_right c hd
    simp [List.mem_replicate] at this

theorem NormalForm.root_not_mem {cs : List Component} (h : NormalForm cs) (hhead : cs.head? ≠ some .root) :
    Component.root ∉ cs := by
  obtain ⟨ns, -, rfl | ⟨k, rfl⟩⟩ := h
  · simp at hhead
  · simp [List.mem_replicate]

theorem foldl_normalStep_up_names (ns : List String) (stack : List Component) :
    (List.replicate ns.length Component.up).foldl normalStep (ns.map .normal ++ stack) = stack := by
  induction ns with
  | nil => rfl
  | cons n ns ih =>
    have hpop : normalStep (.normal n :: (ns.map .normal ++ stack)) .up = ns.map .normal ++ stack := rfl
    rw [List.length_cons, List.replicate_succ, List.foldl_cons, List.map_cons, List.cons_append, hpop, ih]

theorem foldl_normalStep_of_append {c d : List Component} (h : NormalForm (c ++ d)) :
    c.foldl normalStep [] = c.reverse := by
  have hc : NormalForm c := by simpa using h.take c.length
  exact foldl_normalStep_of_normalForm hc

theorem foldl_normalStep_climb {common rest up : List Component} (hps : NormalForm (common ++ rest))
    (hnames : ∃ ns : List String, up = ns.map Component.normal) :
    (List.replicate up.length Component.up ++ rest).foldl normalStep (common ++ up).reverse =
      (common ++ rest).reverse := by
  obtain ⟨ns, rfl⟩ := hnames
  -- the stack holds the names on top of the common part; each `..` takes one off
  have hclimb : (List.replicate (ns.map Component.normal).length Component.up).foldl normalStep
      (common ++ ns.map Component.normal).reverse = common.reverse := by
    rw [List.reverse_append, ← List.map_reverse, List.length_map, ← List.length_reverse]
    exact foldl_normalStep_up_names ns.reverse common.reverse
  rw [List.foldl_append, hclimb, ← foldl_normalStep_of_append hps, ← List.foldl_append,
    foldl_normalStep_of_normalForm hps]

/-!
## Roots
-/

theorem root_not_mem_normalStep {stack : List Component} (h : Component.root ∉ stack) {c : Component}
    (hc : c ≠ .root) : Component.root ∉ normalStep stack c := by
  cases c with
  | root => exact absurd rfl hc
  | cur => exact h
  | up =>
    simp only [normalStep]
    split
    · exact fun hm => h (List.mem_cons_of_mem _ hm)
    · exact h
    · simp [h]
  | normal n => simp [normalStep, h]

theorem root_not_mem_normalComponents {cs : List Component} (h : ∀ c ∈ cs, c ≠ .root) :
    Component.root ∉ normalComponents cs := by
  have key : ∀ (xs stack : List Component), (∀ c ∈ xs, c ≠ .root) → Component.root ∉ stack →
      Component.root ∉ xs.foldl normalStep stack := by
    intro xs
    induction xs with
    | nil => intro stack _ hs; exact hs
    | cons x xs ih =>
      intro stack hxs hs
      exact ih _ (fun c hc => hxs c (List.mem_cons_of_mem _ hc))
        (root_not_mem_normalStep hs (hxs x List.mem_cons_self))
  simpa [normalComponents] using key cs [] h (by simp)

theorem isAbsolute_normalize_eq (p : Path) : p.normalize.isAbsolute = p.isAbsolute := by
  cases hp : p.isAbsolute with
  | true => exact isAbsolute_normalize hp
  | false =>
    have hnoroot : ∀ c ∈ p.components, c ≠ .root := by
      intro c hc hroot
      subst hroot
      rw [components_eq] at hc
      rcases List.mem_append.mp hc with hlead | hpiece
      · rcases lead_of_isAbsolute_eq_false hp with h | h <;> simp [h] at hlead
      · rcases isPiece_of_mem_pieces hpiece with h | ⟨x, -, h⟩ <;> cases h
    have hnot := root_not_mem_normalComponents hnoroot
    rw [← components_normalize] at hnot
    cases habs : p.normalize.isAbsolute with
    | false => rfl
    | true =>
      have hhead := isAbsolute_iff_head?.mp habs
      exact absurd (List.mem_of_mem_head? hhead) hnot

theorem hasRoot_components_normalize (p : Path) : hasRoot p.normalize.components = p.isAbsolute := by
  rw [← isAbsolute_normalize_eq]
  unfold hasRoot
  cases habs : p.normalize.isAbsolute with
  | true => simp [isAbsolute_iff_head?.mp habs]
  | false =>
    have hhead : p.normalize.components.head? ≠ some .root := fun h => by
      rw [isAbsolute_iff_head?.mpr h] at habs
      cases habs
    simpa using hhead

theorem normalForm_components_normalize (p : Path) : NormalForm p.normalize.components := by
  rw [components_normalize]
  exact normalForm_normalComponents p

theorem isAbsolute_eq_false_of_isPiece {r : Path} (h : ∀ c ∈ r.components, IsPiece c) : r.isAbsolute = false := by
  cases habs : r.isAbsolute with
  | false => rfl
  | true =>
    have hhead := isAbsolute_iff_head?.mp habs
    rcases h _ (List.mem_of_mem_head? hhead) with hroot | ⟨x, -, hroot⟩ <;> cases hroot

theorem normalize_eq_of_components {a b : Path} (h : a.normalize.components = b.normalize.components) :
    a.normalize = b.normalize := by
  show ofComponents (normalComponents a.components) = ofComponents (normalComponents b.components)
  rw [← components_normalize, ← components_normalize, h]

/-!
## The relative path
-/

section Decomposition

variable {p base : Path} {common rest up : List Component}

theorem root_not_mem_rests (hp : p.normalize.components = common ++ rest)
    (hbase : base.normalize.components = common ++ up)
    (hlongest : rest.head? = none ∨ rest.head? ≠ up.head?) (habs : p.isAbsolute = base.isAbsolute) :
    Component.root ∉ rest ∧ Component.root ∉ up := by
  have hps := normalForm_components_normalize p
  have hbs := normalForm_components_normalize base
  rw [hp] at hps
  rw [hbase] at hbs
  by_cases hc : common = []
  · subst hc
    rw [List.nil_append] at hp hbase hps hbs
    -- with nothing in common, a root would stand first on both sides, where they differ
    have hheads : rest.head? = some .root ↔ up.head? = some .root := by
      rw [← hp, ← hbase, ← isAbsolute_iff_head?, ← isAbsolute_iff_head?, isAbsolute_normalize_eq,
        isAbsolute_normalize_eq, habs]
    have hfirst : ∀ xs, NormalForm xs → Component.root ∈ xs → xs.head? = some .root := fun xs h hm =>
      Classical.byContradiction fun hne => h.root_not_mem hne hm
    have hdiffer : rest.head? = some .root → up.head? = some .root → False := by
      intro h₁ h₂
      rcases hlongest with h | h
      · rw [h₁] at h
        cases h
      · exact h (h₁.trans h₂.symm)
    exact ⟨fun hr => hdiffer (hfirst rest hps hr) (hheads.mp (hfirst rest hps hr)),
      fun hr => hdiffer (hheads.mpr (hfirst up hbs hr)) (hfirst up hbs hr)⟩
  · exact ⟨hps.root_not_mem_of_append hc, hbs.root_not_mem_of_append hc⟩

theorem all_isNormal_iff (hp : p.normalize.components = common ++ rest)
    (hbase : base.normalize.components = common ++ up)
    (hlongest : rest.head? = none ∨ rest.head? ≠ up.head?) (habs : p.isAbsolute = base.isAbsolute) :
    up.all Component.isNormal = true ↔ Component.up ∉ up := by
  have hroot := (root_not_mem_rests hp hbase hlongest habs).2
  have hbs := normalForm_components_normalize base
  rw [hbase] at hbs
  rw [List.all_eq_true]
  constructor
  · intro h hup
    cases h _ hup
  · intro hnot c hc
    rcases hbs.root_or_isPiece (List.mem_append_right common hc) with rfl | rfl | ⟨x, -, rfl⟩
    · exact absurd hc hroot
    · exact absurd hc hnot
    · rfl

theorem isPiece_of_mem_climb (hp : p.normalize.components = common ++ rest) (hroot : Component.root ∉ rest)
    {c : Component} (hc : c ∈ List.replicate up.length Component.up ++ rest) : IsPiece c := by
  have hps := normalForm_components_normalize p
  rw [hp] at hps
  rcases List.mem_append.mp hc with hc | hc
  · exact .inl (List.eq_of_mem_replicate hc)
  · rcases hps.root_or_isPiece (List.mem_append_right common hc) with rfl | hpiece
    · exact absurd hc hroot
    · exact hpiece

theorem relativeTo?_eq (hp : p.normalize.components = common ++ rest)
    (hbase : base.normalize.components = common ++ up)
    (hlongest : rest.head? = none ∨ rest.head? ≠ up.head?) :
    p.relativeTo? base =
      if p.isAbsolute = base.isAbsolute ∧ up.all Component.isNormal = true then
        some (if up = [] ∧ rest = [] then ⟨"."⟩ else ofComponents (List.replicate up.length .up ++ rest))
      else none := by
  unfold relativeTo?
  simp only [hasRoot_components_normalize]
  rw [hp, hbase, dropCommon_append hlongest]
  have hconst : up.map (fun _ => Component.up) = List.replicate up.length .up := List.map_const' ..
  have hempty : (List.replicate up.length Component.up ++ rest).isEmpty = true ↔ up = [] ∧ rest = [] := by
    simp
  simp only [hconst]
  by_cases habs : p.isAbsolute = base.isAbsolute
  · by_cases hup : up.all Component.isNormal = true
    · by_cases hnil : up = [] ∧ rest = []
      · simp [habs, hnil]
      · have hne : (List.replicate up.length Component.up ++ rest).isEmpty = false := by
          simpa [hempty] using hnil
        simp only [habs, bne_self_eq_false, Bool.false_eq_true, if_false, hup, if_true, and_self, hne, hnil]
    · simp [habs, hup]
  · simp [habs]

theorem relativeTo?_shape (hp : p.normalize.components = common ++ rest)
    (hbase : base.normalize.components = common ++ up)
    (hlongest : rest.head? = none ∨ rest.head? ≠ up.head?) {r : Path} (hr : p.relativeTo? base = some r) :
    (up = [] → rest = [] → r = ⟨"."⟩) ∧
      (up ++ rest ≠ [] → r.components = List.replicate up.length .up ++ rest) := by
  rw [relativeTo?_eq hp hbase hlongest] at hr
  split at hr
  · rename_i hok
    have hroot := (root_not_mem_rests hp hbase hlongest hok.1).1
    cases hr
    constructor
    · intro hup hrest
      simp [hup, hrest]
    · intro hne
      have hnil : ¬(up = [] ∧ rest = []) := fun h => hne (by simp [h.1, h.2])
      rw [if_neg hnil]
      exact components_ofComponents ⟨[], _, rfl, .inl rfl, fun c hc => isPiece_of_mem_climb hp hroot hc⟩
  · cases hr

theorem normalize_join_relativeTo? (hp : p.normalize.components = common ++ rest)
    (hbase : base.normalize.components = common ++ up)
    (hlongest : rest.head? = none ∨ rest.head? ≠ up.head?) {r : Path} (hr : p.relativeTo? base = some r) :
    (base.join r).normalize = p.normalize := by
  have hshape := relativeTo?_shape hp hbase hlongest hr
  rw [relativeTo?_eq hp hbase hlongest] at hr
  split at hr
  · rename_i hok
    obtain ⟨habs, hnormal⟩ := hok
    have hnames : ∃ ns : List String, up = ns.map Component.normal :=
      exists_eq_map_normal fun x hx => by
        have := List.all_eq_true.mp hnormal x hx
        cases x <;> simp_all [Component.isNormal]
    have hroot := (root_not_mem_rests hp hbase hlongest habs).1
    have hps := normalForm_components_normalize p
    rw [hp] at hps
    have hcomps : r.components.foldl normalStep (common ++ up).reverse = (common ++ rest).reverse ∧
        r.isAbsolute = false := by
      by_cases hnil : up = [] ∧ rest = []
      · obtain ⟨rfl, rfl⟩ := hnil
        rw [hshape.1 rfl rfl]
        have hdot : (Path.mk ".").components = [.cur] := by decide
        exact ⟨by rw [hdot]; rfl, by decide +kernel⟩
      · have hread := hshape.2 (fun h => hnil (List.append_eq_nil_iff.mp h))
        refine ⟨by rw [hread]; exact foldl_normalStep_climb hps hnames, ?_⟩
        apply isAbsolute_eq_false_of_isPiece
        rw [hread]
        exact fun c hc => isPiece_of_mem_climb hp hroot hc
    have hbasefold : base.components.foldl normalStep [] = (common ++ up).reverse := by
      rw [← hbase, components_normalize, normalComponents, List.reverse_reverse]
    have hjoin : (base.join r).normalize.components = p.normalize.components := by
      rw [components_normalize_join, hcomps.2, if_neg Bool.false_ne_true, hbasefold, hcomps.1,
        List.reverse_reverse, hp]
    exact normalize_eq_of_components hjoin
  · cases hr

theorem relativeTo?_eq_none_iff (hp : p.normalize.components = common ++ rest)
    (hbase : base.normalize.components = common ++ up)
    (hlongest : rest.head? = none ∨ rest.head? ≠ up.head?) :
    p.relativeTo? base = none ↔ p.isAbsolute ≠ base.isAbsolute ∨ Component.up ∈ up := by
  rw [relativeTo?_eq hp hbase hlongest]
  split
  · rename_i hok
    obtain ⟨habs, hnormal⟩ := hok
    have hnoup := (all_isNormal_iff hp hbase hlongest habs).mp hnormal
    simp [habs, hnoup]
  · rename_i hnot
    simp only [true_iff]
    by_cases habs : p.isAbsolute = base.isAbsolute
    · have hnormal : ¬up.all Component.isNormal = true := fun h => hnot ⟨habs, h⟩
      rw [all_isNormal_iff hp hbase hlongest habs] at hnormal
      exact .inr (Classical.not_not.mp hnormal)
    · exact .inl habs

theorem relativeTo?_ne_none_of_isAbsolute (hp : p.normalize.components = common ++ rest)
    (hbase : base.normalize.components = common ++ up)
    (hlongest : rest.head? = none ∨ rest.head? ≠ up.head?) (hpa : p.isAbsolute = true)
    (hba : base.isAbsolute = true) : p.relativeTo? base ≠ none := by
  have hroot : base.normalize.components.head? = some .root :=
    isAbsolute_iff_head?.mp (isAbsolute_normalize hba)
  have hnoup : Component.up ∉ common ++ up := by
    rw [← hbase]
    exact (normalForm_components_normalize base).up_not_mem hroot
  rw [Ne, relativeTo?_eq_none_iff hp hbase hlongest, hpa, hba]
  simp only [ne_eq, not_true_eq_false, false_or]
  exact fun hup => hnoup (List.mem_append_right common hup)

end Decomposition

/-- The path from a base to a path, both normalised first, with `common` their
longest common leading components: there is none exactly when one of the two
is absolute and the other not, or a `..` step of the base is left past
`common`, so two absolute paths always have one. When there is one, taking it
from the base leads where the path does; it is `.` when nothing is left past
`common`, and otherwise one `..` step for each component left of the base,
followed by the components left of the path. -/
theorem relativeTo?_laws (p base : Path) (common rest up : List Component)
    (hp : p.normalize.components = common ++ rest) (hbase : base.normalize.components = common ++ up)
    (hlongest : rest.head? = none ∨ rest.head? ≠ up.head?) :
    (p.relativeTo? base = none ↔ p.isAbsolute ≠ base.isAbsolute ∨ Component.up ∈ up) ∧
      (p.isAbsolute = true → base.isAbsolute = true → p.relativeTo? base ≠ none) ∧
      ∀ r, p.relativeTo? base = some r →
        (base.join r).normalize = p.normalize ∧ (up = [] → rest = [] → r = ⟨"."⟩) ∧
          (up ++ rest ≠ [] → r.components = List.replicate up.length .up ++ rest) :=
  ⟨relativeTo?_eq_none_iff hp hbase hlongest, relativeTo?_ne_none_of_isAbsolute hp hbase hlongest,
    fun _ hr => ⟨normalize_join_relativeTo? hp hbase hlongest hr, relativeTo?_shape hp hbase hlongest hr⟩⟩

example : (Path.mk "/x/nuxt.d.ts").relativeTo? ⟨"/work/app"⟩ = some ⟨"../../x/nuxt.d.ts"⟩ ∧
    (Path.mk "/work").relativeTo? ⟨"/work/"⟩ = some ⟨"."⟩ ∧
    (Path.mk "/work/a").relativeTo? ⟨"/work/./b/.."⟩ = some ⟨"a"⟩ ∧
    (Path.mk "/work/a").relativeTo? ⟨"work"⟩ = none ∧ (Path.mk "a").relativeTo? ⟨"../b"⟩ = none := by
  decide +kernel

/-- From `/work/app`, the file `/x/nuxt.d.ts` is two steps up and then down. -/
theorem relativeTo?_climbs_two_steps :
    (Path.mk "/x/nuxt.d.ts").normalize.components = [.root] ++ [.normal "x", .normal "nuxt.d.ts"] ∧
      (Path.mk "/work/app").normalize.components = [.root] ++ [.normal "work", .normal "app"] ∧
      (Path.mk "/x/nuxt.d.ts").relativeTo? ⟨"/work/app"⟩ ≠ none :=
  have hp : (Path.mk "/x/nuxt.d.ts").normalize.components = [.root] ++ [.normal "x", .normal "nuxt.d.ts"] := by
    decide +kernel
  have hbase : (Path.mk "/work/app").normalize.components = [.root] ++ [.normal "work", .normal "app"] := by
    decide +kernel
  ⟨hp, hbase, (relativeTo?_laws _ _ _ _ _ hp hbase (.inr (by decide))).2.1 (by decide +kernel) (by decide +kernel)⟩

end Path

end TypeRefs
