import TypeRefs.Fs.Atomic

/-!
# Absolute normal paths

A normalised absolute path is the root followed by names, and its text,
components, parent, last name and lookup pieces all follow from the list of
names. Declaration paths and their scratch files have this form.
-/

namespace TypeRefs

/-!
## Slash fields
-/

theorem slashFields_ne_nil (l : List Char) : slashFields l ≠ [] := by
  cases l with
  | nil => simp [slashFields]
  | cons c cs =>
      simp only [slashFields]
      split
      · simp
      · split <;> simp

theorem slash_not_mem_of_mem_slashFields {l f : List Char} (hf : f ∈ slashFields l) :
    '/' ∉ f := by
  induction l generalizing f with
  | nil =>
      simp [slashFields] at hf
      simp [hf]
  | cons c cs ih =>
      simp only [slashFields] at hf
      by_cases hc : c = '/'
      · rw [if_pos hc] at hf
        rcases List.mem_cons.mp hf with rfl | hf
        · simp
        · exact ih hf
      · rw [if_neg hc] at hf
        cases hcs : slashFields cs with
        | nil => exact absurd hcs (slashFields_ne_nil cs)
        | cons g gs =>
            rw [hcs] at hf
            rcases List.mem_cons.mp hf with rfl | hf
            · have hg : '/' ∉ g := ih (by simp [hcs])
              simp only [List.mem_cons, not_or]
              exact ⟨fun h => hc h.symm, hg⟩
            · exact ih (by simp [hcs, hf])

theorem slashFields_of_slash_not_mem {l : List Char} (h : '/' ∉ l) : slashFields l = [l] := by
  induction l with
  | nil => rfl
  | cons c cs ih =>
      simp only [List.mem_cons, not_or] at h
      simp only [slashFields, if_neg (Ne.symm h.1), ih h.2]

theorem slashFields_append_slash {p : List Char} (t : List Char) (h : '/' ∉ p) :
    slashFields (p ++ '/' :: t) = p :: slashFields t := by
  induction p with
  | nil => simp [slashFields]
  | cons c cs ih =>
      simp only [List.mem_cons, not_or] at h
      simp only [List.cons_append, slashFields, if_neg (Ne.symm h.1), ih h.2]

theorem slashFields_intercalate {xs : List (List Char)} (hne : xs ≠ [])
    (h : ∀ x ∈ xs, '/' ∉ x) : slashFields (List.intercalate ['/'] xs) = xs := by
  induction xs with
  | nil => exact absurd rfl hne
  | cons x xs ih =>
      cases xs with
      | nil => simpa using slashFields_of_slash_not_mem (h x (by simp))
      | cons y ys =>
          have hx : '/' ∉ x := h x (by simp)
          rw [List.intercalate_cons_cons, List.append_assoc, List.singleton_append,
            slashFields_append_slash _ hx, ih (by simp) (fun z hz => h z (by simp [hz]))]

namespace Path

/-!
## Names
-/

/-- A piece of a path that stands for an entry: not empty, not `.` or `..`,
and without a slash. -/
def IsName (x : String) : Prop :=
  x ≠ "" ∧ x ≠ "." ∧ x ≠ ".." ∧ '/' ∉ x.toList

instance : DecidablePred IsName := fun x =>
  inferInstanceAs (Decidable (x ≠ "" ∧ x ≠ "." ∧ x ≠ ".." ∧ '/' ∉ x.toList))

/-- The absolute path of the names `ns`, from the root down. -/
def ofNames (ns : List String) : Path :=
  ofComponents (.root :: ns.map .normal)

theorem text_ofNames (ns : List String) :
    (ofNames ns).text = "/" ++ "/".intercalate ns := by
  simp [ofNames, ofComponents, Component.text, Function.comp_def]

theorem toList_text_ofNames (ns : List String) :
    (ofNames ns).text.toList = '/' :: List.intercalate ['/'] (ns.map String.toList) := by
  simp [text_ofNames]

theorem isAbsolute_ofNames (ns : List String) : (ofNames ns).isAbsolute = true := by
  simp [isAbsolute, text_ofNames]

theorem ofPiece_of_isName {x : String} (hx : IsName x) :
    Component.ofPiece x = some (.normal x) := by
  obtain ⟨h0, h1, h2, -⟩ := hx
  simp [Component.ofPiece, h0, h1, h2]

theorem slashFields_text_ofNames {ns : List String} (hns : ∀ x ∈ ns, IsName x) :
    slashFields (ofNames ns).text.toList = [] :: (if ns = [] then [[]] else ns.map String.toList) := by
  rw [toList_text_ofNames]
  simp only [slashFields, if_pos]
  split
  · subst ns
    rfl
  · rename_i hne
    rw [slashFields_intercalate (by simpa using hne)]
    intro x hx
    obtain ⟨n, hn, rfl⟩ := List.mem_map.mp hx
    exact (hns n hn).2.2.2

theorem text_ofNames_append (ns : List String) (x : String) :
    (ofNames (ns ++ [x])).text = (if ns = [] then "/" else (ofNames ns).text ++ "/") ++ x := by
  rw [text_ofNames, text_ofNames]
  split
  · subst ns
    simp
  · rename_i hne
    rw [String.intercalate_append_of_ne_nil hne (by simp)]
    simp [String.append_assoc]

theorem endsWith_slash_append {s x : String} (hx : IsName x) : (s ++ x).endsWith "/" = false := by
  rw [← String.endsWith_toSlice, String.Slice.endsWith_string_eq_false_iff]
  have hne : x.toList ≠ [] := by simpa using hx.1
  obtain ⟨c, hc⟩ := List.getLast?_isSome.mpr hne |> Option.isSome_iff_exists.mp
  have hcx : c ∈ x.toList := List.mem_of_getLast? hc
  intro hsuf
  rw [show ("/" : String).toList = ['/'] from rfl, List.singleton_suffix_iff_getLast?_eq_some] at hsuf
  simp only [String.copy_toSlice, String.toList_append, List.getLast?_append, hc,
    Option.some_or, Option.some.injEq] at hsuf
  subst hsuf
  exact hx.2.2.2 hcx

theorem filterMap_ofPiece_of_isName {ns : List String} (hns : ∀ x ∈ ns, IsName x) :
    ns.filterMap Component.ofPiece = ns.map .normal := by
  induction ns with
  | nil => rfl
  | cons x xs ih =>
      rw [List.filterMap_cons, ofPiece_of_isName (hns x (by simp)),
        ih (fun y hy => hns y (by simp [hy]))]
      rfl

theorem components_ofNames {ns : List String} (hns : ∀ x ∈ ns, IsName x) :
    (ofNames ns).components = .root :: ns.map .normal := by
  have hbody : ((slashFields (ofNames ns).text.toList).filterMap
      fun f => Component.ofPiece (String.ofList f)) = ns.map .normal := by
    rw [slashFields_text_ofNames hns]
    split
    · subst ns
      simp [Component.ofPiece]
    · simp only [List.filterMap_cons, String.ofList_nil, Component.ofPiece, true_or, if_true,
        List.filterMap_map, Function.comp_def, String.ofList_toList]
      exact filterMap_ofPiece_of_isName hns
  simp only [components, toList_text_ofNames] at hbody ⊢
  rw [hbody]

theorem pathPieces_ofNames {ns : List String} (hns : ∀ x ∈ ns, IsName x) :
    pathPieces (ofNames ns).text = ns := by
  have hps : (((slashFields (ofNames ns).text.toList).map String.ofList).filter (· != "")) = ns := by
    rw [slashFields_text_ofNames hns]
    split
    · subst ns
      rfl
    · simp only [List.map_cons, String.ofList_nil, List.map_map, Function.comp_def,
        String.ofList_toList, List.filter_cons, bne_self_eq_false, Bool.false_eq_true, if_false,
        List.map_id']
      exact List.filter_eq_self.mpr fun x hx => by simpa using (hns x hx).1
  unfold pathPieces
  simp only [hps]
  rcases List.eq_nil_or_concat ns with rfl | ⟨ns', x, rfl⟩
  · simp
  · rw [List.concat_eq_append] at hns ⊢
    rw [text_ofNames_append, endsWith_slash_append (hns x (by simp))]
    simp

theorem parent?_ofNames_append {ns : List String} {x : String} (hns : ∀ y ∈ ns ++ [x], IsName y) :
    (ofNames (ns ++ [x])).parent? = some (ofNames ns) := by
  unfold parent?
  rw [components_ofNames hns]
  simp [List.getLast?_cons, List.dropLast_cons_of_ne_nil, ofNames]

theorem components_ofNames_nil : (ofNames []).components = [.root] :=
  components_ofNames (List.forall_mem_nil _)

theorem parent?_ofNames_nil : (ofNames []).parent? = none := by
  simp [parent?, components_ofNames_nil]

theorem fileName?_ofNames_append {ns : List String} {x : String} (hns : ∀ y ∈ ns ++ [x], IsName y) :
    (ofNames (ns ++ [x])).fileName? = some x := by
  unfold fileName?
  rw [components_ofNames hns]
  simp [List.getLast?_cons]

theorem fileName?_ofNames_nil : (ofNames []).fileName? = none := by
  simp [fileName?, components_ofNames_nil]

theorem endsWith_slash_text_ofNames {ns : List String} (hns : ∀ x ∈ ns, IsName x) :
    (ofNames ns).text.endsWith "/" = ns.isEmpty := by
  rcases List.eq_nil_or_concat ns with rfl | ⟨ns', x, rfl⟩
  · decide +kernel
  · rw [List.concat_eq_append] at hns ⊢
    rw [text_ofNames_append, endsWith_slash_append (hns x (by simp))]
    simp

theorem ofNames_join_name {ns : List String} {x : String} (hns : ∀ y ∈ ns ++ [x], IsName y) :
    (ofNames ns).join ⟨x⟩ = ofNames (ns ++ [x]) := by
  have hx := hns x (by simp)
  have hrel : (Path.mk x).isAbsolute = false := by
    have hne : x.toList ≠ [] := by simpa using hx.1
    obtain ⟨c, cs, hcs⟩ := List.exists_cons_of_ne_nil hne
    have hc : c ≠ '/' := fun h => hx.2.2.2 (by simp [hcs, h])
    simp [isAbsolute, hcs, Ne.symm hc]
  have hsl : (ofNames ns).text.endsWith "/" = ns.isEmpty :=
    endsWith_slash_text_ofNames fun y hy => hns y (by simp [hy])
  have hnonempty : (ofNames ns).text.isEmpty = false := by simp [text_ofNames]
  unfold join
  rw [hrel, hnonempty, hsl, Path.mk.injEq, text_ofNames_append]
  by_cases hn : ns = []
  · subst hn
    simp [text_ofNames]
  · simp [hn]

/-!
## Scratch files
-/

theorem slash_not_mem_toString (n : Nat) : '/' ∉ (toString n).toList := by
  rw [Nat.toString_eq_ofList_toDigits, String.toList_ofList]
  intro h
  have := Nat.isDigit_of_mem_toDigits (by decide) (by decide) h
  simp at this

theorem isName_scratchName {x : String} (hx : '/' ∉ x.toList) (pid seq : Nat) :
    IsName (World.scratchName x pid seq) := by
  have hlen : 7 ≤ (World.scratchName x pid seq).length := by
    simp only [World.scratchName, String.length_append]
    have : ".tmp.".length = 5 := rfl
    have : ".".length = 1 := rfl
    omega
  refine ⟨fun h => ?_, fun h => ?_, fun h => ?_, ?_⟩
  · rw [h] at hlen
    exact absurd hlen (by decide)
  · rw [h] at hlen
    exact absurd hlen (by decide)
  · rw [h] at hlen
    exact absurd hlen (by decide)
  · simp only [World.scratchName, String.toList_append, List.mem_append, not_or]
    refine ⟨⟨⟨⟨⟨?_, hx⟩, ?_⟩, slash_not_mem_toString pid⟩, ?_⟩, slash_not_mem_toString seq⟩
    all_goals decide

theorem scratchPath_ofNames {ns : List String} {x : String} (hns : ∀ y ∈ ns ++ [x], IsName y)
    (pid seq : Nat) :
    World.scratchPath (ofNames (ns ++ [x])) pid seq =
      ofNames (ns ++ [World.scratchName x pid seq]) := by
  have hx := hns x (by simp)
  have htmp := isName_scratchName hx.2.2.2 pid seq
  unfold World.scratchPath
  rw [parent?_ofNames_append hns, fileName?_ofNames_append hns]
  exact ofNames_join_name (fun y hy => by
    rcases List.mem_append.mp hy with hy | hy
    · exact hns y (by simp [hy])
    · simp at hy
      subst hy
      exact htmp)

theorem scratchPath_ofNames_nil (pid seq : Nat) :
    World.scratchPath (ofNames []) pid seq = ⟨"./" ++ World.scratchName "file" pid seq⟩ := by
  have hrel : (Path.mk (World.scratchName "file" pid seq)).isAbsolute = false := by
    simp [isAbsolute, World.scratchName]
  unfold World.scratchPath
  rw [parent?_ofNames_nil, fileName?_ofNames_nil]
  simp only [Option.getD_none, join, hrel, Bool.false_eq_true, if_false]
  rw [if_neg (by decide +kernel)]
  rfl

theorem pathPieces_dot_slash {x : String} (hx : IsName x) : pathPieces ("./" ++ x) = [".", x] := by
  have htext : ("./" ++ x).toList = ['.'] ++ '/' :: x.toList := by
    rw [String.toList_append]
    rfl
  have hfields : slashFields ("./" ++ x).toList = [['.'], x.toList] := by
    rw [htext, slashFields_append_slash x.toList (show '/' ∉ ['.'] by decide),
      slashFields_of_slash_not_mem hx.2.2.2]
  unfold pathPieces
  rw [hfields, endsWith_slash_append hx]
  simp [hx.1]

/-!
## Normalising an absolute path
-/

theorem isAbsolute_iff {p : Path} : p.isAbsolute = true ↔ ∃ rest, p.text.toList = '/' :: rest := by
  simp [isAbsolute, List.singleton_prefix_iff_head?_eq_some, List.head?_eq_some_iff]

theorem isAbsolute_join {p : Path} (q : Path) (hp : p.isAbsolute = true) :
    (p.join q).isAbsolute = true := by
  obtain ⟨rest, hrest⟩ := isAbsolute_iff.mp hp
  unfold join
  split
  · assumption
  · rw [isAbsolute_iff]
    have hne : p.text.isEmpty = false := by simp [← String.toList_inj, hrest]
    rw [hne, Bool.false_or]
    split
    · exact ⟨rest ++ q.text.toList, by simp [hrest]⟩
    · exact ⟨rest ++ '/' :: q.text.toList, by simp [hrest]⟩

theorem components_of_isAbsolute {p : Path} (hp : p.isAbsolute = true) :
    exists body, p.components = .root :: body ∧
      ∀ c ∈ body, c = .up ∨ ∃ x, IsName x ∧ c = .normal x := by
  obtain ⟨rest, hrest⟩ := isAbsolute_iff.mp hp
  unfold components
  rw [hrest]
  refine ⟨_, rfl, fun c hc => ?_⟩
  obtain ⟨f, hf, hfc⟩ := List.mem_filterMap.mp hc
  have hslash : '/' ∉ f := slash_not_mem_of_mem_slashFields hf
  unfold Component.ofPiece at hfc
  split at hfc
  · cases hfc
  · rename_i hnot
    split at hfc
    · cases hfc
      exact .inl rfl
    · rename_i hup
      cases hfc
      simp only [not_or] at hnot
      exact .inr ⟨String.ofList f, ⟨hnot.1, hnot.2, hup, by simpa using hslash⟩, rfl⟩

theorem foldl_normalStep_names {body : List Component}
    (hbody : ∀ c ∈ body, c = .up ∨ ∃ x, IsName x ∧ c = .normal x) :
    ∀ ns : List String, (∀ x ∈ ns, IsName x) →
      exists ns' : List String, (∀ x ∈ ns', IsName x) ∧
        body.foldl normalStep ((ns.map .normal).reverse ++ [.root]) =
          (ns'.map .normal).reverse ++ [.root] := by
  induction body with
  | nil => exact fun ns hns => ⟨ns, hns, rfl⟩
  | cons c cs ih =>
      intro ns hns
      have hcs : ∀ c ∈ cs, c = .up ∨ ∃ x, IsName x ∧ c = .normal x :=
        fun d hd => hbody d (by simp [hd])
      rcases hbody c (by simp) with rfl | ⟨x, hx, rfl⟩
      · rcases List.eq_nil_or_concat ns with rfl | ⟨ns0, y, rfl⟩
        · exact ih hcs [] (by simp)
        · rw [List.concat_eq_append] at hns ⊢
          have hstep : normalStep ((List.map Component.normal (ns0 ++ [y])).reverse ++ [.root]) .up =
              (ns0.map .normal).reverse ++ [.root] := by
            simp [normalStep]
          rw [List.foldl_cons, hstep]
          exact ih hcs ns0 (fun z hz => hns z (by simp [hz]))
      · have hstep : normalStep ((ns.map .normal).reverse ++ [.root]) (.normal x) =
            ((ns ++ [x]).map .normal).reverse ++ [.root] := by
          simp [normalStep]
        rw [List.foldl_cons, hstep]
        exact ih hcs (ns ++ [x]) (fun z hz => by
          rcases List.mem_append.mp hz with hz | hz
          · exact hns z hz
          · simp at hz
            subst hz
            exact hx)

theorem normalize_of_isAbsolute {p : Path} (hp : p.isAbsolute = true) :
    exists ns, (∀ x ∈ ns, IsName x) ∧ p.normalize = ofNames ns := by
  obtain ⟨body, hcomp, hbody⟩ := components_of_isAbsolute hp
  obtain ⟨ns, hns, hfold⟩ := foldl_normalStep_names hbody [] (by simp)
  refine ⟨ns, hns, ?_⟩
  have hstart : normalStep [] .root = ([] : List String).map Component.normal ++ [.root] := rfl
  simp only [normalize, normalComponents, hcomp, List.foldl_cons, hstart, List.map_nil,
    List.nil_append] at hfold ⊢
  simp only [List.reverse_nil, List.nil_append] at hfold
  rw [hfold]
  simp [ofNames]

theorem foldl_normalStep_normal (ns : List String) (stack : List Component) :
    (ns.map Component.normal).foldl normalStep stack = (ns.map Component.normal).reverse ++ stack := by
  induction ns generalizing stack with
  | nil => rfl
  | cons x xs ih => simp [normalStep, ih]

theorem normalize_ofNames {ns : List String} (hns : ∀ x ∈ ns, IsName x) :
    (ofNames ns).normalize = ofNames ns := by
  unfold normalize normalComponents
  rw [components_ofNames hns, List.foldl_cons, foldl_normalStep_normal]
  simp [normalStep, ofNames]

theorem normalize_normalize_of_isAbsolute {p : Path} (hp : p.isAbsolute = true) :
    p.normalize.normalize = p.normalize := by
  obtain ⟨ns, hns, h⟩ := normalize_of_isAbsolute hp
  rw [h, normalize_ofNames hns]

theorem isAbsolute_normalize {p : Path} (hp : p.isAbsolute = true) : p.normalize.isAbsolute = true := by
  obtain ⟨ns, -, h⟩ := normalize_of_isAbsolute hp
  rw [h]
  exact isAbsolute_ofNames ns

theorem join_of_isAbsolute (p : Path) {q : Path} (hq : q.isAbsolute = true) : p.join q = q := by
  simp [join, hq]

theorem ite_isAbsolute_eq_join (dir p : Path) :
    (if p.isAbsolute = true then p else dir.join p) = dir.join p := by
  by_cases hp : p.isAbsolute = true
  · rw [if_pos hp, join_of_isAbsolute dir hp]
  · rw [if_neg hp]

end Path

end TypeRefs
