import TypeRefs.Proofs.Path.Absolute

/-!
# Lexical normalisation

A path reads as a leading root or `.`, then `..` steps and names
(`Path.components_eq`), and joining appends pieces (`Path.components_join`).
The stack machine leaves a normal form as it is, which gives the laws of
`Path.normalize_lexical_laws`: the result reads back as the fold, is normal,
is idempotent, and a directory may be normalised before a join.
-/

namespace TypeRefs

theorem slashFields_eq_splitOn (l : List Char) : slashFields l = l.splitOn '/' := by
  induction l with
  | nil => rfl
  | cons c cs ih =>
    rw [List.splitOn_cons_eq_if_modifyHead, ← ih]
    simp only [slashFields, beq_iff_eq]
    split
    · rfl
    · obtain ⟨f, fs, h⟩ := List.exists_cons_of_ne_nil (slashFields_ne_nil cs)
      rw [h]
      rfl

theorem slashFields_append_slash_append (x y : List Char) :
    slashFields (x ++ '/' :: y) = slashFields x ++ slashFields y := by
  simp only [slashFields_eq_splitOn]
  exact List.splitOn_append_cons_self x y

theorem intercalate_slashFields (l : List Char) : List.intercalate ['/'] (slashFields l) = l := by
  rw [slashFields_eq_splitOn]
  exact List.intercalate_splitOn '/'

namespace Path

/-!
## Reading a text
-/

/-- The `..` steps and names a text holds between its slashes. -/
def pieces (l : List Char) : List Component :=
  (slashFields l).filterMap fun f => Component.ofPiece (String.ofList f)

/-- What a text starts with: the root for a leading slash, and `.` for a `.`
that stands alone or before a slash. -/
def lead : List Char → List Component
  | '/' :: _ => [.root]
  | ['.'] => [.cur]
  | '.' :: '/' :: _ => [.cur]
  | _ => []

theorem components_eq (p : Path) : p.components = lead p.text.toList ++ pieces p.text.toList := by
  unfold components pieces
  generalize p.text.toList = l
  rcases l with _ | ⟨c, _ | ⟨d, r⟩⟩
  · rfl
  · by_cases h1 : c = '/'
    · subst h1
      rfl
    by_cases h2 : c = '.'
    · subst h2
      simp [lead, slashFields, Component.ofPiece]
    · simp [lead, h1, h2]
  · by_cases h1 : c = '/'
    · subst h1
      rfl
    by_cases h2 : c = '.'
    · subst h2
      by_cases h3 : d = '/'
      · subst h3
        rfl
      · simp [lead, h3]
    · simp [lead, h1, h2]

@[simp] theorem pieces_nil : pieces [] = [] := by
  simp [pieces, slashFields, Component.ofPiece]

theorem pieces_append_slash (x y : List Char) : pieces (x ++ '/' :: y) = pieces x ++ pieces y := by
  simp [pieces, slashFields_append_slash_append, List.filterMap_append]

theorem lead_append_slash (x y : List Char) : lead (x ++ '/' :: y) = lead (x ++ ['/']) := by
  rcases x with _ | ⟨c, _ | ⟨d, r⟩⟩
  · rfl
  · unfold lead; split <;> simp_all
  · unfold lead; split <;> simp_all

theorem lead_append_slash_nil {x : List Char} (hx : x ≠ []) : lead (x ++ ['/']) = lead x := by
  rcases x with _ | ⟨c, _ | ⟨d, r⟩⟩
  · exact absurd rfl hx
  · -- one character: a slash stays the root, and a `.` before a slash stays `.`
    by_cases h1 : c = '/'
    · subst h1
      rfl
    by_cases h2 : c = '.'
    · subst h2
      rfl
    unfold lead
    split <;> simp_all
  · unfold lead
    split <;> simp_all

theorem lead_cases (l : List Char) : lead l = [] ∨ lead l = [.root] ∨ lead l = [.cur] := by
  unfold lead
  split <;> simp

theorem lead_of_isAbsolute_eq_false {b : Path} (hb : b.isAbsolute = false) :
    lead b.text.toList = [] ∨ lead b.text.toList = [.cur] := by
  have hnot : ∀ rest, b.text.toList ≠ '/' :: rest := fun rest h => by
    have := isAbsolute_iff.mpr ⟨rest, h⟩
    rw [hb] at this
    cases this
  unfold lead
  split
  · rename_i rest h
    exact absurd h (hnot rest)
  all_goals simp

theorem exists_eq_append_slash_of_endsWith {s : String} (h : s.endsWith "/" = true) :
    ∃ x, s.toList = x ++ ['/'] := by
  rw [← String.endsWith_toSlice, String.Slice.endsWith_string_iff] at h
  obtain ⟨x, hx⟩ := h
  exact ⟨x, by simpa using hx.symm⟩

theorem components_join {a b : Path} (hb : b.isAbsolute = false) (ha : a.text ≠ "") :
    (a.join b).components = a.components ++ pieces b.text.toList := by
  have hne : a.text.isEmpty = false := by simpa using ha
  unfold join
  rw [hb, if_neg Bool.false_ne_true, hne, Bool.false_or]
  split
  · -- the directory ends with its own slash
    rename_i hend
    obtain ⟨x, hx⟩ := exists_eq_append_slash_of_endsWith hend
    have htext : (a.text ++ b.text).toList = x ++ '/' :: b.text.toList := by simp [hx]
    rw [components_eq, components_eq a, htext, hx, lead_append_slash, pieces_append_slash,
      pieces_append_slash, pieces_nil, List.append_nil, List.append_assoc]
  · have htext : (a.text ++ "/" ++ b.text).toList = a.text.toList ++ '/' :: b.text.toList := by simp
    have hlist : a.text.toList ≠ [] := by simpa using ha
    rw [components_eq, components_eq a, htext, lead_append_slash, lead_append_slash_nil hlist,
      pieces_append_slash, List.append_assoc]


/-!
## Writing components and reading them back
-/

/-- A component that stands between slashes: a `..` step or a name. -/
def IsPiece (c : Component) : Prop :=
  c = .up ∨ ∃ x, IsName x ∧ c = .normal x

theorem isPiece_of_mem_pieces {l : List Char} {c : Component} (hc : c ∈ pieces l) : IsPiece c := by
  obtain ⟨f, hf, hfc⟩ := List.mem_filterMap.mp hc
  have hslash : '/' ∉ f := slash_not_mem_of_mem_slashFields hf
  unfold Component.ofPiece at hfc
  split at hfc
  · cases hfc
  · rename_i hnot
    split at hfc
    · cases hfc
      exact .inl rfl
    · rename_i hup
      cases hfc
      simp only [not_or] at hnot
      exact .inr ⟨String.ofList f, ⟨hnot.1, hnot.2, hup, by simpa using hslash⟩, rfl⟩

theorem ofPiece_text_of_isPiece {c : Component} (hc : IsPiece c) : Component.ofPiece c.text = some c := by
  rcases hc with rfl | ⟨x, hx, rfl⟩
  · rfl
  · exact ofPiece_of_isName hx

theorem slash_not_mem_text_of_isPiece {c : Component} (hc : IsPiece c) : '/' ∉ c.text.toList := by
  rcases hc with rfl | ⟨x, hx, rfl⟩
  · decide
  · exact hx.2.2.2

theorem pieces_intercalate {cs : List Component} (h : ∀ c ∈ cs, IsPiece c) :
    pieces (List.intercalate ['/'] (cs.map fun c => c.text.toList)) = cs := by
  by_cases hne : cs = []
  · subst hne
    rfl
  rw [pieces, slashFields_intercalate (by simpa using hne) (by
    simp only [List.mem_map]
    rintro _ ⟨c, hc, rfl⟩
    exact slash_not_mem_text_of_isPiece (h c hc))]
  clear hne
  induction cs with
  | nil => rfl
  | cons c cs ih =>
    rw [List.map_cons, List.filterMap_cons, String.ofList_toList, ofPiece_text_of_isPiece (h c (by simp)),
      ih (fun d hd => h d (by simp [hd]))]

theorem lead_of_isPiece {c : Component} (hc : IsPiece c) (t : List Char) : lead (c.text.toList ++ t) = [] := by
  rcases hc with rfl | ⟨x, hx, rfl⟩
  · rfl
  · obtain ⟨h0, h1, -, hslash⟩ := hx
    obtain ⟨ch, r, hcr⟩ := List.exists_cons_of_ne_nil (show x.toList ≠ [] by simpa using h0)
    have hch : ch ≠ '/' := fun h => hslash (by simp [hcr, h])
    simp only [Component.text, hcr, List.cons_append]
    by_cases hdot : ch = '.'
    · -- a name that starts with `.` goes on with a character other than a slash
      subst hdot
      obtain ⟨d, r', hr⟩ := List.exists_cons_of_ne_nil (show r ≠ [] by
        rintro rfl
        exact h1 (String.toList_inj.mp (by simpa using hcr)))
      have hd : d ≠ '/' := fun h => hslash (by simp [hcr, hr, h])
      rw [hr]
      unfold lead
      split <;> simp_all
    · unfold lead
      split <;> simp_all

/-- The component lists that texts denote: a root or a `.` first, if any,
then `..` steps and names. -/
def Readable (cs : List Component) : Prop :=
  ∃ start body, cs = start ++ body ∧ (start = [] ∨ start = [.root] ∨ start = [.cur]) ∧
    ∀ c ∈ body, IsPiece c

theorem readable_components (p : Path) : Readable p.components :=
  ⟨_, _, components_eq p, lead_cases _, fun _ hc => isPiece_of_mem_pieces hc⟩

theorem ofComponents_of_head?_ne {cs : List Component} (h : cs.head? ≠ some .root) :
    ofComponents cs = ⟨"/".intercalate (cs.map Component.text)⟩ := by
  unfold ofComponents
  split
  · simp at h
  · rfl

theorem toList_intercalate_text (cs : List Component) :
    ("/".intercalate (cs.map Component.text)).toList =
      List.intercalate ['/'] (cs.map fun c => c.text.toList) := by
  simp [Function.comp_def]

theorem head?_ne_root_of_isPiece {cs : List Component} (h : ∀ c ∈ cs, IsPiece c) : cs.head? ≠ some .root := by
  cases cs with
  | nil => simp
  | cons c cs => rcases h c List.mem_cons_self with rfl | ⟨x, -, rfl⟩ <;> simp

theorem lead_intercalate_of_isPiece {cs : List Component} (h : ∀ c ∈ cs, IsPiece c) :
    lead (List.intercalate ['/'] (cs.map fun c => c.text.toList)) = [] := by
  cases cs with
  | nil => rfl
  | cons c cs =>
    by_cases hcs : cs = []
    · subst hcs
      simpa using lead_of_isPiece (h c List.mem_cons_self) []
    · rw [List.map_cons, List.intercalate_cons_of_ne_nil (by simpa using hcs), List.append_assoc,
        lead_of_isPiece (h c List.mem_cons_self)]

theorem components_ofComponents {cs : List Component} (h : Readable cs) : (ofComponents cs).components = cs := by
  obtain ⟨start, body, rfl, hstart, hbody⟩ := h
  rcases hstart with rfl | rfl | rfl
  · -- no leading component: the text starts with the first piece
    rw [List.nil_append, ofComponents_of_head?_ne (head?_ne_root_of_isPiece hbody), components_eq,
      toList_intercalate_text, pieces_intercalate hbody, lead_intercalate_of_isPiece hbody, List.nil_append]
  · -- the root is the slash the text starts with
    have htext : (ofComponents (.root :: body)).text.toList =
        [] ++ '/' :: List.intercalate ['/'] (body.map fun c => c.text.toList) := by
      simp [ofComponents, Function.comp_def]
    rw [List.singleton_append, components_eq, htext, pieces_append_slash, pieces_intercalate hbody]
    rfl
  · -- a `.` stands alone, or before the slash of the first piece
    rw [List.singleton_append]
    by_cases hne : body = []
    · subst hne
      have htext : (ofComponents [.cur]).text.toList = ['.'] := by simp [ofComponents, Component.text]
      rw [components_eq, htext]
      simp [lead, pieces, slashFields, Component.ofPiece]
    · have htext : (ofComponents (.cur :: body)).text.toList =
          ['.'] ++ '/' :: List.intercalate ['/'] (body.map fun c => c.text.toList) := by
        rw [ofComponents_of_head?_ne (by simp), toList_intercalate_text, List.map_cons,
          List.intercalate_cons_of_ne_nil (by simpa using hne)]
        rfl
      rw [components_eq, htext, pieces_append_slash, pieces_intercalate hbody]
      simp [lead, pieces, slashFields, Component.ofPiece]


/-!
## Normal form
-/

/-- A component list in normal form: the root followed by names, or `..`
steps followed by names. -/
def NormalForm (cs : List Component) : Prop :=
  ∃ ns : List String, (∀ x ∈ ns, IsName x) ∧
    (cs = .root :: ns.map .normal ∨ ∃ k, cs = List.replicate k .up ++ ns.map .normal)

theorem NormalForm.readable {cs : List Component} (h : NormalForm cs) : Readable cs := by
  obtain ⟨ns, hns, rfl | ⟨k, rfl⟩⟩ := h
  · refine ⟨[.root], ns.map .normal, rfl, .inr (.inl rfl), ?_⟩
    simp only [List.mem_map]
    rintro _ ⟨x, hx, rfl⟩
    exact .inr ⟨x, hns x hx, rfl⟩
  · refine ⟨[], _, rfl, .inl rfl, ?_⟩
    intro c hc
    rcases List.mem_append.mp hc with hc | hc
    · exact .inl (List.eq_of_mem_replicate hc)
    · obtain ⟨x, hx, rfl⟩ := List.mem_map.mp hc
      exact .inr ⟨x, hns x hx, rfl⟩

theorem normalStep_replicate_up (k : Nat) :
    normalStep (List.replicate k .up) .up = List.replicate (k + 1) .up := by
  cases k <;> rfl

theorem normalForm_normalStep {cs : List Component} (h : NormalForm cs) {c : Component} (hc : IsPiece c) :
    NormalForm (normalStep cs.reverse c).reverse := by
  obtain ⟨ns, hns, rfl | ⟨k, rfl⟩⟩ := h
  all_goals rcases hc with rfl | ⟨x, hx, rfl⟩
  · rcases List.eq_nil_or_concat ns with rfl | ⟨ns, y, rfl⟩
    · exact ⟨[], by simp, .inl rfl⟩
    · refine ⟨ns, fun z hz => hns z (by simp [hz]), .inl ?_⟩
      simp [normalStep]
  · refine ⟨ns ++ [x], ?_, .inl ?_⟩
    · simpa [or_imp, forall_and] using ⟨hns, hx⟩
    · simp [normalStep]
  · rcases List.eq_nil_or_concat ns with rfl | ⟨ns, y, rfl⟩
    · refine ⟨[], by simp, .inr ⟨k + 1, ?_⟩⟩
      simp [normalStep_replicate_up]
    · refine ⟨ns, fun z hz => hns z (by simp [hz]), .inr ⟨k, ?_⟩⟩
      simp [normalStep]
  · refine ⟨ns ++ [x], ?_, .inr ⟨k, ?_⟩⟩
    · simpa [or_imp, forall_and] using ⟨hns, hx⟩
    · simp [normalStep]

theorem normalForm_foldl_normalStep {body : List Component} (hbody : ∀ c ∈ body, IsPiece c) :
    ∀ {cs : List Component}, NormalForm cs → NormalForm (body.foldl normalStep cs.reverse).reverse := by
  induction body with
  | nil => intro cs h; simpa using h
  | cons c body ih =>
    intro cs h
    have hstep := normalForm_normalStep h (hbody c (by simp))
    rw [List.foldl_cons, ← List.reverse_reverse (normalStep cs.reverse c)]
    exact ih (fun d hd => hbody d (by simp [hd])) hstep

theorem normalForm_normalComponents (p : Path) : NormalForm (normalComponents p.components) := by
  have hpieces : ∀ c ∈ pieces p.text.toList, IsPiece c := fun _ hc => isPiece_of_mem_pieces hc
  have hstart : ∃ s, NormalForm s ∧ (lead p.text.toList).foldl normalStep [] = s.reverse := by
    rcases lead_cases p.text.toList with h | h | h <;> rw [h]
    · exact ⟨[], ⟨[], by simp, .inr ⟨0, rfl⟩⟩, rfl⟩
    · exact ⟨[.root], ⟨[], by simp, .inl rfl⟩, rfl⟩
    · exact ⟨[], ⟨[], by simp, .inr ⟨0, rfl⟩⟩, rfl⟩
  obtain ⟨s, hs, hfold⟩ := hstart
  rw [normalComponents, components_eq, List.foldl_append, hfold]
  exact normalForm_foldl_normalStep hpieces hs

theorem foldl_normalStep_replicate_up (m k : Nat) :
    (List.replicate k Component.up).foldl normalStep (List.replicate m .up) = List.replicate (m + k) .up := by
  induction k generalizing m with
  | zero => rfl
  | succ k ih =>
    rw [List.replicate_succ, List.foldl_cons, normalStep_replicate_up, ih]
    congr 1
    omega

theorem foldl_normalStep_of_normalForm {cs : List Component} (h : NormalForm cs) :
    cs.foldl normalStep [] = cs.reverse := by
  obtain ⟨ns, -, rfl | ⟨k, rfl⟩⟩ := h
  · rw [List.foldl_cons, show normalStep [] .root = [.root] from rfl, foldl_normalStep_normal]
    simp
  · rw [List.foldl_append, show ([] : List Component) = List.replicate 0 .up from rfl,
      foldl_normalStep_replicate_up, foldl_normalStep_normal]
    simp

/-!
## The laws of normalisation
-/

theorem components_normalize (p : Path) : p.normalize.components = normalComponents p.components :=
  components_ofComponents (normalForm_normalComponents p).readable

theorem foldl_normalStep_components_normalize (p : Path) :
    p.normalize.components.foldl normalStep [] = p.components.foldl normalStep [] := by
  rw [components_normalize, foldl_normalStep_of_normalForm (normalForm_normalComponents p), normalComponents,
    List.reverse_reverse]

theorem normalize_normalize (p : Path) : p.normalize.normalize = p.normalize := by
  show ofComponents (normalComponents p.normalize.components) = ofComponents (normalComponents p.components)
  rw [normalComponents, normalComponents, foldl_normalStep_components_normalize]

theorem join_of_text_eq_empty {a : Path} (b : Path) (hb : b.isAbsolute = false) (ha : a.text = "") :
    a.join b = b := by
  simp [join, hb, ha]

theorem foldl_normalStep_components_of_isAbsolute_eq_false {b : Path} (hb : b.isAbsolute = false)
    (stack : List Component) :
    b.components.foldl normalStep stack = (pieces b.text.toList).foldl normalStep stack := by
  rw [components_eq]
  rcases lead_of_isAbsolute_eq_false hb with h | h <;> rw [h] <;> rfl

theorem foldl_normalStep_components_join (a : Path) {b : Path} (hb : b.isAbsolute = false) :
    (a.join b).components.foldl normalStep [] = b.components.foldl normalStep (a.components.foldl normalStep []) := by
  by_cases ha : a.text = ""
  · have hnil : a.components = [] := by
      rw [components_eq, ha]
      rfl
    rw [join_of_text_eq_empty b hb ha, hnil]
    rfl
  · rw [components_join hb ha, List.foldl_append, foldl_normalStep_components_of_isAbsolute_eq_false hb]

theorem normalize_join_normalize (a : Path) {b : Path} (hb : b.isAbsolute = false) :
    (a.join b).normalize = (a.normalize.join b).normalize := by
  show ofComponents (normalComponents _) = ofComponents (normalComponents _)
  rw [normalComponents, normalComponents, foldl_normalStep_components_join a hb,
    foldl_normalStep_components_join a.normalize hb, foldl_normalStep_components_normalize]

/-- Lexical normalisation is the left fold of the stack step over the
components, read back in order; its result is in normal form; normalising
twice changes nothing; and a directory may be normalised before a relative
path is appended to it. -/
theorem normalize_lexical_laws :
    (∀ p : Path, p.normalize.components = (p.components.foldl normalStep []).reverse) ∧
    (∀ p : Path, NormalForm p.normalize.components) ∧
    (∀ p : Path, p.normalize.normalize = p.normalize) ∧
    (∀ a b : Path, b.isAbsolute = false → (a.join b).normalize = (a.normalize.join b).normalize) := by
  refine ⟨components_normalize, fun p => ?_, normalize_normalize, fun a _ hb => normalize_join_normalize a hb⟩
  rw [components_normalize]
  exact normalForm_normalComponents p

theorem normalize_join_above_root : (Path.mk "../../c").isAbsolute = false ∧
    ((Path.mk "/a/./b").join ⟨"../../c"⟩).normalize = ((Path.mk "/a/./b").normalize.join ⟨"../../c"⟩).normalize :=
  ⟨by decide +kernel, normalize_lexical_laws.2.2.2 _ _ (by decide +kernel)⟩

end Path
end TypeRefs
