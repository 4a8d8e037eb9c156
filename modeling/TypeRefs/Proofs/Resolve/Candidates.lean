import TypeRefs.Proofs.Path.Normal
import TypeRefs.Resolve.Locate

/-!
# The package names tried for a bare identifier

The identifier itself, then each shorter name ending before one of its
slashes, longest first (`mem_shorterNames_iff`, `pairwise_shorterNames`);
splitting at slashes loses nothing (`slashFields_injective`), which lets the
shorter names be said without segments (`isShorterName_iff`). The main
result is `packageCandidates_laws`.
-/

namespace TypeRefs

/-- A segment that names no directory of its own: empty, `.` or `..`. -/
def IsDotSegment (s : List Char) : Prop :=
  s = [] ∨ s = ['.'] ∨ s = ['.', '.']

instance : DecidablePred IsDotSegment := fun s =>
  inferInstanceAs (Decidable (s = [] ∨ s = ['.'] ∨ s = ['.', '.']))

/-- A scope on its own: one segment that starts with `@`. -/
def IsLoneScope (name : List Char) : Prop :=
  '/' ∉ name ∧ name.head? = some '@'

instance : DecidablePred IsLoneScope := fun name =>
  inferInstanceAs (Decidable ('/' ∉ name ∧ name.head? = some '@'))

/-- The fewest segments a shorter name keeps: the scope and the package of a
scoped name, one segment otherwise. -/
def minSegments (t : List Char) : Nat :=
  if t.head? = some '@' then 2 else 1

/-- A shorter name for the package path `t`: the text before one of its
slashes, of at least `minSegments t` segments. -/
def IsShorterName (t p : List Char) : Prop :=
  (∃ r, t = p ++ '/' :: r) ∧ minSegments t ≤ (p.splitOn '/').length

/-- The text before the `(i+1)`-th slash of `t`: its first `i + 1` segments. -/
def beforeSlash (t : List Char) (i : Nat) : List Char :=
  ['/'].intercalate ((slashFields t).take (i + 1))

/-- The shorter names of `t`, longest first. -/
def shorterNames (t : List Char) : List (List Char) :=
  ((List.range ((slashFields t).length - 1)).reverse.filter (fun i => minSegments t ≤ i + 1)).map
    (beforeSlash t)

/-!
## Leading runs of segments
-/

theorem slashFields_injective {a b : List Char} (h : slashFields a = slashFields b) : a = b := by
  rw [← intercalate_slashFields a, h, intercalate_slashFields]

theorem slashFields_beforeSlash (t : List Char) (i : Nat) :
    slashFields (beforeSlash t i) = (slashFields t).take (i + 1) := by
  apply slashFields_intercalate
  · simpa using slashFields_ne_nil t
  · intro x hx
    exact slash_not_mem_of_mem_slashFields (List.mem_of_mem_take hx)

theorem eq_beforeSlash_append {t : List Char} {i : Nat} (hi : i + 1 < (slashFields t).length) :
    t = beforeSlash t i ++ '/' :: ['/'].intercalate ((slashFields t).drop (i + 1)) := by
  have hrest : slashFields (['/'].intercalate ((slashFields t).drop (i + 1))) =
      (slashFields t).drop (i + 1) := by
    apply slashFields_intercalate
    · simp only [ne_eq, List.drop_eq_nil_iff]
      omega
    · intro x hx
      exact slash_not_mem_of_mem_slashFields (List.mem_of_mem_drop hx)
  apply slashFields_injective
  rw [slashFields_append_slash_append, slashFields_beforeSlash, hrest, List.take_append_drop]

theorem exists_beforeSlash {t p r : List Char} (h : t = p ++ '/' :: r) :
    ∃ i, i + 1 < (slashFields t).length ∧ (slashFields p).length = i + 1 ∧ beforeSlash t i = p := by
  have hfields : slashFields t = slashFields p ++ slashFields r := by
    rw [h, slashFields_append_slash_append]
  obtain ⟨i, hi⟩ : ∃ i, (slashFields p).length = i + 1 :=
    Nat.exists_eq_add_one_of_ne_zero (by simpa using slashFields_ne_nil p)
  have hr : 0 < (slashFields r).length := List.length_pos_iff.mpr (slashFields_ne_nil r)
  refine ⟨i, ?_, hi, ?_⟩
  · rw [hfields, List.length_append]
    omega
  · rw [beforeSlash, hfields, ← hi, List.take_left, intercalate_slashFields]

theorem isShorterName_iff {t p : List Char} :
    IsShorterName t p ↔
      ∃ i, i + 1 < (slashFields t).length ∧ minSegments t ≤ i + 1 ∧ beforeSlash t i = p := by
  constructor
  · rintro ⟨⟨r, hr⟩, hmin⟩
    obtain ⟨i, hi, hlen, rfl⟩ := exists_beforeSlash hr
    rw [← slashFields_eq_splitOn, hlen] at hmin
    exact ⟨i, hi, hmin, rfl⟩
  · rintro ⟨i, hi, hmin, rfl⟩
    refine ⟨⟨_, eq_beforeSlash_append hi⟩, ?_⟩
    rw [← slashFields_eq_splitOn, slashFields_beforeSlash, List.length_take]
    omega

theorem length_beforeSlash_lt {t : List Char} {i j : Nat} (hij : i < j)
    (hj : j + 1 < (slashFields t).length) : (beforeSlash t i).length < (beforeSlash t j).length := by
  have hu : i + 1 < (slashFields (beforeSlash t j)).length := by
    rw [slashFields_beforeSlash, List.length_take]
    omega
  have hpre : beforeSlash (beforeSlash t j) i = beforeSlash t i := by
    rw [beforeSlash, slashFields_beforeSlash, List.take_take, Nat.min_eq_left (by omega)]
    rfl
  have hsplit := eq_beforeSlash_append hu
  rw [hpre] at hsplit
  have hlen := congrArg List.length hsplit
  simp only [List.length_append, List.length_cons] at hlen
  omega

theorem IsShorterName.length_lt {t p : List Char} (h : IsShorterName t p) : p.length < t.length := by
  obtain ⟨⟨r, rfl⟩, -⟩ := h
  simp

theorem IsShorterName.not_isLoneScope {t p : List Char} (h : IsShorterName t p) : ¬ IsLoneScope p := by
  rintro ⟨hslash, hhead⟩
  obtain ⟨⟨r, rfl⟩, hmin⟩ := h
  have hone : (p.splitOn '/').length = 1 := by
    rw [← slashFields_eq_splitOn, slashFields_of_slash_not_mem hslash, List.length_singleton]
  have hscoped : (p ++ '/' :: r).head? = some '@' := by
    cases p with
    | nil => simp at hhead
    | cons c cs => simpa using hhead
  simp [minSegments, hscoped, hone] at hmin

/-!
## The shorter names
-/

theorem mem_shorterNames_iff {t p : List Char} : p ∈ shorterNames t ↔ IsShorterName t p := by
  rw [isShorterName_iff, shorterNames]
  simp only [List.mem_map, List.mem_filter, List.mem_reverse, List.mem_range, decide_eq_true_eq]
  constructor
  · rintro ⟨i, ⟨hi, hmin⟩, rfl⟩
    exact ⟨i, by omega, hmin, rfl⟩
  · rintro ⟨i, hi, hmin, rfl⟩
    exact ⟨i, ⟨by omega, hmin⟩, rfl⟩

theorem pairwise_shorterNames (t : List Char) :
    (shorterNames t).Pairwise (fun a b => b.length < a.length) := by
  unfold shorterNames
  rw [List.pairwise_map]
  apply List.Pairwise.filter
  rw [List.pairwise_reverse]
  refine List.pairwise_lt_range.imp_of_mem ?_
  intro i j _ hj hij
  exact length_beforeSlash_lt hij (by simp at hj; omega)

theorem pairwise_cons_shorterNames (t : List Char) :
    (t :: shorterNames t).Pairwise (fun a b => b.length < a.length) := by
  refine List.pairwise_cons.mpr ⟨fun p hp => ?_, pairwise_shorterNames t⟩
  exact (mem_shorterNames_iff.mp hp).length_lt

/-!
## The candidates
-/

theorem dropWhile_slash_replicate_append (k : Nat) (l : List Char) :
    (List.replicate k '/' ++ l).dropWhile (· == '/') = l.dropWhile (· == '/') := by
  induction k with
  | zero => rfl
  | succ k ih => simp [List.replicate_succ, ih]

theorem trailing_slashes_dropped {id : String} {t : List Char} {k : Nat}
    (hid : id.toList = t ++ List.replicate k '/') (ht : t.getLast? ≠ some '/') :
    (id.toList.reverse.dropWhile (· == '/')).reverse = t := by
  rw [hid, List.reverse_append, List.reverse_replicate, dropWhile_slash_replicate_append]
  rw [List.getLast?_eq_head?_reverse] at ht
  cases h : t.reverse with
  | nil => simp_all
  | cons c cs =>
    rw [h] at ht
    have hc : (c == '/') = false := by simpa using ht
    rw [List.dropWhile_cons_of_neg (by simp [hc]), ← h, List.reverse_reverse]

theorem isDotSegment_ofList (f : List Char) :
    ((String.ofList f).isEmpty || String.ofList f == "." || String.ofList f == "..") =
      decide (IsDotSegment f) := by
  rw [Bool.eq_iff_iff, decide_eq_true_iff]
  simp [IsDotSegment, String.isEmpty_iff, ← String.toList_inj, or_assoc]

theorem startsWith_at_ofList (t : List Char) :
    (String.ofList t).startsWith "@" = decide (t.head? = some '@') := by
  rw [Bool.eq_iff_iff]
  simp [List.singleton_prefix_iff_head?_eq_some]

theorem intercalate_take_slashFields (t : List Char) (i : Nat) :
    "/".intercalate (((slashFields t).map String.ofList).take (i + 1)) =
      String.ofList (beforeSlash t i) := by
  apply String.toList_inj.mp
  simp [beforeSlash, List.map_take, Function.comp_def]

theorem packageCandidates_eq {id : String} {t : List Char} {k : Nat}
    (hid : id.toList = t ++ List.replicate k '/') (ht : t.getLast? ≠ some '/') :
    packageCandidates id =
      if ∃ f ∈ slashFields t, IsDotSegment f then none
      else some ((t :: shorterNames t).map String.ofList) := by
  unfold packageCandidates
  dsimp only
  rw [trailing_slashes_dropped hid ht, String.toList_ofList, List.any_map, startsWith_at_ofList]
  have hany : (slashFields t).any ((fun s => s.isEmpty || s == "." || s == "..") ∘ String.ofList) =
      decide (∃ f ∈ slashFields t, IsDotSegment f) := by
    rw [Bool.eq_iff_iff, List.any_eq_true, decide_eq_true_iff]
    simp [isDotSegment_ofList]
  rw [hany]
  by_cases hdot : ∃ f ∈ slashFields t, IsDotSegment f
  · simp only [hdot, decide_true, if_true]
  · simp only [hdot, decide_false, if_false, Bool.false_eq_true, List.map_cons, List.length_map,
      intercalate_take_slashFields, shorterNames, List.map_map, decide_eq_true_eq, minSegments,
      ge_iff_le, Function.comp_def]
    -- the two sides differ only in how the test for a scope is decided
    rfl

example : packageCandidates "a/b/c" = some ["a/b/c", "a/b", "a"] := by decide +kernel
example : packageCandidates "@s/p/x/" = some ["@s/p/x", "@s/p"] := by decide +kernel

/-- For an identifier whose package path is `t`: there are no candidates
exactly when a segment of `t` is empty, `.` or `..`; otherwise `t` is tried
first and then every shorter name of `t`, longest first, so no name twice;
each is `t` or the text before one of its slashes, and none but `t` itself
is a scope alone. -/
theorem packageCandidates_laws (id : String) (t : List Char) (k : Nat)
    (hid : id.toList = t ++ List.replicate k '/') (ht : t.getLast? ≠ some '/') :
    (packageCandidates id = none ↔ ∃ s ∈ t.splitOn '/', IsDotSegment s) ∧
    ((∀ s ∈ t.splitOn '/', ¬ IsDotSegment s) →
      ∃ shorter : List String,
        packageCandidates id = some (String.ofList t :: shorter) ∧
        (∀ c : String, c ∈ shorter ↔ IsShorterName t c.toList) ∧
        ((String.ofList t :: shorter).map String.length).Pairwise (· > ·) ∧
        (String.ofList t :: shorter).Nodup ∧
        (∀ c ∈ String.ofList t :: shorter, c.toList = t ∨ ∃ r, t = c.toList ++ '/' :: r) ∧
        ∀ c ∈ shorter, ¬ IsLoneScope c.toList) := by
  rw [packageCandidates_eq hid ht, ← slashFields_eq_splitOn]
  refine ⟨?_, fun hgood => ?_⟩
  · by_cases hdot : ∃ f ∈ slashFields t, IsDotSegment f
    · rw [if_pos hdot]
      exact iff_of_true rfl hdot
    · rw [if_neg hdot]
      exact iff_of_false (Option.some_ne_none _) hdot
  have hnot : ¬ ∃ f ∈ slashFields t, IsDotSegment f := fun ⟨f, hf, hdot⟩ => hgood f hf hdot
  have hmem : ∀ c : String, c ∈ (shorterNames t).map String.ofList ↔ IsShorterName t c.toList := by
    intro c
    rw [← mem_shorterNames_iff, List.mem_map]
    constructor
    · rintro ⟨p, hp, rfl⟩
      simpa using hp
    · intro hc
      exact ⟨c.toList, hc, String.ofList_toList⟩
  have hdesc : ((String.ofList t :: (shorterNames t).map String.ofList).map String.length).Pairwise
      (· > ·) := by
    simpa [List.pairwise_map, String.length_ofList] using pairwise_cons_shorterNames t
  have hnodup : (String.ofList t :: (shorterNames t).map String.ofList).Nodup := by
    refine (List.pairwise_map.mp hdesc).imp ?_
    intro a b hab heq
    subst heq
    exact Nat.lt_irrefl _ hab
  refine ⟨(shorterNames t).map String.ofList, by rw [if_neg hnot, List.map_cons], hmem, hdesc,
    hnodup, ?_, ?_⟩
  · intro c hc
    rcases List.mem_cons.mp hc with rfl | hc
    · exact .inl String.toList_ofList
    · exact .inr ((hmem c).mp hc).1
  · intro c hc
    exact ((hmem c).mp hc).not_isLoneScope

/-- The identifier `@s/p/x/` is tried as `@s/p/x` and then `@s/p`, never as the scope `@s`. -/
theorem packageCandidates_laws_scoped :
    "@s/p/x/".toList = "@s/p/x".toList ++ List.replicate 1 '/' ∧
    "@s/p/x".toList.getLast? ≠ some '/' ∧
    (packageCandidates "@s/p/x/" = none ↔ ∃ s ∈ "@s/p/x".toList.splitOn '/', IsDotSegment s) ∧
    ((∀ s ∈ "@s/p/x".toList.splitOn '/', ¬ IsDotSegment s) →
      ∃ shorter : List String,
        packageCandidates "@s/p/x/" = some (String.ofList "@s/p/x".toList :: shorter) ∧
        (∀ c : String, c ∈ shorter ↔ IsShorterName "@s/p/x".toList c.toList) ∧
        ((String.ofList "@s/p/x".toList :: shorter).map String.length).Pairwise (· > ·) ∧
        (String.ofList "@s/p/x".toList :: shorter).Nodup ∧
        (∀ c ∈ String.ofList "@s/p/x".toList :: shorter,
          c.toList = "@s/p/x".toList ∨ ∃ r, "@s/p/x".toList = c.toList ++ '/' :: r) ∧
        ∀ c ∈ shorter, ¬ IsLoneScope c.toList) := by
  have hid : "@s/p/x/".toList = "@s/p/x".toList ++ List.replicate 1 '/' := by decide
  have ht : "@s/p/x".toList.getLast? ≠ some '/' := by decide
  exact ⟨hid, ht, packageCandidates_laws "@s/p/x/" "@s/p/x".toList 1 hid ht⟩

/-- A scope alone is tried as a package name: `@s` is its own only candidate. -/
theorem lone_scope_is_own_candidate :
    packageCandidates "@s" = some ["@s"] ∧ IsLoneScope "@s".toList := by
  constructor
  · decide +kernel
  · decide

end TypeRefs
