import TypeRefs.Proofs.Resolve.Agree

/-!
# A search for a package is a first-hit search

Without a store a search reads a fixed sequence of manifests
(`SearchPaths.bareVisits`, `SearchPaths.pathVisits`) and stops at the first
that parses, recording the first twenty (`Locator.locate_eq_firstHit`). The
loop's invariant is `Locator.Visited`; a manifest visited again changes
nothing (`Locator.tryManifests_revisit`).
-/

namespace TypeRefs

namespace Manifest

/-- The value of a manifest that parsed. -/
def value? : Manifest → Option Json
  | parsed v => some v
  | _ => none

/-- Whether a manifest was found but is not a JSON object. -/
def isInvalid : Manifest → Bool
  | invalid => true
  | _ => false

end Manifest

theorem usableName_eq_some_iff {v : Json} {n : String} :
    usableName v = some n ↔ exists s, v.field? "name" = some (.string s) ∧ n = Text.trim s ∧
      n ≠ "" ∧ '"' ∉ n.toList ∧ '\n' ∉ n.toList ∧ '\r' ∉ n.toList := by
  unfold usableName
  split
  · rename_i s hs
    simp only [List.contains_iff_mem, Bool.or_eq_true, String.isEmpty_iff]
    constructor
    · intro h
      split at h
      · cases h
      · rename_i hok
        cases h
        exact ⟨s, hs, rfl, by simpa [not_or, and_assoc] using hok⟩
    · rintro ⟨s', hs', rfl, hne, hq, hn, hr⟩
      rw [hs] at hs'
      cases hs'
      rw [if_neg (by simp [hne, hq, hn, hr])]
  · rename_i hnot
    simp only [reduceCtorEq, false_iff, not_exists, not_and]
    intro s hs
    exact absurd hs (hnot s)

namespace World

/-- The first manifest among `ms` that parses in `w`, with its place in `ms`
and its value. -/
def firstParsed? (w : World) : List Path → Option (Nat × Path × Json)
  | [] => none
  | m :: ms =>
    match w.manifest m with
    | .parsed v => some (0, m, v)
    | _ => (w.firstParsed? ms).map fun (k, p, v) => (k + 1, p, v)

theorem firstParsed?_cons_of_value?_eq_none {w : World} {m : Path} (ms : List Path)
    (h : (w.manifest m).value? = none) :
    w.firstParsed? (m :: ms) = (w.firstParsed? ms).map fun (k, p, v) => (k + 1, p, v) := by
  simp only [firstParsed?]
  split
  · rename_i v hv
    rw [hv] at h
    cases h
  · rfl

end World

/-- The outcome of a search that visits the manifests `V` in `w`, each read
with nothing remembered. The first manifest that parses decides, and the
manifests up to it are recorded, at most twenty; with none parsed, all the
manifests visited are recorded, at most twenty, and the search reports an
invalid manifest if it met one. -/
def Located.firstHit (w : World) (V : List Path) : Located :=
  match w.firstParsed? V with
  | some (k, m, v) =>
    let tried := V.take (min maxTried (k + 1))
    match usableName v with
    | some name => ⟨some ⟨name, m.parent?.getD m, m⟩, none, tried⟩
    | none => ⟨none, some .packageNameMissing, tried⟩
  | none =>
    ⟨none, some (if V.any fun m => (w.manifest m).isInvalid then .packageJsonInvalid else .notFound),
      V.take maxTried⟩

namespace SearchPaths

/-- The manifests a search for a bare identifier visits: for each candidate
name, most specific first, the name's manifest in every search directory. -/
def bareVisits (paths : SearchPaths) (names : List String) : List Path :=
  names.flatMap fun c => paths.dirs.map fun d => (d.join ⟨c⟩).join ⟨manifestName⟩

/-- The manifests of the candidate directories `cs`, taken from the root and
normalised, in order, leaving out the root's own. -/
def candidateManifests (paths : SearchPaths) (cs : List Path) : List Path :=
  cs.filterMap fun c =>
    let dir := (paths.root.join c).normalize
    if dir = paths.root then none else some (dir.join ⟨manifestName⟩)

theorem candidateManifests_cons (paths : SearchPaths) (c : Path) (cs : List Path) :
    paths.candidateManifests (c :: cs) =
      if (paths.root.join c).normalize = paths.root then paths.candidateManifests cs
      else (paths.root.join c).normalize.join ⟨manifestName⟩ :: paths.candidateManifests cs := by
  by_cases h : (paths.root.join c).normalize = paths.root <;> simp [candidateManifests, h]

/-- The manifests a search for a path identifier visits: those of its
candidate directories, nearest first, each once. -/
def pathVisits (paths : SearchPaths) (id : String) : List Path :=
  (paths.candidateManifests (pathCandidates id)).eraseDups

/-- The manifests a search for `id` visits, in order; none when the
identifier is empty or is a bare identifier with no candidate names. -/
def visits (paths : SearchPaths) (id : String) : Option (List Path) :=
  match IdentifierKind.of? id with
  | none => none
  | some .path => some (paths.pathVisits id)
  | some .bare => (packageCandidates id).map paths.bareVisits

end SearchPaths

/-! ## The search loop -/

theorem addTried_eq_take {tried : List Path} (h : tried.length ≤ maxTried) (m : Path) :
    addTried tried m = (tried ++ [m]).take maxTried := by
  unfold addTried
  split
  · rename_i hlt
    rw [List.take_of_length_le (by simp; omega)]
  · rename_i hge
    rw [List.take_append, List.take_of_length_le (by omega)]
    simp [show maxTried - tried.length = 0 by omega]

theorem addTried_of_full {tried : List Path} (h : maxTried ≤ tried.length) (m : Path) :
    addTried tried m = tried := by
  simp [addTried, show ¬tried.length < maxTried by omega]

theorem mem_of_mem_addTried {tried : List Path} {m x : Path} (h : x ∈ addTried tried m) :
    x ∈ tried ∨ x = m := by
  unfold addTried at h
  split at h
  · simpa using h
  · exact Or.inl h

theorem take_append_take_self {α : Type} (l xs : List α) (n : Nat) :
    (l.take n ++ xs).take n = (l ++ xs).take n := by
  rw [List.take_append, List.take_append, List.take_take, Nat.min_self, List.length_take]
  congr 2
  omega

theorem Path.eq_iff_text_eq {p q : Path} : p = q ↔ p.text = q.text := by
  cases p
  cases q
  simp

theorem contains_map_text (tried : List Path) (m : Path) :
    (tried.map Path.text).contains m.text = decide (m ∈ tried) := by
  simp [← Path.eq_iff_text_eq]

namespace Locator

variable {w : World} {paths : SearchPaths}

theorem tryManifests_cons_disabled (tried : List Path) (saw : Bool) (m : Path) (ms : List Path) :
    (Locator.mk w paths .disabled).tryManifests tried saw (m :: ms) =
      match w.manifest m with
      | .parsed v => (Located.ofManifest v m (addTried tried m), Locator.mk w paths .disabled)
      | .invalid => (Locator.mk w paths .disabled).tryManifests (addTried tried m) true ms
      | .missing => (Locator.mk w paths .disabled).tryManifests (addTried tried m) saw ms := by
  simp only [tryManifests, readManifest_disabled]
  cases w.manifest m <;> rfl

theorem tryManifests_cons_of_value?_eq_none {tried : List Path} {saw : Bool} {m : Path}
    (ms : List Path) (h : (w.manifest m).value? = none) :
    (Locator.mk w paths .disabled).tryManifests tried saw (m :: ms) =
      (Locator.mk w paths .disabled).tryManifests (addTried tried m) (saw || (w.manifest m).isInvalid) ms := by
  rw [tryManifests_cons_disabled]
  cases hm : w.manifest m with
  | parsed v => simp [hm, Manifest.value?] at h
  | invalid => simp [Manifest.isInvalid]
  | missing => simp [Manifest.isInvalid]

theorem tryManifests_disabled :
    ∀ (ms tried : List Path) (saw : Bool), tried.length ≤ maxTried →
      (Locator.mk w paths .disabled).tryManifests tried saw ms =
        (match w.firstParsed? ms with
          | some (k, m, v) => Located.ofManifest v m ((tried ++ ms.take (k + 1)).take maxTried)
          | none => Located.missing (saw || ms.any fun m => (w.manifest m).isInvalid)
              ((tried ++ ms).take maxTried),
          Locator.mk w paths .disabled) := by
  intro ms
  induction ms with
  | nil =>
    intro tried saw hlen
    simp [tryManifests, World.firstParsed?, List.take_of_length_le hlen]
  | cons m ms ih =>
    intro tried saw hlen
    -- the record after `m` is the first twenty of `tried`, `m` and what follows
    have hcut : ∀ xs : List Path,
        (addTried tried m ++ xs).take maxTried = (tried ++ m :: xs).take maxTried := by
      intro xs
      rw [addTried_eq_take hlen, take_append_take_self]
      simp
    cases hm : w.manifest m with
    | parsed v =>
      rw [tryManifests_cons_disabled]
      simp [World.firstParsed?, hm, addTried_eq_take hlen]
    | invalid | missing =>
      have hv : (w.manifest m).value? = none := by simp [hm, Manifest.value?]
      rw [tryManifests_cons_of_value?_eq_none ms hv, ih _ _ (length_addTried_le hlen m),
        World.firstParsed?_cons_of_value?_eq_none ms hv]
      cases w.firstParsed? ms with
      | some r => simp [hcut]
      | none => simp [hcut, hm, Manifest.isInvalid]

theorem tryManifests_nil_disabled (V : List Path) :
    (Locator.mk w paths .disabled).tryManifests [] false V = (Located.firstHit w V,
      Locator.mk w paths .disabled) := by
  rw [tryManifests_disabled V [] false (by simp)]
  unfold Located.firstHit
  cases w.firstParsed? V with
  | some r =>
    obtain ⟨k, m, v⟩ := r
    simp only [List.nil_append, List.take_take]
    unfold Located.ofManifest
    cases usableName v <;> rfl
  | none => simp [Located.missing]

theorem tryManifests_revisit {tried : List Path} {saw : Bool} {m : Path} (ms : List Path)
    (hfull : maxTried ≤ tried.length) (hparsed : (w.manifest m).value? = none)
    (hsaw : (w.manifest m).isInvalid = true → saw = true) :
    (Locator.mk w paths .disabled).tryManifests tried saw (m :: ms) =
      (Locator.mk w paths .disabled).tryManifests tried saw ms := by
  have hremembered : (saw || (w.manifest m).isInvalid) = saw := by
    cases hinv : (w.manifest m).isInvalid with
    | false => exact Bool.or_false saw
    | true => rw [hsaw hinv, Bool.or_true]
  rw [tryManifests_cons_of_value?_eq_none ms hparsed, addTried_of_full hfull, hremembered]

/-- What the loop over the directories of a path identifier knows of the
manifests `seen` it has visited, given its record `tried` and flag `saw`:
none of them parsed, a failure to parse among them is remembered, and the
record holds only them, and all of them until it is full. -/
structure Visited (w : World) (tried seen : List Path) (saw : Bool) : Prop where
  length_le : tried.length ≤ maxTried
  seen_of_tried : ∀ m ∈ tried, m ∈ seen
  tried_of_seen : tried.length < maxTried → ∀ m ∈ seen, m ∈ tried
  unparsed : ∀ m ∈ seen, (w.manifest m).value? = none
  saw_of_invalid : ∀ m ∈ seen, (w.manifest m).isInvalid = true → saw = true

theorem Visited.nil (w : World) : Visited w [] [] false where
  length_le := Nat.zero_le _
  seen_of_tried := by simp
  tried_of_seen := by simp
  unparsed := by simp
  saw_of_invalid := by simp

theorem Visited.full_of_not_mem {tried seen : List Path} {saw : Bool} {m : Path}
    (hv : Visited w tried seen saw) (hm : m ∈ seen) (ht : m ∉ tried) : maxTried ≤ tried.length :=
  Nat.le_of_not_lt fun hlt => ht (hv.tried_of_seen hlt m hm)

theorem Visited.visit {tried seen : List Path} {saw : Bool} {m : Path}
    (hv : Visited w tried seen saw) (hm : (w.manifest m).value? = none) :
    Visited w (addTried tried m) (m :: seen) (saw || (w.manifest m).isInvalid) where
  length_le := length_addTried_le hv.length_le m
  seen_of_tried x hx := by
    rcases mem_of_mem_addTried hx with hx | rfl
    · exact List.mem_cons_of_mem m (hv.seen_of_tried x hx)
    · exact List.mem_cons_self
  tried_of_seen hlt x hx := by
    by_cases hroom : tried.length < maxTried
    · rw [addTried_of_lt hroom]
      rcases List.mem_cons.mp hx with rfl | hx
      · simp
      · exact List.mem_append_left _ (hv.tried_of_seen hroom x hx)
    · rw [addTried_of_full (Nat.le_of_not_lt hroom)] at hlt
      exact absurd hlt hroom
  unparsed x hx := by
    rcases List.mem_cons.mp hx with rfl | hx
    · exact hm
    · exact hv.unparsed x hx
  saw_of_invalid x hx hinv := by
    rcases List.mem_cons.mp hx with rfl | hx
    · simp [hinv]
    · simp [hv.saw_of_invalid x hx hinv]

theorem tryManifests_pathManifests :
    ∀ (cs tried seen : List Path) (saw : Bool), Visited w tried seen saw →
      (Locator.mk w paths .disabled).tryManifests tried saw (pathManifests paths.root tried cs) =
        (Locator.mk w paths .disabled).tryManifests tried saw
          ((paths.candidateManifests cs).filter (· ∉ seen)).eraseDups := by
  intro cs
  induction cs with
  | nil => intro tried seen saw _; rfl
  | cons c cs ih =>
    intro tried seen saw hv
    simp only [pathManifests, SearchPaths.candidateManifests_cons]
    by_cases hroot : (paths.root.join c).normalize = paths.root
    · -- the root's own manifest is skipped by both
      simp only [hroot, beq_self_eq_true, Bool.true_or, if_true]
      exact ih tried seen saw hv
    · have hroot' : ((paths.root.join c).normalize.text == paths.root.text) = false := by
        simpa [← Path.eq_iff_text_eq] using hroot
      simp only [hroot', Bool.false_or, hroot, if_false, contains_map_text]
      generalize (paths.root.join c).normalize.join ⟨manifestName⟩ = m
      by_cases hm : m ∈ seen
      · rw [List.filter_cons_of_neg (by simpa using hm)]
        by_cases ht : m ∈ tried
        · rw [if_pos (by simpa using ht)]
          exact ih tried seen saw hv
        · -- a manifest seen but not recorded: the record is full, and `m` is visited again
          have hfull := hv.full_of_not_mem hm ht
          rw [if_neg (by simpa using ht), tryManifests_revisit _ hfull (hv.unparsed m hm)
            (hv.saw_of_invalid m hm), addTried_of_full hfull]
          exact ih tried seen saw hv
      · have ht : m ∉ tried := fun h => hm (hv.seen_of_tried m h)
        rw [if_neg (by simpa using ht), List.filter_cons_of_pos (by simpa using hm),
          List.eraseDups_cons, List.filter_filter]
        have hfilter : ((paths.candidateManifests cs).filter fun b => !b == m && decide (b ∉ seen)) =
            (paths.candidateManifests cs).filter (· ∉ m :: seen) := by
          apply List.filter_congr
          intro b _
          by_cases hb : b = m <;> simp [hb]
        rw [hfilter]
        cases hread : w.manifest m with
        | parsed v => rw [tryManifests_cons_disabled, tryManifests_cons_disabled, hread]
        | invalid | missing =>
          have hparsed : (w.manifest m).value? = none := by simp [hread, Manifest.value?]
          rw [tryManifests_cons_of_value?_eq_none _ hparsed, tryManifests_cons_of_value?_eq_none _ hparsed]
          exact ih _ _ _ (hv.visit hparsed)

/-- Without a store, finding the package of an identifier is the first-hit
search over the manifests the identifier names: an empty identifier, or a
bare one with no candidate names, is refused with nothing tried. The locator
is left as it was. -/
theorem locate_eq_firstHit (w : World) (paths : SearchPaths) (id : String) :
    (Locator.mk w paths .disabled).locate id =
      ((match paths.visits id with
        | none => ⟨none, some .specifierInvalid, []⟩
        | some V => Located.firstHit w V), Locator.mk w paths .disabled) := by
  unfold locate SearchPaths.visits
  cases IdentifierKind.of? id with
  | none => rfl
  | some k =>
    cases k with
    | path =>
      show tryManifests _ [] false (pathManifests paths.root [] (pathCandidates id)) = _
      have hnone : (paths.candidateManifests (pathCandidates id)).filter (· ∉ ([] : List Path)) =
          paths.candidateManifests (pathCandidates id) := by
        simp
      rw [tryManifests_pathManifests _ [] [] false (Visited.nil w), hnone]
      exact tryManifests_nil_disabled _
    | bare =>
      unfold locateBare
      cases packageCandidates id with
      | none => rfl
      | some names => exact tryManifests_nil_disabled _

end Locator

end TypeRefs
