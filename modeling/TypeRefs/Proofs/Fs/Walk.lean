import TypeRefs.Fs.Lookup
import TypeRefs.Proofs.Path.Absolute

/-!
# Resolving the directories of a path

`walkPrefix` reads the names followed by more names, each of which must lead
to a directory. A lookup is that part followed by the last name
(`walk_append`); the part reads only directories and links
(`walkPrefix_congr`), and more steps never change its end
(`walkPrefix_add`).
-/

namespace TypeRefs

/-- Reads names that are each followed by more: a link is always followed,
and a missing entry or a file is an error.  The result is the directory
reached, the links followed so far and the steps left. -/
def walkPrefix (t : Tree) : Nat → Location → List String → Nat →
    Except IoError (Location × Nat × Nat)
  | 0, _, _, _ => .error IoError.loop
  | fuel + 1, cur, [], links => .ok (cur, links, fuel + 1)
  | fuel + 1, cur, p :: rest, links =>
    if p == "." then walkPrefix t fuel cur rest links
    else if p == ".." then walkPrefix t fuel cur.dropLast rest links
    else if p.utf8ByteSize > maxNameBytes then .error IoError.nameTooLong
    else
      match t.get? (cur ++ [p]) with
      | none => .error IoError.notFound
      | some (.link target) =>
        if links ≥ maxLinks then .error IoError.loop
        else if target.isEmpty then .error IoError.notFound
        else
          walkPrefix t fuel (if target.startsWith "/" then [] else cur)
            (pathPieces target ++ rest) (links + 1)
      | some .dir => walkPrefix t fuel (cur ++ [p]) rest links
      | some _ => .error IoError.notDir

variable {t t' : Tree} {f : Bool}

/-!
## The directory part and the rest
-/

theorem walk_append {qs : List String} (hqs : qs ≠ []) :
    forall (n : Nat) (cur : Location) (ps : List String) (k : Nat),
      walk t f n cur (ps ++ qs) k =
        match walkPrefix t n cur ps k with
        | .ok (d, k', m) => walk t f m d qs k'
        | .error e => .error e := by
  intro n
  induction n with
  | zero => intro cur ps k; simp [walk, walkPrefix]
  | succ n ih =>
      intro cur ps k
      cases ps with
      | nil => simp [walkPrefix]
      | cons p rest =>
          have hne : (rest ++ qs).isEmpty = false := by simp [hqs]
          rw [List.cons_append]
          simp only [walk, walkPrefix]
          split
          · exact ih cur rest k
          split
          · exact ih cur.dropLast rest k
          split
          · rfl
          cases hget : t.get? (cur ++ [p]) with
          | none => simp [hne]
          | some node =>
              cases node with
              | file bytes mtime => simp [hne]
              | dir => exact ih (cur ++ [p]) rest k
              | link target =>
                  simp only [hne, Bool.false_and, Bool.false_eq_true, if_false]
                  split
                  · rfl
                  split
                  · rfl
                  rw [← List.append_assoc]
                  exact ih _ _ (k + 1)

theorem walk_true_eq_found_dir_iff {d : Location} :
    forall (n : Nat) (cur : Location) (ps : List String) (k : Nat),
      walk t true n cur ps k = .ok (.found d .dir) ↔
        exists k' m, walkPrefix t n cur ps k = .ok (d, k', m) := by
  intro n
  induction n with
  | zero => intro cur ps k; simp [walk, walkPrefix]
  | succ n ih =>
      intro cur ps k
      cases ps with
      | nil => simp [walk, walkPrefix, eq_comm]
      | cons p rest =>
          simp only [walk, walkPrefix]
          split
          · exact ih cur rest k
          split
          · exact ih cur.dropLast rest k
          split
          · simp
          cases hget : t.get? (cur ++ [p]) with
          | none => cases rest <;> simp
          | some node =>
              cases node with
              | file bytes mtime => cases rest <;> simp
              | dir => exact ih (cur ++ [p]) rest k
              | link target =>
                  simp only [Bool.not_true, Bool.and_false, Bool.false_eq_true, if_false]
                  split
                  · simp
                  split
                  · simp
                  exact ih _ _ (k + 1)

/-- One name read in the directory part: `.` and `..` move within the tree
of locations, a directory is entered, and a link (under the link limit, with
a non-empty target) is replaced by the names of its target, read from the
root or from the link's directory. -/
inductive DirStep (t : Tree) (cur : Location) (k : Nat) :
    String → Location → List String → Nat → Prop
  | dot : DirStep t cur k "." cur [] k
  | up : DirStep t cur k ".." cur.dropLast [] k
  | dir {p : String} : p ≠ "." → p ≠ ".." → p.utf8ByteSize ≤ maxNameBytes →
      t.get? (cur ++ [p]) = some .dir → DirStep t cur k p (cur ++ [p]) [] k
  | link {p s : String} : p ≠ "." → p ≠ ".." → p.utf8ByteSize ≤ maxNameBytes →
      t.get? (cur ++ [p]) = some (.link s) → k < maxLinks → s.isEmpty = false →
      DirStep t cur k p (if s.startsWith "/" then [] else cur) (pathPieces s) (k + 1)

theorem walkPrefix_succ_cons {n : Nat} {cur : Location} {p : String} {rest : List String}
    {k : Nat} {r : Location × Nat × Nat} :
    walkPrefix t (n + 1) cur (p :: rest) k = .ok r ↔
      exists cur' extra k', DirStep t cur k p cur' extra k' ∧
        walkPrefix t n cur' (extra ++ rest) k' = .ok r := by
  simp only [walkPrefix]
  by_cases hdot : p = "."
  · rw [if_pos (by simp [hdot])]
    constructor
    · subst hdot
      exact fun h => ⟨_, _, _, .dot, h⟩
    · rintro ⟨cur', extra, k', hstep, h⟩
      cases hstep <;> simp_all
  rw [if_neg (by simpa using hdot)]
  by_cases hup : p = ".."
  · rw [if_pos (by simp [hup])]
    constructor
    · subst hup
      exact fun h => ⟨_, _, _, .up, h⟩
    · rintro ⟨cur', extra, k', hstep, h⟩
      cases hstep <;> simp_all
  rw [if_neg (by simpa using hup)]
  by_cases hlong : p.utf8ByteSize > maxNameBytes
  · rw [if_pos hlong]
    simp only [reduceCtorEq, false_iff, not_exists, not_and]
    intro cur' extra k' hstep
    cases hstep <;> simp_all <;> omega
  rw [if_neg hlong]
  have hle : p.utf8ByteSize ≤ maxNameBytes := Nat.not_lt.mp hlong
  cases hget : t.get? (cur ++ [p]) with
  | none =>
      simp only [reduceCtorEq, false_iff, not_exists, not_and]
      intro cur' extra k' hstep
      cases hstep <;> simp_all
  | some node =>
      cases node with
      | file bytes mtime =>
          simp only [reduceCtorEq, false_iff, not_exists, not_and]
          intro cur' extra k' hstep
          cases hstep <;> simp_all
      | dir =>
          constructor
          · exact fun h => ⟨_, _, _, .dir hdot hup hle hget, h⟩
          · rintro ⟨cur', extra, k', hstep, h⟩
            cases hstep <;> simp_all
      | link target =>
          simp only
          by_cases hmax : k ≥ maxLinks
          · rw [if_pos hmax]
            simp only [reduceCtorEq, false_iff, not_exists, not_and]
            intro cur' extra k' hstep
            cases hstep <;> simp_all
            omega
          rw [if_neg hmax]
          by_cases hempty : target.isEmpty = true
          · rw [if_pos hempty]
            simp only [reduceCtorEq, false_iff, not_exists, not_and]
            intro cur' extra k' hstep
            cases hstep <;> simp_all
          rw [if_neg hempty]
          constructor
          · exact fun h => ⟨_, _, _, .link hdot hup hle hget (Nat.not_le.mp hmax)
              (by simpa using hempty), h⟩
          · rintro ⟨cur', extra, k', hstep, h⟩
            cases hstep <;> simp_all

theorem DirStep.congr
    (hagree : ∀ l, (t.get? l = some .dir ∨ exists s, t.get? l = some (.link s)) →
      t'.get? l = t.get? l)
    {cur : Location} {k : Nat} {p : String} {cur' : Location} {extra : List String} {k' : Nat}
    (hstep : DirStep t cur k p cur' extra k') : DirStep t' cur k p cur' extra k' := by
  cases hstep with
  | dot => exact .dot
  | up => exact .up
  | dir h1 h2 h3 hget => exact .dir h1 h2 h3 (by rw [hagree _ (.inl hget), hget])
  | link h1 h2 h3 hget hmax hempty =>
      exact .link h1 h2 h3 (by rw [hagree _ (.inr ⟨_, hget⟩), hget]) hmax hempty

/-!
## Steps and frames
-/

theorem walkPrefix_add {d : Location} {k' m : Nat} (e : Nat) :
    forall (n : Nat) (cur : Location) (ps : List String) (k : Nat),
      walkPrefix t n cur ps k = .ok (d, k', m) →
        walkPrefix t (n + e) cur ps k = .ok (d, k', m + e) := by
  intro n
  induction n with
  | zero => intro cur ps k h; simp [walkPrefix] at h
  | succ n ih =>
      intro cur ps k h
      rw [show n + 1 + e = (n + e) + 1 by omega]
      cases ps with
      | nil =>
          simp only [walkPrefix, Except.ok.injEq, Prod.mk.injEq] at h ⊢
          obtain ⟨rfl, rfl, rfl⟩ := h
          exact ⟨rfl, rfl, by omega⟩
      | cons p rest =>
          obtain ⟨cur', extra, k'', hstep, hrest⟩ := walkPrefix_succ_cons.mp h
          exact walkPrefix_succ_cons.mpr ⟨cur', extra, k'', hstep, ih _ _ _ hrest⟩

theorem walkPrefix_dir_unique {cur : Location} {ps : List String} {k n₁ n₂ : Nat}
    {d₁ d₂ : Location} {k₁ k₂ m₁ m₂ : Nat}
    (h₁ : walkPrefix t n₁ cur ps k = .ok (d₁, k₁, m₁))
    (h₂ : walkPrefix t n₂ cur ps k = .ok (d₂, k₂, m₂)) : d₁ = d₂ := by
  have e₁ := walkPrefix_add n₂ n₁ cur ps k h₁
  have e₂ := walkPrefix_add n₁ n₂ cur ps k h₂
  rw [Nat.add_comm n₂ n₁] at e₂
  rw [e₂] at e₁
  simp only [Except.ok.injEq, Prod.mk.injEq] at e₁
  exact e₁.1.symm

theorem walkPrefix_congr
    (hagree : ∀ l, (t.get? l = some .dir ∨ exists s, t.get? l = some (.link s)) →
      t'.get? l = t.get? l) {r : Location × Nat × Nat} :
    forall (n : Nat) (cur : Location) (ps : List String) (k : Nat),
      walkPrefix t n cur ps k = .ok r → walkPrefix t' n cur ps k = .ok r := by
  intro n
  induction n with
  | zero => intro cur ps k h; simp [walkPrefix] at h
  | succ n ih =>
      intro cur ps k h
      cases ps with
      | nil => simpa [walkPrefix] using h
      | cons p rest =>
          obtain ⟨cur', extra, k', hstep, hrest⟩ := walkPrefix_succ_cons.mp h
          exact walkPrefix_succ_cons.mpr ⟨cur', extra, k', hstep.congr hagree, ih _ _ _ hrest⟩

/-!
## Enough steps

Every step reads one name, and a link adds at most the names of the longest
target while using up one of the links left, so `walkBound` bounds the steps
a lookup can take.  A lookup given more steps than that never runs out, and
its answer does not depend on how many more it was given.
-/

theorem length_filter_slashFields_le (l : List Char) :
    ((slashFields l).filter (fun f => !f.isEmpty)).length ≤ l.length := by
  induction l with
  | nil => simp [slashFields]
  | cons c cs ih =>
      by_cases hc : c = '/'
      · simp only [slashFields, hc, if_true, List.filter_cons, List.isEmpty_nil, Bool.not_true,
          Bool.false_eq_true, if_false, List.length_cons]
        omega
      · obtain ⟨f, fs, hf⟩ := List.exists_cons_of_ne_nil (slashFields_ne_nil cs)
        simp only [slashFields, hc, if_false, hf]
        rw [hf] at ih
        cases f <;> simp_all
        omega

theorem length_pathPieces_le (s : String) : (pathPieces s).length ≤ s.length + 1 := by
  have hfields : (((slashFields s.toList).map String.ofList).filter (· != "")).length ≤ s.length := by
    have hp : ((fun x => x != "") ∘ String.ofList) = (fun f : List Char => !f.isEmpty) := by
      funext f
      cases f <;> simp [String.ofList_eq_empty_iff]
    rw [List.filter_map, List.length_map, hp]
    simpa [String.length_toList] using length_filter_slashFields_le s.toList
  simp only [pathPieces]
  split
  · simp only [List.length_append, List.length_singleton]
    omega
  · omega

theorem Tree.length_le_longestTarget {t : Tree} {l : Location} {s : String}
    (h : t.get? l = some (.link s)) : s.length ≤ t.longestTarget := by
  unfold Tree.get? at h
  split at h
  · cases h
  obtain ⟨e, hfind, he⟩ := Option.map_eq_some_iff.mp h
  -- the fold never lowers its maximum, and an entry holding the link raises it to the
  -- target's length
  have key : ∀ (f : Nat → Location × Node → Nat), (∀ m e, m ≤ f m e) →
      (∀ m e, e.2 = .link s → s.length ≤ f m e) → ∀ (es : List (Location × Node)) (m : Nat),
      m ≤ es.foldl f m ∧ ∀ e ∈ es, e.2 = .link s → s.length ≤ es.foldl f m := by
    intro f hgrow hlink es
    induction es with
    | nil => simp
    | cons e es ih =>
        intro m
        obtain ⟨ih1, ih2⟩ := ih (f m e)
        refine ⟨Nat.le_trans (hgrow m e) ih1, ?_⟩
        intro e' he' hl
        rcases List.mem_cons.mp he' with rfl | he'
        · exact Nat.le_trans (hlink m e' hl) ih1
        · exact ih2 e' he' hl
  unfold Tree.longestTarget
  refine (key _ ?_ ?_ t.entries 0).2 e (List.mem_of_find?_eq_some hfind) he
  · intro m e
    split
    · exact Nat.le_max_left _ _
    · exact Nat.le_refl m
  · intro m e hl
    simp only [hl]
    exact Nat.le_max_right _ _

/-- The steps a lookup of `ps` can take, having followed `k` links. -/
def walkBound (t : Tree) (ps : List String) (k : Nat) : Nat :=
  ps.length + (maxLinks - k) * (t.longestTarget + 2)

theorem walk_fuel_eq :
    forall (n n' : Nat) (cur : Location) (ps : List String) (k : Nat),
      walkBound t ps k < n → walkBound t ps k < n' →
        walk t f n cur ps k = walk t f n' cur ps k := by
  intro n
  induction n with
  | zero => intro n' cur ps k hn; omega
  | succ n ih =>
      intro n' cur ps k hn hn'
      obtain ⟨n', rfl⟩ : exists n0, n' = n0 + 1 := ⟨n' - 1, by omega⟩
      cases ps with
      | nil => rfl
      | cons p rest =>
          have hrest : walkBound t rest k < n ∧ walkBound t rest k < n' := by
            simp only [walkBound, List.length_cons] at hn hn' ⊢
            omega
          simp only [walk]
          split
          · exact ih _ _ _ _ hrest.1 hrest.2
          split
          · exact ih _ _ _ _ hrest.1 hrest.2
          split
          · rfl
          cases hget : t.get? (cur ++ [p]) with
          | none => rfl
          | some node =>
              cases node with
              | file bytes mtime => rfl
              | dir => exact ih _ _ _ _ hrest.1 hrest.2
              | link target =>
                  simp only
                  split
                  · rfl
                  split
                  · rfl
                  split
                  · rfl
                  rename_i hmax _
                  -- following the link uses up one of the links left, which pays
                  -- for the names of its target
                  have hlen := Tree.length_le_longestTarget hget
                  have hpieces := length_pathPieces_le target
                  have hk : maxLinks - k = (maxLinks - (k + 1)) + 1 := by
                    simp only [maxLinks, ge_iff_le, Nat.not_le] at hmax ⊢
                    omega
                  have hb : walkBound t (pathPieces target ++ rest) (k + 1) < n ∧
                      walkBound t (pathPieces target ++ rest) (k + 1) < n' := by
                    simp only [walkBound, List.length_append, List.length_cons] at hn hn' ⊢
                    rw [hk, Nat.add_mul, Nat.one_mul] at hn hn'
                    omega
                  exact ih _ _ _ _ hb.1 hb.2

theorem walkBound_lt_lookupFuel (s : String) : walkBound t (pathPieces s) 0 < lookupFuel t s := by
  have := length_pathPieces_le s
  simp only [walkBound, lookupFuel, Nat.sub_zero]
  have : (maxLinks + 1) * (t.longestTarget + 2) = maxLinks * (t.longestTarget + 2) +
      (t.longestTarget + 2) := by rw [Nat.add_mul, Nat.one_mul]
  omega

theorem lookup_eq_walk {cwd : Location} {s : String} {n : Nat} (hn : walkBound t (pathPieces s) 0 < n) :
    lookup t cwd s f = (checkPath s >>= fun _ =>
      walk t f n (if s.startsWith "/" then [] else cwd) (pathPieces s) 0) := by
  simp only [lookup]
  rw [walk_fuel_eq _ _ _ _ _ (walkBound_lt_lookupFuel s) hn]

/-!
## Directories reached from the root
-/

/-- The names `ps`, read from the root as names of directories, lead to the
directory `d`. -/
def Reaches (t : Tree) (ps : List String) (d : Location) : Prop :=
  exists n k m, walkPrefix t n [] ps 0 = .ok (d, k, m)

theorem Reaches.walkPrefix_eq {ps : List String} {d : Location} (h : Reaches t ps d) {n : Nat}
    (hn : walkBound t ps 0 < n) : exists k m, walkPrefix t n [] ps 0 = .ok (d, k, m) := by
  obtain ⟨n0, k, m, h0⟩ := h
  have hw : walk t true (n0 + n) [] ps 0 = .ok (.found d .dir) :=
    (walk_true_eq_found_dir_iff _ _ _ _).mpr ⟨_, _, walkPrefix_add n n0 [] ps 0 h0⟩
  rw [walk_fuel_eq (n0 + n) n [] ps 0 (by omega) hn] at hw
  exact (walk_true_eq_found_dir_iff _ _ _ _).mp hw

theorem Reaches.congr
    (hagree : ∀ l, (t.get? l = some .dir ∨ exists s, t.get? l = some (.link s)) →
      t'.get? l = t.get? l) {ps : List String} {d : Location} (h : Reaches t ps d) :
    Reaches t' ps d := by
  obtain ⟨n, k, m, h⟩ := h
  exact ⟨n, k, m, walkPrefix_congr hagree n [] ps 0 h⟩

theorem Reaches.unique {ps : List String} {d₁ d₂ : Location} (h₁ : Reaches t ps d₁)
    (h₂ : Reaches t ps d₂) : d₁ = d₂ := by
  obtain ⟨n₁, k₁, m₁, h₁⟩ := h₁
  obtain ⟨n₂, k₂, m₂, h₂⟩ := h₂
  exact walkPrefix_dir_unique h₁ h₂

/-!
## The last name
-/

section LastName

variable {d : Location} {x : String} {k m : Nat}

/-- A last name that is neither `.` nor `..` and fits the name limit. -/
def IsLastName (x : String) : Prop :=
  x ≠ "." ∧ x ≠ ".." ∧ x.utf8ByteSize ≤ maxNameBytes

/-- What the name `x` in the directory `d` holds, as a lookup that does not
follow a link there answers. -/
def Tree.targetAt (t : Tree) (d : Location) (x : String) : Target :=
  match t.get? (d ++ [x]) with
  | none => .absent d x
  | some node => .found (d ++ [x]) node

/-- What a lookup answers at its last name `x` in the directory `d`, a link
there not followed. -/
def Tree.lastTarget (t : Tree) (d : Location) (x : String) : Except IoError Target :=
  if x.utf8ByteSize > maxNameBytes then .error IoError.nameTooLong else .ok (t.targetAt d x)

theorem Tree.lastTarget_of_isLastName (hx : IsLastName x) :
    t.lastTarget d x = .ok (t.targetAt d x) := by
  simp [Tree.lastTarget, Nat.not_lt.mpr hx.2.2]

theorem walk_single (hx : x ≠ "." ∧ x ≠ "..")
    (hlink : f = false ∨ ∀ s, t.get? (d ++ [x]) ≠ some (.link s)) :
    walk t f (m + 2) d [x] k = t.lastTarget d x := by
  obtain ⟨h1, h2⟩ := hx
  unfold Tree.lastTarget Tree.targetAt
  by_cases hlong : x.utf8ByteSize > maxNameBytes
  · simp [walk, h1, h2, hlong]
  cases hget : t.get? (d ++ [x]) with
  | none => simp [walk, h1, h2, hlong, hget]
  | some node =>
      cases node with
      | link s =>
          rcases hlink with rfl | hlink
          · simp [walk, h1, h2, hlong, hget]
          · exact absurd hget (hlink s)
      | _ => simp [walk, h1, h2, hlong, hget]

end LastName

/-!
## Absolute paths of names

The paths a preparation writes are absolute paths of names.  Their lookup
reads the directory names from the root and then the last name.
-/

section Names

open TypeRefs.Path

variable {cwd : Location} {ns : List String} {x : String} {D : Location}

theorem lookup_ofNames (hns : ∀ y ∈ ns, IsName y) {n : Nat}
    (hn : walkBound t ns 0 < n) :
    lookup t cwd (ofNames ns).text f = (checkPath (ofNames ns).text >>= fun _ =>
      walk t f n [] ns 0) := by
  have hpieces := Path.pathPieces_ofNames hns
  have habs : (ofNames ns).text.startsWith "/" = true := isAbsolute_ofNames ns
  rw [lookup_eq_walk (by rwa [hpieces]), hpieces, habs]
  rfl

theorem lookup_ofNames_append {ns : List String} (hns : ∀ y ∈ ns ++ [x], IsName y)
    (hreach : Reaches t ns D) (hlink : f = false ∨ ∀ s, t.get? (D ++ [x]) ≠ some (.link s)) :
    lookup t cwd (ofNames (ns ++ [x])).text f =
      (checkPath (ofNames (ns ++ [x])).text >>= fun _ => t.lastTarget D x) := by
  have hxn := hns x (by simp)
  obtain ⟨k, m, hwalk⟩ := hreach.walkPrefix_eq
    (show walkBound t ns 0 < walkBound t ns 0 + walkBound t (ns ++ [x]) 0 + 1 by
      simp only [walkBound, List.length_append, List.length_singleton]
      omega)
  have hbound : walkBound t (ns ++ [x]) 0 < walkBound t ns 0 + walkBound t (ns ++ [x]) 0 + 1 + 2 := by
    omega
  rw [lookup_ofNames hns hbound]
  congr 1
  funext _
  rw [walk_append (List.cons_ne_nil x []), walkPrefix_add 2 _ _ _ _ hwalk]
  exact walk_single ⟨hxn.2.1, hxn.2.2.1⟩ hlink

theorem lookup_dot_slash {y : String} (hy : IsName y)
    (hlink : f = false ∨ ∀ s, t.get? (cwd ++ [y]) ≠ some (.link s)) :
    lookup t cwd ("./" ++ y) f = (checkPath ("./" ++ y) >>= fun _ => t.lastTarget cwd y) := by
  have hrel : ("./" ++ y).startsWith "/" = false := by
    simp
  rw [lookup_eq_walk (Nat.lt_succ_self _), pathPieces_dot_slash hy, hrel]
  congr 1
  funext _
  have hb : walkBound t [".", y] 0 + 1 = (walkBound t [".", y] 0 - 2) + 2 + 1 := by
    simp only [walkBound, List.length_cons, List.length_nil]
    omega
  show walk t f (walkBound t [".", y] 0 + 1) cwd [".", y] 0 = _
  rw [hb]
  simp only [walk, beq_self_eq_true, if_true]
  exact walk_single ⟨hy.2.1, hy.2.2.1⟩ hlink

theorem lookup_ofNames_append_eq_ok (hns : ∀ y ∈ ns ++ [x], IsName y)
    {r : Target} (h : lookup t cwd (ofNames (ns ++ [x])).text f = .ok r) :
    checkPath (ofNames (ns ++ [x])).text = .ok () ∧ x.utf8ByteSize ≤ maxNameBytes ∧
      exists D, Reaches t ns D := by
  have hbound : walkBound t (ns ++ [x]) 0 < walkBound t (ns ++ [x]) 0 + 1 := Nat.lt_succ_self _
  rw [lookup_ofNames hns hbound] at h
  cases hcheck : checkPath (ofNames (ns ++ [x])).text with
  | error e => rw [hcheck] at h; cases h
  | ok u =>
      rw [hcheck] at h
      change walk t f _ [] (ns ++ [x]) 0 = .ok r at h
      rw [walk_append (List.cons_ne_nil x [])] at h
      split at h
      · rename_i D k' m hwalk
        have hxn := hns x (by simp)
        have hlen : x.utf8ByteSize ≤ maxNameBytes := by
          apply Nat.not_lt.mp
          intro hlong
          cases m with
          | zero => simp [walk] at h
          | succ m => simp [walk, hxn.2.1, hxn.2.2.1, hlong] at h
        exact ⟨rfl, hlen, D, _, k', m, hwalk⟩
      · cases h

theorem Reaches.snoc_dir {ns : List String} (hreach : Reaches t ns D) (hx : IsLastName x)
    (hdir : t.get? (D ++ [x]) = some .dir) : Reaches t (ns ++ [x]) (D ++ [x]) := by
  obtain ⟨k, m, hwalk⟩ := hreach.walkPrefix_eq (Nat.lt_succ_self (walkBound t ns 0))
  have hfound : walk t true (walkBound t ns 0 + 1 + 2) [] (ns ++ [x]) 0 = .ok (.found (D ++ [x]) .dir) := by
    rw [walk_append (List.cons_ne_nil x []), walkPrefix_add 2 _ _ _ _ hwalk]
    change walk t true (m + 2) D [x] k = _
    rw [walk_single ⟨hx.1, hx.2.1⟩ (.inr (by simp [hdir])), Tree.lastTarget_of_isLastName hx]
    simp [Tree.targetAt, hdir]
  obtain ⟨k', m', hp⟩ := (walk_true_eq_found_dir_iff _ _ _ _).mp hfound
  exact ⟨_, k', m', hp⟩

theorem lookupParent_ofNames_append (hns : ∀ y ∈ ns ++ [x], IsName y) :
    lookupParent t cwd (ofNames (ns ++ [x])).text =
      (checkPath (ofNames (ns ++ [x])).text >>= fun _ =>
        walk t true (lookupFuel t (ofNames (ns ++ [x])).text) [] ns 0 >>= fun r =>
          match r with
          | .found loc .dir =>
            if x.utf8ByteSize > maxNameBytes then .error IoError.nameTooLong
            else .ok (loc, some x)
          | .found _ _ => .error IoError.notDir
          | .absent _ _ => .error IoError.notFound) := by
  have hpieces := Path.pathPieces_ofNames hns
  have habs : (ofNames (ns ++ [x])).text.startsWith "/" = true := isAbsolute_ofNames _
  have hxn := hns x (by simp)
  have hdot : (x == "." || x == "..") = false := by simp [hxn.2.1, hxn.2.2.1]
  simp only [lookupParent, hpieces, habs, if_true, List.getLast?_append, List.getLast?_singleton,
    Option.some_or, hdot, Bool.false_eq_true, if_false, Option.isNone_some, List.dropLast_concat]
  rfl

theorem lookupParent_ofNames_append_eq_ok_iff (hns : ∀ y ∈ ns ++ [x], IsName y)
    {loc : Location} {name : Option String} :
    lookupParent t cwd (ofNames (ns ++ [x])).text = .ok (loc, name) ↔
      checkPath (ofNames (ns ++ [x])).text = .ok () ∧ x.utf8ByteSize ≤ maxNameBytes ∧
        Reaches t ns loc ∧ name = some x := by
  rw [lookupParent_ofNames_append hns]
  have hbound : walkBound t ns 0 < lookupFuel t (ofNames (ns ++ [x])).text := by
    have h1 : walkBound t (pathPieces (ofNames (ns ++ [x])).text) 0 <
        lookupFuel t (ofNames (ns ++ [x])).text := walkBound_lt_lookupFuel _
    rw [Path.pathPieces_ofNames hns] at h1
    simp only [walkBound, List.length_append, List.length_singleton] at h1 ⊢
    omega
  constructor
  · intro h
    cases hcheck : checkPath (ofNames (ns ++ [x])).text with
    | error e => rw [hcheck] at h; cases h
    | ok u =>
        rw [hcheck] at h
        change (walk t true _ [] ns 0 >>= _) = _ at h
        cases hw : walk t true (lookupFuel t (ofNames (ns ++ [x])).text) [] ns 0 with
        | error e => rw [hw] at h; cases h
        | ok r =>
            rw [hw] at h
            change (match r with
              | .found loc .dir => _
              | .found _ _ => _
              | .absent _ _ => _) = _ at h
            split at h
            · rename_i d
              split at h
              · cases h
              · rename_i hlen
                cases h
                obtain ⟨k', m, hp⟩ := (walk_true_eq_found_dir_iff _ _ _ _).mp hw
                exact ⟨rfl, Nat.not_lt.mp hlen, ⟨_, _, _, hp⟩, rfl⟩
            · cases h
            · cases h
  · rintro ⟨hcheck, hlen, hreach, rfl⟩
    obtain ⟨k, m, hp⟩ := hreach.walkPrefix_eq hbound
    have hw := (walk_true_eq_found_dir_iff _ _ _ _).mpr ⟨k, m, hp⟩
    rw [hcheck]
    change (walk t true _ [] ns 0 >>= _) = _
    rw [hw]
    change (if x.utf8ByteSize > maxNameBytes then _ else _) = _
    rw [if_neg (Nat.not_lt.mpr hlen)]

end Names

end TypeRefs
