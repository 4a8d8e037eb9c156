import TypeRefs.Fs.World
import TypeRefs.Proofs.Fs.Walk

/-!
# Making directories

Making the directories of a path of names only adds directories where
nothing stood, each reached by leading names of the path
(`createDirAll_makesDirs`, by induction on the `mkdir` steps).
-/

namespace TypeRefs

open TypeRefs.Path

namespace Tree

/-- `t'` is `t` with directories made at empty locations. -/
def GrowsByDirs (t t' : Tree) : Prop :=
  ∀ l, t'.get? l ≠ t.get? l → t.get? l = none ∧ t'.get? l = some .dir

variable {t t₁ t₂ t₃ : Tree} {ns : List String}

theorem GrowsByDirs.refl (t : Tree) : t.GrowsByDirs t :=
  fun _ h => absurd rfl h

theorem GrowsByDirs.trans (h₁ : t₁.GrowsByDirs t₂) (h₂ : t₂.GrowsByDirs t₃) :
    t₁.GrowsByDirs t₃ := by
  intro l hne
  by_cases h12 : t₂.get? l = t₁.get? l
  · have h23 : t₃.get? l ≠ t₂.get? l := by rwa [h12]
    obtain ⟨hnone, hdir⟩ := h₂ l h23
    rw [← h12]
    exact ⟨hnone, hdir⟩
  · obtain ⟨hnone, hdir⟩ := h₁ l h12
    refine ⟨hnone, ?_⟩
    by_cases h23 : t₃.get? l = t₂.get? l
    · rw [h23, hdir]
    · obtain ⟨hnone', _⟩ := h₂ l h23
      rw [hdir] at hnone'
      cases hnone'

theorem GrowsByDirs.get?_eq_of_some (h : t.GrowsByDirs t') {l : Location} {n : Node}
    (hl : t.get? l = some n) : t'.get? l = some n := by
  by_cases hne : t'.get? l = t.get? l
  · rw [hne, hl]
  · obtain ⟨hnone, _⟩ := h l hne
    rw [hl] at hnone
    cases hnone

theorem GrowsByDirs.reaches (h : t.GrowsByDirs t') {d : Location} (hr : Reaches t ns d) :
    Reaches t' ns d := by
  apply hr.congr
  intro l hl
  rcases hl with hl | ⟨s, hl⟩
  · rw [h.get?_eq_of_some hl, hl]
  · rw [h.get?_eq_of_some hl, hl]

theorem growsByDirs_set_dir {l : Location} (h : t.get? l = none) : t.GrowsByDirs (t.set l .dir) := by
  have hl : l ≠ [] := by
    rintro rfl
    simp at h
  intro l' hne
  by_cases hl' : l' = l
  · subst hl'
    exact ⟨h, get?_set_self t .dir hl⟩
  · rw [get?_set_of_ne t .dir hl'] at hne
    exact absurd rfl hne

/-- The directories `t'` has and `t` lacks, each reached by some leading
names of `ns`, are all that tells the two apart. -/
structure MadeDirsFor (t t' : Tree) (ns : List String) : Prop where
  grows : t.GrowsByDirs t'
  reached : ∀ N, t.get? N = none → t'.get? N = some .dir →
    exists pre, pre <+: ns ∧ Reaches t' pre N

theorem MadeDirsFor.refl (t : Tree) (ns : List String) : t.MadeDirsFor t ns := by
  constructor
  · exact GrowsByDirs.refl t
  · intro N hnone hdir
    rw [hnone] at hdir
    cases hdir

theorem MadeDirsFor.of_prefix {ns' : List String} (h : t.MadeDirsFor t' ns) (hp : ns <+: ns') :
    t.MadeDirsFor t' ns' := by
  constructor
  · exact h.grows
  · intro N hnone hdir
    obtain ⟨pre, hpre, hreach⟩ := h.reached N hnone hdir
    exact ⟨pre, hpre.trans hp, hreach⟩

theorem MadeDirsFor.trans (h₁ : t₁.MadeDirsFor t₂ ns) (h₂ : t₂.MadeDirsFor t₃ ns) :
    t₁.MadeDirsFor t₃ ns := by
  constructor
  · exact h₁.grows.trans h₂.grows
  · intro N hnone hdir
    cases h2 : t₂.get? N with
    | none => exact h₂.reached N h2 hdir
    | some n =>
        -- made by the first step: its reaching names still reach it
        have hdir2 : t₂.get? N = some .dir := by
          by_cases hne : t₂.get? N = t₁.get? N
          · rw [hne, hnone] at h2
            cases h2
          · exact (h₁.grows N hne).2
        obtain ⟨pre, hpre, hreach⟩ := h₁.reached N hnone hdir2
        exact ⟨pre, hpre, h₂.grows.reaches hreach⟩

theorem MadeDirsFor.congr_right {t'' : Tree} (h : t.MadeDirsFor t' ns)
    (heq : ∀ l, t''.get? l = t'.get? l) : t.MadeDirsFor t'' ns := by
  constructor
  · intro l hne
    rw [heq l] at hne ⊢
    exact h.grows l hne
  · intro N hnone hdir
    rw [heq N] at hdir
    obtain ⟨pre, hpre, hreach⟩ := h.reached N hnone hdir
    exact ⟨pre, hpre, hreach.congr fun l _ => heq l⟩

theorem madeDirsFor_set_dir {D : Location} {x : String} (hreach : Reaches t ns D)
    (hx : IsLastName x) (hnone : t.get? (D ++ [x]) = none) :
    t.MadeDirsFor (t.set (D ++ [x]) .dir) (ns ++ [x]) ∧
      Reaches (t.set (D ++ [x]) .dir) (ns ++ [x]) (D ++ [x]) := by
  have hgrows := growsByDirs_set_dir hnone
  have hne : D ++ [x] ≠ [] := by simp
  have hnew : Reaches (t.set (D ++ [x]) .dir) (ns ++ [x]) (D ++ [x]) :=
    (hgrows.reaches hreach).snoc_dir hx (get?_set_self t .dir hne)
  refine ⟨⟨hgrows, ?_⟩, hnew⟩
  intro N hN hdir
  by_cases hND : N = D ++ [x]
  · subst hND
    exact ⟨ns ++ [x], List.prefix_refl _, hnew⟩
  · rw [get?_set_of_ne t .dir hND, hN] at hdir
    cases hdir

end Tree

namespace World

variable {w w' : World} {ns : List String}

theorem find_ofNames_nil (w : World) (f : Bool) : w.find (ofNames []) f = .ok (.found [] .dir) := by
  have hcheck : checkPath (ofNames []).text = .ok () := by rfl
  unfold find
  rw [lookup_ofNames (by simp) (Nat.lt_succ_self (walkBound w.tree [] 0)), hcheck]
  rfl

theorem mkdir_ofNames_eq_ok (hns : ∀ y ∈ ns, IsName y) (h : w.mkdir (ofNames ns) = .ok w') :
    exists ns0 x D, ns = ns0 ++ [x] ∧ Reaches w.tree ns0 D ∧ IsLastName x ∧
      w.tree.get? (D ++ [x]) = none ∧ w' = { w with tree := w.tree.set (D ++ [x]) .dir } := by
  unfold mkdir at h
  rcases List.eq_nil_or_concat ns with rfl | ⟨ns0, x, rfl⟩
  · rw [find_ofNames_nil] at h
    cases h
  rw [List.concat_eq_append] at hns h ⊢
  cases hfind : w.find (ofNames (ns0 ++ [x])) false with
  | error e =>
      rw [hfind] at h
      cases h
  | ok r =>
      obtain ⟨hcheck, hlen, D, hreach⟩ := lookup_ofNames_append_eq_ok hns hfind
      have hxn := hns x (by simp)
      have hx : IsLastName x := ⟨hxn.2.1, hxn.2.2.1, hlen⟩
      have hr : r = w.tree.targetAt D x := by
        have hl : lookup w.tree w.cwd (ofNames (ns0 ++ [x])).text false = _ :=
          lookup_ofNames_append hns hreach (.inl rfl)
        rw [hcheck] at hl
        change _ = w.tree.lastTarget D x at hl
        rw [Tree.lastTarget_of_isLastName hx] at hl
        unfold find at hfind
        rw [hfind] at hl
        exact Except.ok.inj hl
      subst hr
      rw [hfind] at h
      unfold Tree.targetAt at h
      cases hget : w.tree.get? (D ++ [x]) with
      | none =>
          rw [hget] at h
          exact ⟨ns0, x, D, rfl, hreach, hx, hget, (Except.ok.inj h).symm⟩
      | some n =>
          rw [hget] at h
          cases h

theorem reaches_of_isDir (hns : ∀ y ∈ ns, IsName y) (h : w.isDir (ofNames ns) = true) :
    exists D, Reaches w.tree ns D := by
  unfold isDir stat find at h
  cases hfind : lookup w.tree w.cwd (ofNames ns).text true with
  | error e =>
      rw [hfind] at h
      cases h
  | ok r =>
      rw [hfind] at h
      cases r with
      | absent d y => cases h
      | found loc node =>
          cases node with
          | file bytes mtime => cases h
          | link s => cases h
          | dir =>
              rw [lookup_ofNames hns (Nat.lt_succ_self (walkBound w.tree ns 0))] at hfind
              cases hcheck : checkPath (ofNames ns).text with
              | error e =>
                  rw [hcheck] at hfind
                  cases hfind
              | ok u =>
                  rw [hcheck] at hfind
                  obtain ⟨k, m, hp⟩ := (walk_true_eq_found_dir_iff _ _ _ _).mp hfind
                  exact ⟨loc, _, k, m, hp⟩

theorem reaches_nil (t : Tree) : Reaches t [] [] :=
  ⟨1, 0, 1, rfl⟩

/-- What making the directories of the names `ns` from `w` may end in: only
the tree changed, by directories made for `ns`, and on success `ns` reach a
directory. -/
structure MakesDirs (w : World) (ns : List String) (r : World × Except IoError Unit) : Prop where
  same : r.1 = { w with tree := r.1.tree }
  made : w.tree.MadeDirsFor r.1.tree ns
  reaches : r.2 = .ok () → exists D, Reaches r.1.tree ns D

theorem makesDirs_self (hns : ∀ y ∈ ns, IsName y) (r : Except IoError Unit)
    (hr : r = .ok () → w.isDir (ofNames ns) = true) : MakesDirs w ns (w, r) := by
  constructor
  · rfl
  · exact Tree.MadeDirsFor.refl w.tree ns
  · intro hok
    exact reaches_of_isDir hns (hr hok)

theorem text_ofNames_isEmpty (ns : List String) : (ofNames ns).text.isEmpty = false := by
  rw [text_ofNames]
  simp [← String.toList_inj]

theorem createDirAll_makesDirs (fuel : Nat) :
    ∀ (w : World) (ns : List String), (∀ y ∈ ns, IsName y) →
      MakesDirs w ns (w.createDirAll (ofNames ns) fuel) := by
  induction fuel with
  | zero =>
      intro w ns hns
      exact makesDirs_self hns _ (fun h => by cases h)
  | succ fuel ih =>
      intro w ns hns
      simp only [createDirAll, text_ofNames_isEmpty, Bool.false_eq_true, if_false]
      cases hmk : w.mkdir (ofNames ns) with
      | ok w' =>
          obtain ⟨ns0, x, D, rfl, hreach, hx, hnone, rfl⟩ := mkdir_ofNames_eq_ok hns hmk
          obtain ⟨hmade, hnew⟩ := Tree.madeDirsFor_set_dir hreach hx hnone
          exact ⟨rfl, hmade, fun _ => ⟨_, hnew⟩⟩
      | error e =>
          simp only
          split
          · exact makesDirs_self hns _ (fun h => by split at h <;> simp_all)
          rcases List.eq_nil_or_concat ns with rfl | ⟨ns0, x, rfl⟩
          · rw [parent?_ofNames_nil]
            exact makesDirs_self hns _ (fun h => by cases h)
          rw [List.concat_eq_append] at hns ⊢
          have hns0 : ∀ y ∈ ns0, IsName y := fun y hy => hns y (by simp [hy])
          have hpre : ns0 <+: ns0 ++ [x] := List.prefix_append ns0 [x]
          rw [parent?_ofNames_append hns]
          simp only
          have hrec := ih w ns0 hns0
          cases hq : w.createDirAll (ofNames ns0) fuel with
          | mk w1 r1 =>
              rw [hq] at hrec
              cases r1 with
              | error e' => exact ⟨hrec.same, hrec.made.of_prefix hpre, fun h => by cases h⟩
              | ok u =>
                  simp only
                  cases hmk1 : w1.mkdir (ofNames (ns0 ++ [x])) with
                  | ok w2 =>
                      obtain ⟨ns1, x1, D, hsplit, hreach, hx, hnone, rfl⟩ :=
                        mkdir_ofNames_eq_ok hns hmk1
                      obtain ⟨rfl, hxx⟩ := List.append_inj' hsplit rfl
                      obtain rfl : x = x1 := by simpa using hxx
                      obtain ⟨hmade, hnew⟩ := Tree.madeDirsFor_set_dir hreach hx hnone
                      refine ⟨?_, (hrec.made.of_prefix hpre).trans hmade, fun _ => ⟨_, hnew⟩⟩
                      have hsame : w1 = { w with tree := w1.tree } := hrec.same
                      rw [hsame]
                  | error e'' =>
                      simp only
                      refine ⟨hrec.same, hrec.made.of_prefix hpre, fun h => ?_⟩
                      apply reaches_of_isDir hns
                      split at h <;> simp_all

theorem ensureParentDir_makesDirs (hns : ∀ y ∈ ns, IsName y) :
    MakesDirs w ns.dropLast (w.ensureParentDir (ofNames ns)) := by
  unfold ensureParentDir
  rcases List.eq_nil_or_concat ns with rfl | ⟨ns0, x, rfl⟩
  · rw [parent?_ofNames_nil]
    exact ⟨rfl, Tree.MadeDirsFor.refl _ _, fun _ => ⟨[], reaches_nil w.tree⟩⟩
  rw [List.concat_eq_append] at hns ⊢
  rw [parent?_ofNames_append hns, List.dropLast_concat]
  simp only [text_ofNames_isEmpty, Bool.false_eq_true, if_false]
  exact createDirAll_makesDirs _ w ns0 (fun y hy => hns y (by simp [hy]))

/-!
## A directory that exists

Where the directory names of a file path reach a directory, making the
directory of the file finds it there and changes nothing.
-/

section Exists

variable {D : Location} {x : String}

end Exists

end World

/-!
## Well-formed trees

In a well-formed tree every entry's parent is a directory, as on a real
filesystem.  Nothing stood below a directory that was made there, so the
names read after one lead straight down, and every directory made for a
path lies on the way to the directory the path reaches
(`MadeDirsFor.isPrefix_of_new`).
-/

namespace Tree

variable {t t' : Tree} {ns : List String}

/-- Every entry's parent is a directory (the root is one). -/
def WellFormed (t : Tree) : Prop :=
  ∀ l x n, t.get? (l ++ [x]) = some n → t.get? l = some .dir

theorem wellFormed_of_entries (h : ∀ e ∈ t.entries, t.get? e.1.dropLast = some .dir) :
    t.WellFormed := by
  intro l x n hget
  have hne : (l ++ [x]).isEmpty = false := by simp
  simp only [get?, hne, Bool.false_eq_true, if_false] at hget
  obtain ⟨e, hfind, -⟩ := Option.map_eq_some_iff.1 hget
  have heq : e.1 = l ++ [x] := by simpa using List.find?_some hfind
  simpa [heq] using h e (List.mem_of_find?_eq_some hfind)

theorem WellFormed.get?_of_append (hwf : t.WellFormed) :
    ∀ (r l : Location) (n : Node), r ≠ [] → t.get? (l ++ r) = some n → t.get? l = some .dir := by
  intro r
  induction r with
  | nil => intro l n h; exact absurd rfl h
  | cons y r ih =>
      intro l n _ hget
      cases r with
      | nil => exact hwf l y n hget
      | cons z r' =>
          have hmid : t.get? (l ++ [y]) = some .dir :=
            ih (l ++ [y]) n (List.cons_ne_nil z r') (by simpa using hget)
          exact hwf l y .dir hmid

theorem MadeDirsFor.get?_below_new (hwf : t.WellFormed) (hmade : t.MadeDirsFor t' ns)
    {N : Location} (hN : t.get? N = none) {r : Location} (hr : r ≠ []) {n : Node}
    (h : t'.get? (N ++ r) = some n) : n = .dir ∧ t.get? (N ++ r) = none := by
  by_cases hch : t'.get? (N ++ r) = t.get? (N ++ r)
  · rw [hch] at h
    have hdir := hwf.get?_of_append r N n hr h
    rw [hN] at hdir
    cases hdir
  · obtain ⟨hnone, hdir⟩ := hmade.grows _ hch
    rw [hdir] at h
    exact ⟨(Option.some.inj h).symm, hnone⟩

theorem walkPrefix_of_dirs_below :
    ∀ (ps : List String) (n : Nat) (cur : Location) (k : Nat) {d : Location} {k' m : Nat},
      (∀ r n, r ≠ [] → t.get? (cur ++ r) = some n → n = .dir) → (∀ y ∈ ps, IsName y) →
      walkPrefix t n cur ps k = .ok (d, k', m) → d = cur ++ ps := by
  intro ps
  induction ps with
  | nil =>
      intro n cur k d k' m _ _ h
      cases n with
      | zero => simp [walkPrefix] at h
      | succ n =>
          simp only [walkPrefix, Except.ok.injEq, Prod.mk.injEq] at h
          simp [h.1]
  | cons p rest ih =>
      intro n cur k d k' m hbelow hps h
      cases n with
      | zero => simp [walkPrefix] at h
      | succ n =>
          have hp := hps p (by simp)
          obtain ⟨cur', extra, k'', hstep, hrest⟩ := walkPrefix_succ_cons.mp h
          cases hstep with
          | dot => exact absurd rfl hp.2.1
          | up => exact absurd rfl hp.2.2.1
          | dir _ _ _ _ =>
              have hbelow' : ∀ r n, r ≠ [] → t.get? (cur ++ [p] ++ r) = some n → n = .dir := by
                intro r n hr hget
                exact hbelow ([p] ++ r) n (by simp) (by simpa using hget)
              have := ih n (cur ++ [p]) k hbelow' (fun y hy => hps y (by simp [hy])) hrest
              simpa using this
          | link _ _ _ hget _ _ =>
              have := hbelow [p] _ (by simp) hget
              cases this

theorem MadeDirsFor.isPrefix_of_new (hwf : t.WellFormed) (hmade : t.MadeDirsFor t' ns)
    (hns : ∀ y ∈ ns, IsName y) {D : Location} (hreach : Reaches t' ns D) {N : Location}
    (hN : t.get? N = none) (hdir : t'.get? N = some .dir) : N <+: D := by
  obtain ⟨pre, ⟨rest, rfl⟩, hpre⟩ := hmade.reached N hN hdir
  cases rest with
  | nil =>
      rw [List.append_nil] at hreach
      have hND : N = D := Reaches.unique hpre hreach
      subst hND
      exact List.prefix_refl N
  | cons y rest' =>
      -- the walk of `pre ++ rest` passes through `N` and then goes down
      obtain ⟨n, k, m, hw⟩ := hreach
      have hwalk := (walk_true_eq_found_dir_iff n [] (pre ++ y :: rest') 0).mpr ⟨k, m, hw⟩
      rw [walk_append (List.cons_ne_nil y rest')] at hwalk
      split at hwalk
      · rename_i N' k₁ m₁ hpw
        have hN' : N' = N := Reaches.unique ⟨_, _, _, hpw⟩ hpre
        subst hN'
        obtain ⟨k₂, m₂, hrest⟩ := (walk_true_eq_found_dir_iff _ _ _ _).mp hwalk
        have hdown := walkPrefix_of_dirs_below (y :: rest') m₁ N' k₁
          (fun r n hr h => (hmade.get?_below_new hwf hN hr h).1)
          (fun z hz => hns z (by simp [hz])) hrest
        exact ⟨y :: rest', hdown.symm⟩
      · cases hwalk

theorem MadeDirsFor.eq_of_link (hwf : t.WellFormed) (hmade : t.MadeDirsFor t' ns)
    (hns : ∀ y ∈ ns, IsName y) {D : Location} (hreach : Reaches t' ns D) {x s : String}
    (hlink : t'.get? (D ++ [x]) = some (.link s)) : ∀ l, t'.get? l = t.get? l := by
  have hold : t.get? (D ++ [x]) = some (.link s) := by
    by_cases hch : t'.get? (D ++ [x]) = t.get? (D ++ [x])
    · rw [← hch, hlink]
    · have := (hmade.grows _ hch).2
      rw [hlink] at this
      cases this
  intro l
  by_cases hch : t'.get? l = t.get? l
  · exact hch
  obtain ⟨hnone, hdir⟩ := hmade.grows l hch
  -- a made directory lies above the link, which stood below it before
  obtain ⟨r, rfl⟩ := hmade.isPrefix_of_new hwf hns hreach hnone hdir
  have habove := hwf.get?_of_append (r ++ [x]) l _ (by simp) (by simpa using hold)
  rw [hnone] at habove
  cases habove

end Tree

end TypeRefs
