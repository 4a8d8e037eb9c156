import TypeRefs.Prepare.Run
import TypeRefs.Proofs.Fs.MakeDirs

/-!
# Writing a file whole

When no entry bears the scratch name, an `emit` that succeeds made directories
and put the file in place of the entry at its location (`emit_ofNames_eq_ok`);
one that fails made directories only (`emit_ofNames_eq_error`).
-/

namespace TypeRefs

open TypeRefs.Path

namespace World

variable {w w' w₁ : World} {ns : List String} {D : Location} {x : String}

/-- No entry of the tree bears the name of the scratch file that writing `p`
uses next. -/
def ScratchFree (w : World) (p : Path) : Prop :=
  ∀ l, l.getLast? = some (scratchName (p.fileName?.getD "file") w.pid w.scratchCount) →
    w.tree.get? l = none

theorem scratchFree_of_no_dot_names
    (h : ∀ e ∈ w.tree.entries, (e.1.getLast?.getD "").toList.head? ≠ some '.') (p : Path) :
    w.ScratchFree p := by
  intro l hl
  have hne : l.isEmpty = false := by
    cases l with
    | nil => simp at hl
    | cons a as => rfl
  unfold Tree.get?
  rw [if_neg (by simp [hne]), Option.map_eq_none_iff, List.find?_eq_none]
  intro e he heq
  have hloc : e.1 = l := by simpa using heq
  apply h e he
  rw [hloc, hl]
  simp [scratchName]

/-!
## The scratch file

A scratch path is looked up the same way in every tree that keeps the
directories and links of the world's: its text is checked, then its last
name is read in a fixed directory.
-/

/-- The lookups of `p` check its text and read the name `y` in `D`, in every
tree that keeps the directories and links of `w`'s. -/
def NamesLast (w : World) (p : Path) (D : Location) (y : String) : Prop :=
  ∀ (t : Tree) (f : Bool),
    (∀ l, (w.tree.get? l = some .dir ∨ exists s, w.tree.get? l = some (.link s)) →
      t.get? l = w.tree.get? l) →
    (f = false ∨ ∀ s, t.get? (D ++ [y]) ≠ some (.link s)) →
    lookup t w.cwd p.text f = (checkPath p.text >>= fun _ => t.lastTarget D y)

theorem namesLast_ofNames (hns : ∀ y ∈ ns ++ [x], IsName y) (hreach : Reaches w.tree ns D) :
    NamesLast w (ofNames (ns ++ [x])) D x := by
  intro t f hagree hlink
  exact lookup_ofNames_append hns (hreach.congr hagree) hlink

theorem namesLast_dot_slash (hx : IsName x) : NamesLast w ⟨"./" ++ x⟩ w.cwd x := by
  intro t f _ hlink
  exact lookup_dot_slash hx hlink

theorem find_ofNames_append_false (hns : ∀ y ∈ ns ++ [x], IsName y) (hreach : Reaches w.tree ns D)
    (hcheck : checkPath (ofNames (ns ++ [x])).text = .ok ()) (hx : IsLastName x) :
    w.find (ofNames (ns ++ [x])) false = .ok (w.tree.targetAt D x) := by
  unfold find
  rw [lookup_ofNames_append hns hreach (.inl rfl), hcheck]
  exact Tree.lastTarget_of_isLastName hx

section Scratch

variable {p : Path} {y : String} {bytes : List UInt8} {now : Nat}

theorem not_link_of_none_or_dir {t : Tree} {l : Location}
    (h : t.get? l = none ∨ t.get? l = some .dir) : ∀ s, t.get? l ≠ some (.link s) := by
  intro s hs
  rcases h with h | h <;> rw [h] at hs <;> cases hs

theorem find_scratch_of_none (hp : NamesLast w p D y) (hnone : w.tree.get? (D ++ [y]) = none)
    (hcheck : checkPath p.text = .ok ()) (hlen : y.utf8ByteSize ≤ maxNameBytes) :
    w.find p true = .ok (.absent D y) := by
  have hfind : w.find p true = (checkPath p.text >>= fun _ => w.tree.lastTarget D y) :=
    hp w.tree true (fun _ _ => rfl) (.inr (not_link_of_none_or_dir (.inl hnone)))
  rw [hfind, hcheck]
  show w.tree.lastTarget D y = _
  simp [Tree.lastTarget, Tree.targetAt, Nat.not_lt.mpr hlen, hnone]

theorem writeFile_scratch (hp : NamesLast w p D y)
    (hfree : w.tree.get? (D ++ [y]) = none ∨ w.tree.get? (D ++ [y]) = some .dir) :
    (exists e, w.writeFile p bytes now = (w, .error e)) ∨
      (w.tree.get? (D ++ [y]) = none ∧ checkPath p.text = .ok () ∧ y.utf8ByteSize ≤ maxNameBytes ∧
        w.writeFile p bytes now = ({ w with tree := w.tree.set (D ++ [y]) (.file (w.written bytes) now) },
          if w.fits bytes then .ok () else .error IoError.tooLarge)) := by
  have hfind : w.find p true = (checkPath p.text >>= fun _ => w.tree.lastTarget D y) :=
    hp w.tree true (fun _ _ => rfl) (.inr (not_link_of_none_or_dir hfree))
  unfold writeFile
  cases hcheck : checkPath p.text with
  | error e =>
      rw [hfind, hcheck]
      exact .inl ⟨e, rfl⟩
  | ok u =>
      by_cases hlong : y.utf8ByteSize > maxNameBytes
      · have hv : w.find p true = .error IoError.nameTooLong := by
          rw [hfind, hcheck]
          show w.tree.lastTarget D y = _
          simp [Tree.lastTarget, hlong]
        rw [hv]
        exact .inl ⟨_, rfl⟩
      have hname : y.utf8ByteSize ≤ maxNameBytes := Nat.not_lt.mp hlong
      rcases hfree with hnone | hdir
      · rw [find_scratch_of_none hp hnone hcheck hname]
        exact .inr ⟨hnone, rfl, hname, rfl⟩
      · have hv : w.find p true = .ok (.found (D ++ [y]) .dir) := by
          rw [hfind, hcheck]
          show w.tree.lastTarget D y = _
          simp [Tree.lastTarget, Tree.targetAt, hlong, hdir]
        rw [hv]
        exact .inl ⟨_, rfl⟩

theorem writeFile_scratch_eq_ok (hp : NamesLast w p D y)
    (hfree : w.tree.get? (D ++ [y]) = none ∨ w.tree.get? (D ++ [y]) = some .dir)
    (h : w.writeFile p bytes now = (w', .ok ())) :
    w.tree.get? (D ++ [y]) = none ∧ checkPath p.text = .ok () ∧ y.utf8ByteSize ≤ maxNameBytes ∧
      w.fits bytes = true ∧ w' = { w with tree := w.tree.set (D ++ [y]) (.file bytes now) } := by
  rcases writeFile_scratch hp hfree with ⟨e, he⟩ | ⟨hnone, hcheck, hlen, hw⟩
  · rw [he] at h
    cases h
  · rw [hw] at h
    cases hfits : w.fits bytes with
    | false =>
        rw [hfits] at h
        cases h
    | true =>
        rw [hfits] at h
        obtain ⟨rfl, -⟩ := Prod.mk.inj h
        exact ⟨hnone, hcheck, hlen, rfl, by rw [written_of_fits hfits]⟩

theorem discard_scratch_eq_self (hp : NamesLast w p D y)
    (hfree : w.tree.get? (D ++ [y]) = none ∨ w.tree.get? (D ++ [y]) = some .dir) :
    w.discard p = w := by
  have hfind : w.find p false = (checkPath p.text >>= fun _ => w.tree.lastTarget D y) :=
    hp w.tree false (fun _ _ => rfl) (.inl rfl)
  unfold discard removeFile
  rw [hfind]
  cases checkPath p.text with
  | error e => rfl
  | ok u =>
      simp only [bind, Except.bind]
      unfold Tree.lastTarget Tree.targetAt
      by_cases hlong : y.utf8ByteSize > maxNameBytes
      · rw [if_pos hlong]
      rw [if_neg hlong]
      rcases hfree with hnone | hdir
      · rw [hnone]
      · simp [hdir]

theorem discard_scratch_of_written (hp : NamesLast w p D y) (hnone : w.tree.get? (D ++ [y]) = none)
    (hcheck : checkPath p.text = .ok ()) (hlen : y.utf8ByteSize ≤ maxNameBytes) (b : List UInt8) :
    ∀ l, (({ w with tree := w.tree.set (D ++ [y]) (.file b now) } : World).discard p).tree.get? l =
      w.tree.get? l := by
  have hne : D ++ [y] ≠ [] := by simp
  have hset : (w.tree.set (D ++ [y]) (.file b now)).get? (D ++ [y]) = some (.file b now) :=
    Tree.get?_set_self _ _ hne
  have hagree : ∀ l, (w.tree.get? l = some .dir ∨ exists s, w.tree.get? l = some (.link s)) →
      (w.tree.set (D ++ [y]) (.file b now)).get? l = w.tree.get? l := by
    intro l hl
    have hl' : l ≠ D ++ [y] := by
      rintro rfl
      rcases hl with hl | ⟨s, hl⟩ <;> rw [hnone] at hl <;> cases hl
    exact Tree.get?_set_of_ne _ _ hl'
  have hfind := hp (w.tree.set (D ++ [y]) (.file b now)) false hagree (.inl rfl)
  have herase : ({ w with tree := w.tree.set (D ++ [y]) (.file b now) } : World).discard p =
      { w with tree := (w.tree.set (D ++ [y]) (.file b now)).erase (D ++ [y]) } := by
    unfold discard removeFile find
    simp only at hfind ⊢
    rw [hfind, hcheck]
    simp [bind, Except.bind, Tree.lastTarget, Tree.targetAt, Nat.not_lt.mpr hlen, hset]
  intro l
  rw [herase]
  by_cases hl : l = D ++ [y]
  · subst hl
    rw [Tree.get?_erase_self _ hne, hnone]
  · dsimp only
    rw [Tree.get?_erase_of_ne _ hl, Tree.get?_set_of_ne _ _ hl]

theorem discard_of_writeFile_scratch_error (hp : NamesLast w p D y)
    (hfree : w.tree.get? (D ++ [y]) = none ∨ w.tree.get? (D ++ [y]) = some .dir) {e : IoError}
    (h : w.writeFile p bytes now = (w', .error e)) :
    ∀ l, (w'.discard p).tree.get? l = w.tree.get? l := by
  rcases writeFile_scratch hp hfree with ⟨e', he⟩ | ⟨hnone, hcheck, hlen, hw⟩
  · rw [he] at h
    obtain ⟨rfl, -⟩ := Prod.mk.inj h
    rw [discard_scratch_eq_self hp hfree]
    exact fun _ => rfl
  · -- the file was created and then could not take the bytes
    rw [hw] at h
    obtain ⟨rfl, -⟩ := Prod.mk.inj h
    exact discard_scratch_of_written hp hnone hcheck hlen _

end Scratch

/-!
## Checks on the scratch path

The scratch name holds the file's name, so a scratch path that passes the
checks makes the file's path pass them too.
-/

theorem utf8ByteSize_lt_scratchName (x : String) (a b : Nat) :
    x.utf8ByteSize < (scratchName x a b).utf8ByteSize := by
  simp only [scratchName, String.utf8ByteSize_append]
  have : ".".utf8ByteSize = 1 := rfl
  omega

theorem scratchName_ne (x : String) (a b : Nat) : scratchName x a b ≠ x := by
  intro h
  have := utf8ByteSize_lt_scratchName x a b
  rw [h] at this
  exact Nat.lt_irrefl _ this

theorem checkPath_of_scratch {P : String} (hP : P.isEmpty = false) {a b : Nat}
    (h : checkPath (P ++ scratchName x a b) = .ok ()) : checkPath (P ++ x) = .ok () := by
  unfold checkPath at h ⊢
  split at h
  · cases h
  rename_i hnul
  split at h
  · cases h
  split at h
  · cases h
  rename_i hsize
  have hnul' : ¬ (P ++ x).toList.contains '\x00' = true := by
    intro hc
    apply hnul
    simp only [String.toList_append, List.contains_iff_mem, List.mem_append, scratchName] at hc ⊢
    rcases hc with hc | hc
    · exact .inl hc
    · exact .inr (.inl (.inl (.inl (.inl (.inr hc)))))
  have hne : (P ++ x).isEmpty = false := by
    rw [String.isEmpty_eq_false_iff] at hP ⊢
    simp [hP]
  have hsize' : ¬ (P ++ x).utf8ByteSize ≥ pathLimit := by
    have := utf8ByteSize_lt_scratchName x a b
    simp only [String.utf8ByteSize_append, ge_iff_le, Nat.not_le] at hsize ⊢
    omega
  rw [if_neg hnul', hne, if_neg Bool.false_ne_true, if_neg hsize']

/-!
## Renaming the scratch file
-/

theorem rename_eq_of_lookupParent {src dst : Path} {sd dd : Location} {s d : String}
    (hs : lookupParent w.tree w.cwd src.text = .ok (sd, some s))
    (hd : lookupParent w.tree w.cwd dst.text = .ok (dd, some d)) :
    w.rename src dst = (match w.tree.get? (sd ++ [s]) with
      | none => .error IoError.notFound
      | some .dir => .error IoError.invalid
      | some n =>
        if sd ++ [s] == dd ++ [d] then .ok w
        else
          match w.tree.get? (dd ++ [d]) with
          | some .dir => .error IoError.isDir
          | _ => .ok { w with tree := (w.tree.erase (sd ++ [s])).set (dd ++ [d]) n }) := by
  unfold rename
  rw [hs, hd]
  rfl

theorem lookupParent_root (t : Tree) (cwd : Location) :
    lookupParent t cwd (ofNames []).text = .ok ([], none) := by
  have hcheck : checkPath (ofNames []).text = .ok () := by rfl
  have hpieces : pathPieces (ofNames []).text = [] := Path.pathPieces_ofNames (by simp)
  have habs : (ofNames []).text.startsWith "/" = true := isAbsolute_ofNames []
  have hfuel : lookupFuel t (ofNames []).text = (lookupFuel t (ofNames []).text - 1) + 1 := by
    simp only [lookupFuel]
    omega
  unfold lookupParent
  rw [hcheck, hpieces, hfuel]
  simp [bind, Except.bind, habs, walk, pure, Except.pure]

theorem rename_root_ne_ok (src : Path) : w.rename src (ofNames []) ≠ .ok w' := by
  unfold rename
  rw [lookupParent_root]
  cases lookupParent w.tree w.cwd src.text with
  | error e => simp [bind, Except.bind]
  | ok r =>
      obtain ⟨sd, sn⟩ := r
      cases sn <;> simp [bind, Except.bind, throw, throwThe, MonadExceptOf.throw]

/-!
## Writing through a scratch file
-/

theorem atomicWrite_eq (w : World) (p : Path) (bytes : List UInt8) :
    w.atomicWrite p bytes =
      match ({ w with scratchCount := w.scratchCount + 1, clock := w.clock + 1 } : World).writeFile
          (scratchPath p w.pid w.scratchCount) bytes (w.clock + 1) with
      | (w₄, .error e) => (w₄.discard (scratchPath p w.pid w.scratchCount), .error e)
      | (w₄, .ok ()) =>
        match w₄.rename (scratchPath p w.pid w.scratchCount) p with
        | .ok w₅ => (w₅, .ok ())
        | .error e => (w₄.discard (scratchPath p w.pid w.scratchCount), .error e) :=
  rfl

section Write

variable {bytes : List UInt8}

theorem atomicWrite_root (hfree : w.tree.get? (w.cwd ++ [scratchName "file" w.pid w.scratchCount]) = none) :
    ∀ l, (w.atomicWrite (ofNames []) bytes).1.tree.get? l = w.tree.get? l := by
  have hname : IsName (scratchName "file" w.pid w.scratchCount) :=
    isName_scratchName (by decide) _ _
  have hnames : NamesLast ({ w with scratchCount := w.scratchCount + 1, clock := w.clock + 1 } : World)
      ⟨"./" ++ scratchName "file" w.pid w.scratchCount⟩ w.cwd (scratchName "file" w.pid w.scratchCount) :=
    namesLast_dot_slash hname
  rw [atomicWrite_eq, scratchPath_ofNames_nil]
  rcases hwrite : ({ w with scratchCount := w.scratchCount + 1, clock := w.clock + 1 } : World).writeFile
      ⟨"./" ++ scratchName "file" w.pid w.scratchCount⟩ bytes (w.clock + 1) with ⟨w₄, e | ⟨⟩⟩
  · exact discard_of_writeFile_scratch_error
      (w := { w with scratchCount := w.scratchCount + 1, clock := w.clock + 1 }) hnames (.inl hfree) hwrite
  · obtain ⟨hnone, hcheck, hlen, -, rfl⟩ := writeFile_scratch_eq_ok hnames (.inl hfree) hwrite
    simp only
    split
    · rename_i w₅ hren
      exact absurd hren (rename_root_ne_ok _)
    · exact discard_scratch_of_written hnames hnone hcheck hlen bytes

theorem isName_append_scratch (hns : ∀ y ∈ ns ++ [x], IsName y) (pid seq : Nat) :
    ∀ y ∈ ns ++ [scratchName x pid seq], IsName y := by
  intro y hy
  rcases List.mem_append.mp hy with hy | hy
  · exact hns y (by simp [hy])
  · rw [List.mem_singleton.mp hy]
    exact isName_scratchName (hns x (by simp)).2.2.2 pid seq

-- the scratch file is written once the counter and the clock have moved on
theorem namesLast_scratch (hns : ∀ y ∈ ns ++ [x], IsName y) (hreach : Reaches w.tree ns D) :
    (∀ y ∈ ns ++ [scratchName x w.pid w.scratchCount], IsName y) ∧
      NamesLast ({ w with scratchCount := w.scratchCount + 1, clock := w.clock + 1 } : World)
        (ofNames (ns ++ [scratchName x w.pid w.scratchCount])) D (scratchName x w.pid w.scratchCount) :=
  ⟨isName_append_scratch hns _ _, namesLast_ofNames (isName_append_scratch hns _ _) hreach⟩

theorem checks_of_scratch {a b : Nat}
    (hcheckT : checkPath (ofNames (ns ++ [scratchName x a b])).text = .ok ())
    (hlenT : (scratchName x a b).utf8ByteSize ≤ maxNameBytes) :
    checkPath (ofNames (ns ++ [x])).text = .ok () ∧ x.utf8ByteSize ≤ maxNameBytes := by
  have hPne : (if ns = [] then "/" else (ofNames ns).text ++ "/").isEmpty = false := by
    split <;> simp [String.isEmpty_eq_false_iff]
  constructor
  · rw [text_ofNames_append] at hcheckT ⊢
    exact checkPath_of_scratch hPne hcheckT
  · exact Nat.le_trans (Nat.le_of_lt (utf8ByteSize_lt_scratchName x a b)) hlenT

theorem rename_scratch_ofNames (v : World) {y : String} {now : Nat}
    (hns : ∀ z ∈ ns ++ [x], IsName z) (hnsT : ∀ z ∈ ns ++ [y], IsName z)
    (hreach : Reaches v.tree ns D) (hnone : v.tree.get? (D ++ [y]) = none) (hxy : x ≠ y)
    (hcheckT : checkPath (ofNames (ns ++ [y])).text = .ok ()) (hlenT : y.utf8ByteSize ≤ maxNameBytes)
    (hcheck : checkPath (ofNames (ns ++ [x])).text = .ok ()) (hlen : x.utf8ByteSize ≤ maxNameBytes) :
    ({ v with tree := v.tree.set (D ++ [y]) (.file bytes now) } : World).rename
        (ofNames (ns ++ [y])) (ofNames (ns ++ [x])) =
      match v.tree.get? (D ++ [x]) with
      | some .dir => .error IoError.isDir
      | _ => .ok { v with
          tree := ((v.tree.set (D ++ [y]) (.file bytes now)).erase (D ++ [y])).set (D ++ [x]) (.file bytes now) } := by
  have hne : D ++ [y] ≠ [] := by simp
  have hxT : D ++ [x] ≠ D ++ [y] := by simpa using hxy
  -- the written scratch file is no directory or link, so both paths still
  -- reach the same directory
  have hreach₄ : Reaches (v.tree.set (D ++ [y]) (.file bytes now)) ns D := by
    apply hreach.congr
    intro l hl
    have hl' : l ≠ D ++ [y] := by
      rintro rfl
      rcases hl with hl | ⟨s, hl⟩ <;> rw [hnone] at hl <;> cases hl
    exact Tree.get?_set_of_ne _ _ hl'
  have hsrc : lookupParent (v.tree.set (D ++ [y]) (.file bytes now)) v.cwd
      (ofNames (ns ++ [y])).text = .ok (D, some y) :=
    (lookupParent_ofNames_append_eq_ok_iff hnsT).mpr ⟨hcheckT, hlenT, hreach₄, rfl⟩
  have hdst : lookupParent (v.tree.set (D ++ [y]) (.file bytes now)) v.cwd
      (ofNames (ns ++ [x])).text = .ok (D, some x) :=
    (lookupParent_ofNames_append_eq_ok_iff hns).mpr ⟨hcheck, hlen, hreach₄, rfl⟩
  rw [rename_eq_of_lookupParent hsrc hdst, Tree.get?_set_self _ _ hne]
  simp only [beq_iff_eq, hxT.symm, if_false]
  rw [Tree.get?_set_of_ne _ _ hxT]

theorem atomicWrite_ofNames_eq_ok (hns : ∀ y ∈ ns ++ [x], IsName y) (hreach : Reaches w.tree ns D)
    (hscratch : w.tree.get? (D ++ [scratchName x w.pid w.scratchCount]) = none ∨
      w.tree.get? (D ++ [scratchName x w.pid w.scratchCount]) = some .dir)
    (h : w.atomicWrite (ofNames (ns ++ [x])) bytes = (w', .ok ())) :
    checkPath (ofNames (ns ++ [x])).text = .ok () ∧ IsLastName x ∧
      w.tree.get? (D ++ [scratchName x w.pid w.scratchCount]) = none ∧
      w.tree.get? (D ++ [x]) ≠ some .dir ∧ w.fits bytes = true ∧
      (∀ l, w'.tree.get? l =
        if l = D ++ [x] then some (.file bytes (w.clock + 1)) else w.tree.get? l) ∧
      w' = { w with tree := w'.tree, clock := w.clock + 1, scratchCount := w.scratchCount + 1 } := by
  obtain ⟨hnsT, hnames⟩ := namesLast_scratch hns hreach
  rw [atomicWrite_eq, scratchPath_ofNames hns] at h
  rcases hwrite : ({ w with scratchCount := w.scratchCount + 1, clock := w.clock + 1 } : World).writeFile
      (ofNames (ns ++ [scratchName x w.pid w.scratchCount])) bytes (w.clock + 1) with ⟨w₄, e | ⟨⟩⟩
  · rw [hwrite] at h
    cases h
  · obtain ⟨hnone, hcheckT, hlenT, hfits, rfl⟩ := writeFile_scratch_eq_ok hnames hscratch hwrite
    obtain ⟨hcheck, hlen⟩ := checks_of_scratch hcheckT hlenT
    rw [hwrite] at h
    simp only at h
    have hne : D ++ [scratchName x w.pid w.scratchCount] ≠ [] := by simp
    split at h
    · rename_i w₅ hren
      obtain ⟨rfl, -⟩ := Prod.mk.inj h
      rw [rename_scratch_ofNames ({ w with scratchCount := w.scratchCount + 1, clock := w.clock + 1 })
        hns hnsT hreach hnone (scratchName_ne x w.pid w.scratchCount).symm hcheckT hlenT hcheck hlen] at hren
      split at hren
      · cases hren
      · rename_i hdir
        cases hren
        have hxn := hns x (by simp)
        refine ⟨hcheck, ⟨hxn.2.1, hxn.2.2.1, hlen⟩, hnone, hdir, hfits, fun l => ?_, rfl⟩
        by_cases hl : l = D ++ [x]
        · subst hl
          rw [Tree.get?_set_self _ _ (by simp), if_pos rfl]
        · rw [Tree.get?_set_of_ne _ _ hl, if_neg hl]
          by_cases hlT : l = D ++ [scratchName x w.pid w.scratchCount]
          · subst hlT
            rw [Tree.get?_erase_self _ hne, hnone]
          · rw [Tree.get?_erase_of_ne _ hlT, Tree.get?_set_of_ne _ _ hlT]
    · cases h

theorem atomicWrite_ofNames_eq_error (hns : ∀ y ∈ ns ++ [x], IsName y) (hreach : Reaches w.tree ns D)
    (hscratch : w.tree.get? (D ++ [scratchName x w.pid w.scratchCount]) = none ∨
      w.tree.get? (D ++ [scratchName x w.pid w.scratchCount]) = some .dir)
    {e : IoError} (h : w.atomicWrite (ofNames (ns ++ [x])) bytes = (w', .error e)) :
    ∀ l, w'.tree.get? l = w.tree.get? l := by
  obtain ⟨hnsT, hnames⟩ := namesLast_scratch hns hreach
  rw [atomicWrite_eq, scratchPath_ofNames hns] at h
  rcases hwrite : ({ w with scratchCount := w.scratchCount + 1, clock := w.clock + 1 } : World).writeFile
      (ofNames (ns ++ [scratchName x w.pid w.scratchCount])) bytes (w.clock + 1) with ⟨w₄, e' | ⟨⟩⟩
  · rw [hwrite] at h
    obtain ⟨rfl, -⟩ := Prod.mk.inj h
    exact discard_of_writeFile_scratch_error
      (w := { w with scratchCount := w.scratchCount + 1, clock := w.clock + 1 }) hnames hscratch hwrite
  · obtain ⟨hnone, hcheckT, hlenT, -, rfl⟩ := writeFile_scratch_eq_ok hnames hscratch hwrite
    rw [hwrite] at h
    simp only at h
    split at h
    · cases h
    · obtain ⟨rfl, -⟩ := Prod.mk.inj h
      exact discard_scratch_of_written hnames hnone hcheckT hlenT bytes

end Write

/-!
## Emitting
-/

section Emit

variable {d : Declaration}

theorem scratch_none_or_dir (hfree : ScratchFree w (ofNames (ns ++ [x])))
    (hns : ∀ y ∈ ns ++ [x], IsName y) (hmade : w.tree.MadeDirsFor w₁.tree ns)
    (hpid : w₁.pid = w.pid) (hseq : w₁.scratchCount = w.scratchCount) :
    w₁.tree.get? (D ++ [scratchName x w₁.pid w₁.scratchCount]) = none ∨
      w₁.tree.get? (D ++ [scratchName x w₁.pid w₁.scratchCount]) = some .dir := by
  rw [hpid, hseq]
  have hnone : w.tree.get? (D ++ [scratchName x w.pid w.scratchCount]) = none := by
    apply hfree
    rw [fileName?_ofNames_append hns]
    simp
  by_cases hne : w₁.tree.get? (D ++ [scratchName x w.pid w.scratchCount]) =
      w.tree.get? (D ++ [scratchName x w.pid w.scratchCount])
  · rw [hne]
    exact .inl hnone
  · exact .inr (hmade.grows _ hne).2

theorem atomicWrite_root_ne_ok {bytes : List UInt8} : (w.atomicWrite (ofNames []) bytes).2 ≠ .ok () := by
  rw [atomicWrite_eq]
  rcases ({ w with scratchCount := w.scratchCount + 1, clock := w.clock + 1 } : World).writeFile
      (scratchPath (ofNames []) w.pid w.scratchCount) bytes (w.clock + 1) with ⟨w₄, e | ⟨⟩⟩
  · simp
  · simp only
    cases hren : w₄.rename (scratchPath (ofNames []) w.pid w.scratchCount) (ofNames []) with
    | ok w₅ => exact absurd hren (rename_root_ne_ok _)
    | error e => simp

theorem emit_ofNames_eq_ok (hns : ∀ y ∈ ns, IsName y) (hfree : ScratchFree w (ofNames ns))
    (h : w.emit d (ofNames ns) = (w', .ok ())) :
    exists ns0 x D t₁, ns = ns0 ++ [x] ∧ checkPath (ofNames ns).text = .ok () ∧ IsLastName x ∧
      w.tree.MadeDirsFor t₁ ns0 ∧ Reaches t₁ ns0 D ∧ t₁.get? (D ++ [x]) ≠ some .dir ∧
      t₁.get? (D ++ [scratchName x w.pid w.scratchCount]) = none ∧
      (∀ l, w'.tree.get? l =
        if l = D ++ [x] then some (.file (Text.bytesOf d.render) (w.clock + 1)) else t₁.get? l) ∧
      w' = { w with tree := w'.tree, clock := w.clock + 1, scratchCount := w.scratchCount + 1 } := by
  have hmk : MakesDirs w ns.dropLast (w.ensureParentDir (ofNames ns)) := ensureParentDir_makesDirs hns
  unfold emit at h
  cases hE : w.ensureParentDir (ofNames ns) with
  | mk w₁ r₁ =>
      rw [hE] at h hmk
      cases r₁ with
      | error e => cases h
      | ok u =>
          simp only at h
          rcases List.eq_nil_or_concat ns with rfl | ⟨ns0, x, rfl⟩
          · exact absurd (congrArg Prod.snd h) atomicWrite_root_ne_ok
          rw [List.concat_eq_append] at hns hfree hmk h ⊢
          rw [List.dropLast_concat] at hmk
          obtain ⟨D, hreach⟩ := hmk.reaches rfl
          have hsame : w₁ = { w with tree := w₁.tree } := hmk.same
          have hpid : w₁.pid = w.pid := by rw [hsame]
          have hseq : w₁.scratchCount = w.scratchCount := by rw [hsame]
          have hscratch : w₁.tree.get? (D ++ [scratchName x w₁.pid w₁.scratchCount]) = none ∨
              w₁.tree.get? (D ++ [scratchName x w₁.pid w₁.scratchCount]) = some .dir :=
            scratch_none_or_dir hfree hns hmk.made hpid hseq
          obtain ⟨hcheck, hx, hnone, hdir, -, htree, hw'⟩ := atomicWrite_ofNames_eq_ok hns hreach hscratch h
          have hclock : w₁.clock = w.clock := by rw [hsame]
          rw [hpid, hseq] at hnone
          rw [hclock] at htree
          refine ⟨ns0, x, D, w₁.tree, rfl, hcheck, hx, hmk.made, hreach, hdir, hnone, htree, ?_⟩
          rw [hw', hsame]

theorem emit_ofNames_eq_error (hns : ∀ y ∈ ns, IsName y) (hfree : ScratchFree w (ofNames ns))
    {e : IoError} (h : w.emit d (ofNames ns) = (w', .error e)) :
    w.tree.MadeDirsFor w'.tree ns.dropLast := by
  have hmk : MakesDirs w ns.dropLast (w.ensureParentDir (ofNames ns)) := ensureParentDir_makesDirs hns
  unfold emit at h
  cases hE : w.ensureParentDir (ofNames ns) with
  | mk w₁ r₁ =>
      rw [hE] at h hmk
      cases r₁ with
      | error e' =>
          obtain ⟨rfl, -⟩ := Prod.mk.inj h
          exact hmk.made
      | ok u =>
          simp only at h
          rcases List.eq_nil_or_concat ns with rfl | ⟨ns0, x, rfl⟩
          · have hsame : w₁ = w := by
              unfold ensureParentDir at hE
              rw [parent?_ofNames_nil] at hE
              exact (Prod.mk.inj hE).1.symm
            subst hsame
            have hroot : w₁.tree.get? (w₁.cwd ++ [scratchName "file" w₁.pid w₁.scratchCount]) = none := by
              apply hfree
              simp [fileName?_ofNames_nil]
            have htree : ∀ l, (w₁.atomicWrite (ofNames []) (Text.bytesOf d.render)).1.tree.get? l =
                w₁.tree.get? l := atomicWrite_root hroot
            rw [h] at htree
            exact (Tree.MadeDirsFor.refl _ _).congr_right htree
          rw [List.concat_eq_append] at hns hfree hmk h ⊢
          rw [List.dropLast_concat] at hmk ⊢
          obtain ⟨D, hreach⟩ := hmk.reaches rfl
          have hsame : w₁ = { w with tree := w₁.tree } := hmk.same
          have hpid : w₁.pid = w.pid := by rw [hsame]
          have hseq : w₁.scratchCount = w.scratchCount := by rw [hsame]
          have hscratch : w₁.tree.get? (D ++ [scratchName x w₁.pid w₁.scratchCount]) = none ∨
              w₁.tree.get? (D ++ [scratchName x w₁.pid w₁.scratchCount]) = some .dir :=
            scratch_none_or_dir hfree hns hmk.made hpid hseq
          exact hmk.made.congr_right (atomicWrite_ofNames_eq_error hns hreach hscratch h)

end Emit


end World

end TypeRefs
