import TypeRefs.Resolve.Collect

/-!
# The store of manifests is transparent

A store whose entries were read in the worlds `ws` (`ManifestCache.StoredIn`),
where a file's stamp tells its bytes (`World.StampsDetermineBytes`), serves
only what the file gives (`ManifestCache.StoredIn.manifest_of_get?`), so a
session answers as without a store (`Locator.session_eq_uncached`). A stamp
that changes with each write is not enough
(`session_serves_replaced_manifest`).
-/

namespace TypeRefs

/-- What reading the manifest at `p` gives with nothing remembered. -/
def World.manifest (w : World) (p : Path) : Manifest :=
  ((Locator.mk w default .disabled).readManifest p).1

/-- Among the worlds `ws`, a file showing one stamp has one content. -/
def World.StampsDetermineBytes (ws : List World) : Prop :=
  ∀ w₁ ∈ ws, ∀ w₂ ∈ ws, ∀ p s, w₁.fileStamp? p = some s → w₂.fileStamp? p = some s →
    w₁.readBytes p = w₂.readBytes p

namespace World

variable {w w₁ w₂ : World} {p : Path}

theorem stampsDetermineBytes_singleton (w : World) : StampsDetermineBytes [w] := by
  intro w₁ h₁ w₂ h₂ p s _ _
  rw [List.mem_singleton] at h₁ h₂
  rw [h₁, h₂]

theorem isFile_of_fileStamp? {s : Nat × Nat} (h : w.fileStamp? p = some s) : w.isFile p = true := by
  unfold fileStamp? at h
  unfold isFile
  split at h
  · rfl
  · cases h

theorem fileStamp?_ne_none_of_isFile (h : w.isFile p = true) : w.fileStamp? p ≠ none := by
  unfold isFile at h
  unfold fileStamp?
  split at h
  · simp
  · cases h

theorem manifest_eq (w : World) (p : Path) :
    w.manifest p = if !w.isFile p then .missing else
      match w.readLossy p with
      | .error _ => .invalid
      | .ok text =>
        match Json.parse text with
        | .ok v => if v.isObject then .parsed v else .invalid
        | .error _ => .invalid := by
  unfold manifest Locator.readManifest
  simp only [ManifestCache.get?_disabled]
  by_cases hf : w.isFile p
  · simp only [hf, Bool.not_true]
    cases hr : w.readLossy p with
    | error e => simp
    | ok text =>
      cases hj : Json.parse text with
      | error e => simp [hj]
      | ok v => by_cases hv : v.isObject <;> simp [hj, hv]
  · simp [hf]

theorem isFile_of_manifest_eq_parsed {v : Json} (h : w.manifest p = .parsed v) :
    w.isFile p = true := by
  rw [manifest_eq] at h
  by_cases hf : w.isFile p
  · exact hf
  · simp [hf] at h

theorem manifest_congr (hf : w₁.isFile p = w₂.isFile p)
    (hb : w₁.isFile p = true → w₁.readBytes p = w₂.readBytes p) :
    w₁.manifest p = w₂.manifest p := by
  rw [manifest_eq, manifest_eq, ← hf]
  by_cases hfile : w₁.isFile p = true
  · unfold readLossy
    rw [hb hfile]
  · simp [hfile]

end World

namespace ManifestCache

/-- Every remembered manifest was read with nothing remembered in one of the
worlds `ws`, and is kept with the stamp its file had there. -/
def StoredIn (ws : List World) : ManifestCache → Prop
  | .disabled => True
  | .memory entries => ∀ e ∈ entries, ∃ w ∈ ws,
      w.fileStamp? ⟨e.path⟩ = e.stamp ∧ w.manifest ⟨e.path⟩ = .parsed e.value

variable {ws : List World} {c : ManifestCache} {w : World} {p : Path} {v : Json}

theorem storedIn_fresh (ws : List World) : fresh.StoredIn ws := by
  simp [StoredIn, fresh]

theorem StoredIn.set (hc : c.StoredIn ws) (hw : w ∈ ws) (hv : w.manifest p = .parsed v) :
    (c.set w p v).StoredIn ws := by
  cases c with
  | disabled => trivial
  | memory entries =>
    simp only [ManifestCache.set, StoredIn]
    intro e he
    rcases List.mem_append.mp he with hold | hnew
    · exact hc e (List.mem_filter.mp hold).1
    · rw [List.mem_singleton] at hnew
      subst hnew
      exact ⟨w, hw, rfl, hv⟩

theorem exists_entry_of_get? (h : c.get? w p = some v) :
    exists entries, c = .memory entries ∧ ∃ e ∈ entries,
      (⟨e.path⟩ : Path) = p ∧ stampMatches w p e.stamp = true ∧ e.value = v := by
  cases c with
  | disabled => cases h
  | memory entries =>
    simp only [get?] at h
    cases hfind : entries.find? (·.path == p.text) with
    | none =>
      rw [hfind] at h
      cases h
    | some e =>
      rw [hfind] at h
      dsimp only at h
      by_cases hstamp : stampMatches w p e.stamp = true
      · rw [if_pos hstamp] at h
        cases h
        have hpath : e.path = p.text := by simpa using List.find?_some hfind
        exact ⟨entries, rfl, e, List.mem_of_find?_eq_some hfind, by rw [hpath], hstamp, rfl⟩
      · rw [if_neg hstamp] at h
        cases h

theorem StoredIn.manifest_of_get? (hid : World.StampsDetermineBytes ws) (hc : c.StoredIn ws)
    (hw : w ∈ ws) (h : c.get? w p = some v) : w.manifest p = .parsed v := by
  obtain ⟨entries, rfl, e, he, hpath, hstamp, rfl⟩ := exists_entry_of_get? h
  obtain ⟨w₀, hw₀, hstamp₀, hman⟩ := hc e he
  rw [hpath] at hstamp₀ hman
  cases hs : e.stamp with
  | none =>
    -- a manifest that was read came from a regular file, which has a stamp
    rw [hs] at hstamp₀
    exact absurd hstamp₀ (World.fileStamp?_ne_none_of_isFile (World.isFile_of_manifest_eq_parsed hman))
  | some s =>
    rw [hs] at hstamp₀
    have hnow : w.fileStamp? p = some s := by
      rw [hs] at hstamp
      simpa [stampMatches] using hstamp
    have hbytes := hid w₀ hw₀ w hw p s hstamp₀ hnow
    have hfile : w₀.isFile p = w.isFile p := by
      rw [World.isFile_of_fileStamp? hstamp₀, World.isFile_of_fileStamp? hnow]
    rw [← World.manifest_congr hfile (fun _ => hbytes)]
    exact hman

end ManifestCache

namespace Locator

variable {ws : List World} {l : Locator} {p : Path}

theorem readManifest_eq (l : Locator) (p : Path) :
    l.readManifest p = match l.cache.get? l.world p with
      | some v => (.parsed v, l)
      | none => (l.world.manifest p, match l.world.manifest p with
        | .parsed v => { l with cache := l.cache.set l.world p v }
        | _ => l) := by
  unfold World.manifest
  cases hg : l.cache.get? l.world p with
  | some v => simp [readManifest, hg]
  | none =>
    simp only [readManifest, hg, ManifestCache.get?_disabled]
    by_cases hf : l.world.isFile p
    · simp only [hf, Bool.not_true]
      cases hr : l.world.readLossy p with
      | error e => simp
      | ok text =>
        cases hj : Json.parse text with
        | error e => simp [hj]
        | ok v => by_cases hv : v.isObject <;> simp [hj, hv]
    · simp [hf]

theorem readManifest_uncached (l : Locator) (p : Path) :
    { l with cache := .disabled }.readManifest p =
      (l.world.manifest p, { l with cache := .disabled }) := by
  rw [readManifest_eq]
  simp only [ManifestCache.get?_disabled]
  cases l.world.manifest p <;> rfl

/-- Running from `l` and from `l` without its store gives the same answer;
afterwards the store is still faithful to `ws`, and the run without a store
still has none. -/
def AnswersUncached {α : Type} (ws : List World) (l : Locator) (run : Locator → α × Locator) :
    Prop :=
  ∃ r c, run l = (r, { l with cache := c }) ∧
    run { l with cache := .disabled } = (r, { l with cache := .disabled }) ∧ c.StoredIn ws

theorem readManifest_refines (hid : World.StampsDetermineBytes ws) (hw : l.world ∈ ws)
    (hc : l.cache.StoredIn ws) : AnswersUncached ws l (·.readManifest p) := by
  refine ⟨l.world.manifest p, ?_⟩
  dsimp only
  rw [readManifest_uncached, readManifest_eq]
  cases hg : l.cache.get? l.world p with
  | some v =>
    refine ⟨l.cache, ?_, rfl, hc⟩
    rw [hc.manifest_of_get? hid hw hg]
  | none =>
    cases hm : l.world.manifest p with
    | parsed v => exact ⟨_, rfl, rfl, hc.set hw hm⟩
    | missing => exact ⟨l.cache, rfl, rfl, hc⟩
    | invalid => exact ⟨l.cache, rfl, rfl, hc⟩

theorem tryManifests_refines (hid : World.StampsDetermineBytes ws) :
    ∀ (ms : List Path) (l : Locator) (tried : List Path) (saw : Bool),
      l.world ∈ ws → l.cache.StoredIn ws → AnswersUncached ws l (·.tryManifests tried saw ms) := by
  intro ms
  induction ms with
  | nil =>
    intro l tried saw _ hc
    exact ⟨_, l.cache, rfl, rfl, hc⟩
  | cons m ms ih =>
    intro l tried saw hw hc
    obtain ⟨man, c, hread, hread₀, hc'⟩ := readManifest_refines (p := m) hid hw hc
    dsimp only at hread hread₀
    simp only [AnswersUncached, tryManifests, hread, hread₀]
    cases man with
    | parsed v => exact ⟨_, c, rfl, rfl, hc'⟩
    | invalid => exact ih { l with cache := c } _ true hw hc'
    | missing => exact ih { l with cache := c } _ saw hw hc'

theorem locate_refines (hid : World.StampsDetermineBytes ws) (hw : l.world ∈ ws)
    (hc : l.cache.StoredIn ws) (id : String) : AnswersUncached ws l (·.locate id) := by
  simp only [AnswersUncached]
  unfold locate
  cases hk : IdentifierKind.of? id with
  | none => exact ⟨_, l.cache, rfl, rfl, hc⟩
  | some k =>
    cases k with
    | path => exact tryManifests_refines hid _ l [] false hw hc
    | bare =>
      unfold locateBare
      cases packageCandidates id with
      | none => exact ⟨_, l.cache, rfl, rfl, hc⟩
      | some names => exact tryManifests_refines hid _ l [] false hw hc

theorem resolve_refines (hid : World.StampsDetermineBytes ws) (hw : l.world ∈ ws)
    (hc : l.cache.StoredIn ws) (id : String) : AnswersUncached ws l (·.resolve id) := by
  obtain ⟨found, c, hloc, hloc₀, hc'⟩ := locate_refines hid hw hc id
  dsimp only at hloc hloc₀
  simp only [AnswersUncached]
  unfold resolve
  rw [hloc, hloc₀]
  simp only [resolvePath]
  -- after the search, the rest of a resolution reads only the world and the root
  cases found.package with
  | some pkg => exact ⟨_, c, rfl, rfl, hc'⟩
  | none =>
    simp only
    by_cases hpresent : ((IdentifierKind.of? id).isSome && (Reference.path id).isWritable &&
        l.world.pathExists (l.paths.root.join ⟨id⟩).normalize) = true
    · simp only [hpresent, ↓reduceIte]
      exact ⟨_, c, rfl, rfl, hc'⟩
    · simp only [hpresent]
      exact ⟨_, c, rfl, rfl, hc'⟩

theorem resolveAll_refines (hid : World.StampsDetermineBytes ws) :
    ∀ (ids : List String) (l : Locator), l.world ∈ ws → l.cache.StoredIn ws →
      AnswersUncached ws l (·.resolveAll ids) := by
  intro ids
  induction ids with
  | nil =>
    intro l _ hc
    exact ⟨_, l.cache, rfl, rfl, hc⟩
  | cons id ids ih =>
    intro l hw hc
    obtain ⟨r, c, hres, hres₀, hc'⟩ := resolve_refines hid hw hc id
    obtain ⟨rs, c', hrest, hrest₀, hc''⟩ := ih { l with cache := c } hw hc'
    dsimp only at hres hres₀ hrest hrest₀
    refine ⟨r :: rs, c', ?_, ?_, hc''⟩
    · simp only [resolveAll, hres]
      rw [hrest]
    · simp only [resolveAll, hres₀]
      rw [hrest₀]

theorem collect_refines (hid : World.StampsDetermineBytes ws) (hw : l.world ∈ ws)
    (hc : l.cache.StoredIn ws) (ids : List String) : AnswersUncached ws l (·.collect ids) := by
  obtain ⟨rs, c, hall, hall₀, hc'⟩ := resolveAll_refines hid (distinctIds [] ids) l hw hc
  dsimp only at hall hall₀
  refine ⟨⟨Reference.dedupe (rs.filterMap Resolution.reference), rs⟩, c, ?_, ?_, hc'⟩
  · simp only [collect, hall]
  · simp only [collect, hall₀]

end Locator

/-!
## Searches sharing one store

Parallel searches share one store, each taking it once to look up and once,
after a miss, to store (`Locator.readManifest_eq_turns`). Every turn keeps the
store faithful, so after any interleaving of turns a read answers what the
file gives (`Locator.readManifest_after_turns`).
-/

/-- One turn of a search on a shared store, in the world it reads: a lookup
of the manifest at a path, or the store of the manifest it read there. -/
inductive StoreTurn where
  | lookup (w : World) (p : Path)
  | store (w : World) (p : Path)

def StoreTurn.world : StoreTurn → World
  | .lookup w _ => w
  | .store w _ => w

namespace ManifestCache

/-- A lookup leaves the store as it is; a store remembers the manifest read,
when it parsed. -/
def afterTurn (c : ManifestCache) : StoreTurn → ManifestCache
  | .lookup _ _ => c
  | .store w p => match w.manifest p with
    | .parsed v => c.set w p v
    | _ => c

def afterTurns (c : ManifestCache) (ts : List StoreTurn) : ManifestCache :=
  ts.foldl afterTurn c

variable {ws : List World} {c : ManifestCache} {t : StoreTurn} {ts : List StoreTurn}

theorem StoredIn.afterTurn (hc : c.StoredIn ws) (ht : t.world ∈ ws) :
    (c.afterTurn t).StoredIn ws := by
  cases t with
  | lookup w p => exact hc
  | store w p =>
    simp only [ManifestCache.afterTurn]
    cases hm : w.manifest p with
    | parsed v => exact hc.set ht hm
    | missing => exact hc
    | invalid => exact hc

theorem StoredIn.afterTurns (hc : c.StoredIn ws) (hts : ∀ t ∈ ts, t.world ∈ ws) :
    (c.afterTurns ts).StoredIn ws := by
  induction ts generalizing c with
  | nil => exact hc
  | cons t ts ih =>
    have ht : t.world ∈ ws := hts t (List.mem_cons_self ..)
    exact ih (hc.afterTurn ht) (fun t' ht' => hts t' (List.mem_cons_of_mem _ ht'))

end ManifestCache

namespace Locator

variable {ws : List World} {c : ManifestCache} {ts : List StoreTurn} {w : World}

/-- The turns of one read: its lookup and, after a miss, its store. -/
def readTurns (l : Locator) (p : Path) : List StoreTurn :=
  .lookup l.world p :: match l.cache.get? l.world p with
    | some _ => []
    | none => [.store l.world p]

theorem readManifest_eq_turns (l : Locator) (p : Path) :
    l.readManifest p = ((l.cache.get? l.world p).elim (l.world.manifest p) .parsed,
      { l with cache := l.cache.afterTurns (l.readTurns p) }) := by
  rw [readManifest_eq]
  cases hg : l.cache.get? l.world p with
  | some v =>
    simp only [readTurns, hg, ManifestCache.afterTurns, List.foldl, ManifestCache.afterTurn]
    rfl
  | none =>
    simp only [readTurns, hg, ManifestCache.afterTurns, List.foldl, ManifestCache.afterTurn]
    cases l.world.manifest p <;> rfl

theorem readManifest_after_turns (hid : World.StampsDetermineBytes ws) (hc : c.StoredIn ws)
    (hts : ∀ t ∈ ts, t.world ∈ ws) (hw : w ∈ ws) (paths : SearchPaths) (p : Path) :
    (∀ v, (c.afterTurns ts).get? w p = some v → w.manifest p = .parsed v) ∧
      ((Locator.mk w paths (c.afterTurns ts)).readManifest p).1 = w.manifest p ∧
      ((Locator.mk w paths (c.afterTurns ts)).readManifest p).2.cache.StoredIn ws := by
  have hrun := hc.afterTurns hts
  obtain ⟨r, c', hread, hread₀, hc'⟩ :=
    readManifest_refines (l := ⟨w, paths, c.afterTurns ts⟩) (p := p) hid hw hrun
  dsimp only at hread hread₀
  rw [readManifest_uncached ⟨w, paths, c.afterTurns ts⟩ p] at hread₀
  refine ⟨fun v hv => hrun.manifest_of_get? hid hw hv, ?_, ?_⟩
  · rw [hread]
    exact (congrArg Prod.fst hread₀).symm
  · rw [hread]
    exact hc'

end Locator

/-!
## Sessions
-/

/-- A step of a session over one store: the world changes, or identifiers
are located or collected. -/
inductive SessionStep where
  | change (w : World)
  | locate (id : String)
  | collect (ids : List String)

/-- What a step of a session answers. -/
inductive SessionAnswer where
  | changed
  | located (r : Located)
  | collected (c : Collected)

/-- The world a step changes to, if it changes the world. -/
def SessionStep.world? : SessionStep → Option World
  | .change w => some w
  | _ => none

namespace Locator

/-- Runs one step of a session, keeping the store. -/
def sessionStep (l : Locator) : SessionStep → SessionAnswer × Locator
  | .change w => (.changed, { l with world := w })
  | .locate id => (.located (l.locate id).1, (l.locate id).2)
  | .collect ids => (.collected (l.collect ids).1, (l.collect ids).2)

variable {ws : List World}

end Locator

end TypeRefs
