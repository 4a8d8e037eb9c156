import TypeRefs.Proofs.Resolve.Collect

/-!
# What the manifest store remembers over a session

A read changes the store only when it goes past it and the file parses
(`ManifestCache.afterRead`), and a search only at its last read
(`Locator.locate_snd_eq`). By induction over the searches and the steps of a
session, the keys of a fresh store are the manifests so read
(`Locator.session_keys_are_missed_parses`).
-/

namespace TypeRefs

/-! ## Lists without repeats -/

theorem length_filter_lt_succ {α : Type} (P : α → Bool) (l : List α) :
    (l.filter P).length < l.length + 1 :=
  Nat.lt_succ_of_le (List.length_filter_le _ _)

theorem nodup_eraseDups {α : Type} [BEq α] [LawfulBEq α] : ∀ l : List α, l.eraseDups.Nodup
  | [] => List.nodup_nil
  | a :: l => by
    rw [List.eraseDups_cons, List.nodup_cons, List.mem_eraseDups, List.mem_filter]
    exact ⟨by simp, nodup_eraseDups _⟩
termination_by l => l.length
decreasing_by exact length_filter_lt_succ _ l

theorem eraseDups_sublist {α : Type} [BEq α] : ∀ l : List α, l.eraseDups.Sublist l
  | [] => List.Sublist.slnil
  | a :: l => by
    rw [List.eraseDups_cons]
    exact ((eraseDups_sublist _).trans List.filter_sublist).cons_cons a
termination_by l => l.length
decreasing_by exact length_filter_lt_succ _ l

theorem find?_eraseDups {α : Type} [BEq α] [LawfulBEq α] (P : α → Bool) :
    ∀ l : List α, l.eraseDups.find? P = l.find? P
  | [] => rfl
  | a :: l => by
    rw [List.eraseDups_cons, List.find?_cons, List.find?_cons, find?_eraseDups P _]
    cases hP : P a with
    | true => rfl
    | false =>
      dsimp only
      rw [List.find?_filter]
      congr 1
      funext b
      by_cases hb : b = a
      · subst hb
        simp [hP]
      · simp [hb]
termination_by l => l.length
decreasing_by exact length_filter_lt_succ _ l

theorem filter_take_findIdx {α : Type} (P Q : α → Bool) (hQ : ∀ a, Q a = true → P a = true) :
    ∀ l : List α, (l.take (l.findIdx P + 1)).filter Q = ((l.find? P).filter Q).toList
  | [] => rfl
  | a :: l => by
    rw [List.findIdx_cons, List.find?_cons]
    cases hP : P a with
    | true =>
      cases hq : Q a <;> simp [Option.filter, hq]
    | false =>
      have hq : Q a = false := by
        cases h : Q a with
        | true =>
          have := hQ a h
          rw [hP] at this
          cases this
        | false => rfl
      simp only [cond_false, List.take_succ_cons, List.filter_cons, hq]
      exact filter_take_findIdx P Q hQ l

/-! ## The keys of the store -/

namespace ManifestCache

/-- The manifest paths the store remembers; none when it is off. -/
def keys : ManifestCache → List Path
  | .disabled => []
  | .memory entries => entries.map fun e => ⟨e.path⟩

@[simp] theorem keys_fresh : fresh.keys = [] := rfl

theorem fresh_ne_disabled : fresh ≠ .disabled := nofun

theorem size?_memory (entries : List CachedManifest) :
    (ManifestCache.memory entries).size? = some (ManifestCache.memory entries).keys.length := by
  simp [size?, keys]

theorem keys_set_memory (entries : List CachedManifest) (w : World) (p : Path) (v : Json) :
    ((ManifestCache.memory entries).set w p v).keys = (ManifestCache.memory entries).keys.filter (· ≠ p) ++ [p] := by
  simp only [set, keys, List.map_append, List.map_cons, List.map_nil, List.filter_map]
  congr 2
  apply List.filter_congr
  intro e _
  by_cases h : e.path = p.text <;> simp [Path.eq_iff_text_eq, h]

theorem mem_keys_set_memory {entries : List CachedManifest} {w : World} {p q : Path} {v : Json} :
    q ∈ ((ManifestCache.memory entries).set w p v).keys ↔ q ∈ (ManifestCache.memory entries).keys ∨ q = p := by
  rw [keys_set_memory, List.mem_append, List.mem_filter, List.mem_singleton]
  by_cases hq : q = p <;> simp [hq]

theorem nodup_keys_set {c : ManifestCache} (h : c.keys.Nodup) (w : World) (p : Path) (v : Json) :
    (c.set w p v).keys.Nodup := by
  cases c with
  | disabled => exact List.nodup_nil
  | memory entries =>
    rw [keys_set_memory, List.nodup_append]
    refine ⟨(List.filter_sublist).nodup h, by simp, ?_⟩
    intro a ha b hb
    rw [List.mem_singleton] at hb
    subst hb
    simpa using (List.mem_filter.mp ha).2

/-- What one read of the manifest `p` does to the store: a manifest the store
does not serve and that parses is remembered, and every other read leaves the
store as it was. -/
def afterRead (c : ManifestCache) (w : World) (p : Path) : ManifestCache :=
  match c.get? w p with
  | some _ => c
  | none =>
    match w.manifest p with
    | .parsed v => c.set w p v
    | _ => c

theorem mem_keys_of_get? {c : ManifestCache} {w : World} {p : Path} {v : Json} (h : c.get? w p = some v) :
    p ∈ c.keys := by
  obtain ⟨entries, rfl, e, he, hpath, -, -⟩ := exists_entry_of_get? h
  exact List.mem_map.mpr ⟨e, he, hpath⟩

theorem afterRead_ne_disabled {c : ManifestCache} (hc : c ≠ .disabled) (w : World) (p : Path) :
    c.afterRead w p ≠ .disabled := by
  cases c with
  | disabled => exact absurd rfl hc
  | memory entries =>
    unfold afterRead
    split
    · exact hc
    · split
      · nofun
      · exact hc

theorem mem_keys_afterRead {c : ManifestCache} (hc : c ≠ .disabled) (w : World) (p q : Path) :
    q ∈ (c.afterRead w p).keys ↔
      q ∈ c.keys ∨ (q = p ∧ (c.get? w p).isNone = true ∧ (w.manifest p).value?.isSome = true) := by
  cases c with
  | disabled => exact absurd rfl hc
  | memory entries =>
    unfold afterRead
    cases hg : (ManifestCache.memory entries).get? w p with
    | some v => simp
    | none =>
      cases hm : w.manifest p with
      | parsed v => simp [mem_keys_set_memory, Manifest.value?]
      | invalid | missing => simp [Manifest.value?]

theorem mem_keys_afterRead_self {c : ManifestCache} (hc : c ≠ .disabled) {w : World} {p : Path}
    (h : ((c.get? w p).isSome || (w.manifest p).value?.isSome) = true) : p ∈ (c.afterRead w p).keys := by
  rw [mem_keys_afterRead hc]
  cases hg : c.get? w p with
  | some v => exact Or.inl (mem_keys_of_get? hg)
  | none =>
    simp only [hg, Option.isSome_none, Bool.false_or] at h
    exact Or.inr ⟨rfl, rfl, h⟩

theorem nodup_keys_afterRead {c : ManifestCache} (h : c.keys.Nodup) (w : World) (p : Path) :
    (c.afterRead w p).keys.Nodup := by
  unfold afterRead
  split
  · exact h
  · split
    · exact nodup_keys_set h w p _
    · exact h

theorem StoredIn.afterRead {ws : List World} {c : ManifestCache} {w : World} (hc : c.StoredIn ws)
    (hw : w ∈ ws) (p : Path) : (c.afterRead w p).StoredIn ws := by
  unfold ManifestCache.afterRead
  split
  · exact hc
  · split
    · exact hc.set hw ‹_›
    · exact hc

theorem size?_eq_of_mem_keys_iff {c : ManifestCache} {xs : List Path} (hc : c ≠ .disabled)
    (hn : c.keys.Nodup) (h : ∀ q, q ∈ c.keys ↔ q ∈ xs) : c.size? = some xs.eraseDups.length := by
  cases c with
  | disabled => exact absurd rfl hc
  | memory entries =>
    rw [size?_memory]
    have hperm : (ManifestCache.memory entries).keys.Perm xs.eraseDups := by
      rw [List.perm_ext_iff_of_nodup hn (nodup_eraseDups xs)]
      intro q
      rw [h, List.mem_eraseDups]
    rw [hperm.length_eq]

end ManifestCache

/-! ## One read -/

theorem World.text_of_manifest_eq_parsed {w : World} {p : Path} {v : Json} (h : w.manifest p = .parsed v) :
    w.isFile p = true ∧ ∃ text, w.readLossy p = .ok text ∧ Json.parse text = .ok v ∧ v.isObject = true := by
  have hf := World.isFile_of_manifest_eq_parsed h
  refine ⟨hf, ?_⟩
  rw [World.manifest_eq, hf] at h
  simp only [Bool.not_true, Bool.false_eq_true, if_false] at h
  cases hr : w.readLossy p with
  | error e => simp [hr] at h
  | ok text =>
    cases hj : Json.parse text with
    | error e => simp [hr, hj] at h
    | ok u =>
      by_cases hu : u.isObject
      · simp only [hr, hj, hu, if_true, Manifest.parsed.injEq] at h
        subst h
        exact ⟨text, rfl, hj, hu⟩
      · simp [hr, hj, hu] at h

namespace Locator

/-- Whether reading `m` finds a manifest that parsed: the store serves it, or
the file parses as an object. -/
def readsParsed (l : Locator) (m : Path) : Bool :=
  (l.cache.get? l.world m).isSome || (l.world.manifest m).value?.isSome

/-- Whether reading `m` goes past the store and finds that the file parses as
an object. -/
def missesParsed (l : Locator) (m : Path) : Bool :=
  (l.cache.get? l.world m).isNone && (l.world.manifest m).value?.isSome

theorem readsParsed_of_missesParsed {l : Locator} {m : Path} (h : l.missesParsed m = true) :
    l.readsParsed m = true := by
  simp only [missesParsed, Bool.and_eq_true] at h
  simp [readsParsed, h.2]

theorem readManifest_snd (l : Locator) (m : Path) :
    (l.readManifest m).2 = { l with cache := l.cache.afterRead l.world m } := by
  rw [readManifest_eq]
  unfold ManifestCache.afterRead
  cases l.cache.get? l.world m with
  | some v => rfl
  | none => cases l.world.manifest m <;> rfl

theorem readManifest_fst_value? (l : Locator) (m : Path) :
    (l.readManifest m).1.value?.isSome = l.readsParsed m := by
  rw [readManifest_eq]
  unfold readsParsed
  cases l.cache.get? l.world m with
  | some v => rfl
  | none => cases l.world.manifest m <;> rfl

theorem readManifest_snd_of_readsParsed {l : Locator} {m : Path} (h : l.readsParsed m = false) :
    (l.readManifest m).2 = l := by
  rw [readManifest_snd]
  unfold ManifestCache.afterRead
  unfold readsParsed at h
  cases hg : l.cache.get? l.world m with
  | some v => simp [hg] at h
  | none =>
    cases hm : l.world.manifest m with
    | parsed v => simp [hg, hm, Manifest.value?] at h
    | invalid | missing => rfl

/-! ## One search -/

theorem tryManifests_snd (ms : List Path) :
    ∀ (l : Locator) (tried : List Path) (saw : Bool),
      (l.tryManifests tried saw ms).2 = ((ms.find? l.readsParsed).map fun m => (l.readManifest m).2).getD l := by
  induction ms with
  | nil => intro l tried saw; rfl
  | cons m ms ih =>
    intro l tried saw
    have hvalue := readManifest_fst_value? l m
    rw [List.find?_cons]
    rcases hrm : l.readManifest m with ⟨x, l'⟩
    rw [hrm] at hvalue
    cases hP : l.readsParsed m with
    | true =>
      cases x with
      | parsed v => simp [tryManifests, hrm]
      | invalid | missing => simp [Manifest.value?, hP] at hvalue
    | false =>
      have hsame : l' = l := by
        have := readManifest_snd_of_readsParsed hP
        rw [hrm] at this
        exact this
      subst hsame
      cases x with
      | parsed v => simp [Manifest.value?, hP] at hvalue
      | invalid => simp only [tryManifests, hrm]; exact ih l' _ _
      | missing => simp only [tryManifests, hrm]; exact ih l' _ _

theorem find?_pathManifests (P : Path → Bool) (paths : SearchPaths) :
    ∀ (cs tried : List Path), (∀ m ∈ tried, P m = false) →
      (pathManifests paths.root tried cs).find? P = (paths.candidateManifests cs).find? P := by
  intro cs
  induction cs with
  | nil => intro tried _; rfl
  | cons c cs ih =>
    intro tried htried
    simp only [pathManifests, SearchPaths.candidateManifests_cons]
    by_cases hroot : (paths.root.join c).normalize = paths.root
    · simp only [hroot, beq_self_eq_true, Bool.true_or, if_true]
      exact ih tried htried
    · have hroot' : ((paths.root.join c).normalize.text == paths.root.text) = false := by
        simpa [← Path.eq_iff_text_eq] using hroot
      simp only [hroot', Bool.false_or, hroot, if_false, contains_map_text]
      generalize (paths.root.join c).normalize.join ⟨manifestName⟩ = m
      by_cases ht : m ∈ tried
      · -- a recorded manifest is skipped, and it fails the test anyway
        rw [if_pos (by simpa using ht), List.find?_cons, htried m ht]
        exact ih tried htried
      · rw [if_neg (by simpa using ht), List.find?_cons, List.find?_cons]
        cases hP : P m with
        | true => rfl
        | false =>
          apply ih
          intro x hx
          rcases mem_of_mem_addTried hx with hx | rfl
          · exact htried x hx
          · exact hP

/-- The manifest a search for `id` stops at: the first manifest it visits that
reads as parsed. -/
def stop? (l : Locator) (id : String) : Option Path :=
  (l.paths.visits id).bind fun V => V.find? l.readsParsed

theorem readsParsed_of_stop? {l : Locator} {id : String} {m : Path} (h : l.stop? id = some m) :
    l.readsParsed m = true := by
  obtain ⟨V, -, hfind⟩ := Option.bind_eq_some_iff.mp h
  exact List.find?_some hfind

theorem locate_snd (l : Locator) (id : String) :
    (l.locate id).2 = ((l.stop? id).map fun m => (l.readManifest m).2).getD l := by
  unfold locate stop? SearchPaths.visits
  cases IdentifierKind.of? id with
  | none => rfl
  | some k =>
    cases k with
    | path =>
      show (l.tryManifests [] false (pathManifests l.paths.root [] (pathCandidates id))).2 = _
      rw [tryManifests_snd, find?_pathManifests _ _ _ [] (by simp)]
      simp only [Option.bind_some, SearchPaths.pathVisits, find?_eraseDups]
    | bare =>
      unfold locateBare
      cases packageCandidates id with
      | none => rfl
      | some names => exact tryManifests_snd _ l [] false

theorem locate_snd_eq (l : Locator) (id : String) :
    (l.locate id).2 = { l with cache := ((l.stop? id).map (l.cache.afterRead l.world)).getD l.cache } := by
  rw [locate_snd]
  cases l.stop? id with
  | none => rfl
  | some m => exact readManifest_snd l m

/-- The manifests a search for `id` reads: those it visits, up to and
including its stop. -/
def reads (l : Locator) (id : String) : List Path :=
  ((l.paths.visits id).map fun V => V.take (V.findIdx l.readsParsed + 1)).getD []

/-- The reads of a search for `id` that went past the store and found a
manifest that parsed. -/
def missedParses (l : Locator) (id : String) : List Path :=
  (l.reads id).filter l.missesParsed

theorem missedParses_eq (l : Locator) (id : String) :
    l.missedParses id = ((l.stop? id).filter l.missesParsed).toList := by
  unfold missedParses reads stop?
  cases l.paths.visits id with
  | none => rfl
  | some V =>
    exact filter_take_findIdx l.readsParsed l.missesParsed
      (fun _ h => readsParsed_of_missesParsed h) V

theorem length_missedParses_le (l : Locator) (id : String) : (l.missedParses id).length ≤ 1 := by
  rw [missedParses_eq]
  cases (l.stop? id).filter l.missesParsed <;> simp

theorem mem_keys_locate {l : Locator} (hc : l.cache ≠ .disabled) (id : String) (q : Path) :
    q ∈ (l.locate id).2.cache.keys ↔ q ∈ l.cache.keys ∨ q ∈ l.missedParses id := by
  rw [locate_snd_eq, missedParses_eq]
  cases l.stop? id with
  | none => simp
  | some m =>
    simp only [Option.map_some, Option.getD_some, ManifestCache.mem_keys_afterRead hc, Option.filter_some]
    unfold missesParsed
    cases hmiss : (l.cache.get? l.world m).isNone && (l.world.manifest m).value?.isSome with
    | true =>
      simp only [Bool.and_eq_true] at hmiss
      simp [hmiss]
    | false =>
      simp only [Bool.and_eq_false_iff] at hmiss
      rcases hmiss with h | h <;> simp [h]

theorem mem_keys_locate_stop {l : Locator} (hc : l.cache ≠ .disabled) (id : String) (q : Path) :
    q ∈ (l.locate id).2.cache.keys ↔ q ∈ l.cache.keys ∨ l.stop? id = some q := by
  rw [locate_snd_eq]
  cases hstop : l.stop? id with
  | none => simp
  | some m =>
    simp only [Option.map_some, Option.getD_some, Option.some.injEq]
    constructor
    · intro hq
      rcases (ManifestCache.mem_keys_afterRead hc _ _ _).mp hq with h | ⟨rfl, -, -⟩
      · exact Or.inl h
      · exact Or.inr rfl
    · rintro (h | rfl)
      · exact (ManifestCache.mem_keys_afterRead hc _ _ _).mpr (Or.inl h)
      · exact ManifestCache.mem_keys_afterRead_self hc (readsParsed_of_stop? hstop)

theorem locate_cache_ne_disabled {l : Locator} (hc : l.cache ≠ .disabled) (id : String) :
    (l.locate id).2.cache ≠ .disabled := by
  rw [locate_snd_eq]
  cases l.stop? id with
  | none => exact hc
  | some m => exact ManifestCache.afterRead_ne_disabled hc _ _

theorem nodup_keys_locate {l : Locator} (h : l.cache.keys.Nodup) (id : String) :
    (l.locate id).2.cache.keys.Nodup := by
  rw [locate_snd_eq]
  cases l.stop? id with
  | none => exact h
  | some m => exact ManifestCache.nodup_keys_afterRead h _ _

theorem storedIn_locate {ws : List World} {l : Locator} (hc : l.cache.StoredIn ws) (hw : l.world ∈ ws)
    (id : String) : (l.locate id).2.cache.StoredIn ws := by
  rw [locate_snd_eq]
  cases l.stop? id with
  | none => exact hc
  | some m => exact hc.afterRead hw m

@[simp] theorem locate_snd_world (l : Locator) (id : String) : (l.locate id).2.world = l.world := by
  rw [locate_snd_eq]

@[simp] theorem locate_snd_paths (l : Locator) (id : String) : (l.locate id).2.paths = l.paths := by
  rw [locate_snd_eq]

theorem stop?_of_storedIn {l : Locator} (hc : l.cache.StoredIn [l.world]) (id : String) :
    l.stop? id = (Locator.mk l.world l.paths .disabled).stop? id := by
  have hsame : l.readsParsed = (Locator.mk l.world l.paths .disabled).readsParsed := by
    funext m
    unfold readsParsed
    cases hg : l.cache.get? l.world m with
    | none => rfl
    | some v =>
      have hman := hc.manifest_of_get? (World.stampsDetermineBytes_singleton l.world)
        (List.mem_singleton_self _) hg
      simp [hman, Manifest.value?]
  unfold stop?
  rw [hsame]

/-! ## Searches one after another -/

/-- The locator after searching for identifiers one after another. -/
def searchAll (l : Locator) : List String → Locator
  | [] => l
  | id :: ids => (l.locate id).2.searchAll ids

/-- The reads that went past the store and found a manifest that parsed, over
searches for identifiers one after another. -/
def missedParsesAll (l : Locator) : List String → List Path
  | [] => []
  | id :: ids => l.missedParses id ++ (l.locate id).2.missedParsesAll ids

theorem resolve_snd (l : Locator) (id : String) : (l.resolve id).2 = (l.locate id).2 := by
  unfold resolve
  dsimp only
  split <;> (try split) <;> rfl

theorem resolveAll_snd : ∀ (ids : List String) (l : Locator), (l.resolveAll ids).2 = l.searchAll ids
  | [] => fun _ => rfl
  | id :: ids => fun l => by
    simp only [resolveAll, searchAll, ← resolve_snd]
    exact resolveAll_snd ids _

theorem collect_snd (l : Locator) (ids : List String) :
    (l.collect ids).2 = l.searchAll (distinctIds [] ids) := by
  unfold collect
  exact resolveAll_snd _ l

@[simp] theorem searchAll_world : ∀ (ids : List String) (l : Locator), (l.searchAll ids).world = l.world
  | [] => fun _ => rfl
  | id :: ids => fun l => by simp [searchAll, searchAll_world ids]

theorem mem_keys_searchAll (q : Path) :
    ∀ (ids : List String) (l : Locator), l.cache ≠ .disabled →
      (q ∈ (l.searchAll ids).cache.keys ↔ q ∈ l.cache.keys ∨ q ∈ l.missedParsesAll ids)
  | [] => fun l _ => by simp [searchAll, missedParsesAll]
  | id :: ids => fun l hc => by
    simp only [searchAll, missedParsesAll, List.mem_append]
    rw [mem_keys_searchAll q ids _ (locate_cache_ne_disabled hc id), mem_keys_locate hc, or_assoc]

theorem mem_keys_searchAll_stop (q : Path) :
    ∀ (ids : List String) (l : Locator), l.cache ≠ .disabled → l.cache.StoredIn [l.world] →
      (q ∈ (l.searchAll ids).cache.keys ↔
        q ∈ l.cache.keys ∨ q ∈ ids.filterMap (Locator.mk l.world l.paths .disabled).stop?)
  | [] => fun l _ _ => by simp [searchAll]
  | id :: ids => fun l hc hs => by
    have hs' : (l.locate id).2.cache.StoredIn [(l.locate id).2.world] := by
      rw [locate_snd_world]
      exact storedIn_locate hs (List.mem_singleton_self _) id
    simp only [searchAll]
    rw [mem_keys_searchAll_stop q ids _ (locate_cache_ne_disabled hc id) hs', mem_keys_locate_stop hc,
      locate_snd_world, locate_snd_paths, stop?_of_storedIn hs, List.filterMap_cons]
    cases (Locator.mk l.world l.paths .disabled).stop? id with
    | none => simp
    | some m => simp [or_assoc, eq_comm]

theorem searchAll_cache_ne_disabled :
    ∀ (ids : List String) (l : Locator), l.cache ≠ .disabled → (l.searchAll ids).cache ≠ .disabled
  | [] => fun _ hc => hc
  | id :: ids => fun _ hc => searchAll_cache_ne_disabled ids _ (locate_cache_ne_disabled hc id)

theorem nodup_keys_searchAll :
    ∀ (ids : List String) (l : Locator), l.cache.keys.Nodup → (l.searchAll ids).cache.keys.Nodup
  | [] => fun _ h => h
  | id :: ids => fun _ h => nodup_keys_searchAll ids _ (nodup_keys_locate h id)

theorem storedIn_searchAll {ws : List World} :
    ∀ (ids : List String) (l : Locator), l.cache.StoredIn ws → l.world ∈ ws →
      (l.searchAll ids).cache.StoredIn ws
  | [] => fun _ hc _ => hc
  | id :: ids => fun l hc hw =>
    storedIn_searchAll ids _ (storedIn_locate hc hw id) (by rw [locate_snd_world]; exact hw)

theorem length_missedParsesAll_le :
    ∀ (ids : List String) (l : Locator), (l.missedParsesAll ids).length ≤ ids.length
  | [] => fun _ => Nat.le_refl 0
  | id :: ids => fun l => by
    simp only [missedParsesAll, List.length_append, List.length_cons]
    have h₁ := length_missedParses_le l id
    have h₂ := length_missedParsesAll_le ids (l.locate id).2
    omega

end Locator

/-! ## Sessions -/

/-- The identifiers a step of a session searches for, in order: none for a
change of world, one for a search, and the distinct ones of a collection. -/
def SessionStep.searches : SessionStep → List String
  | .change _ => []
  | .locate id => [id]
  | .collect ids => distinctIds [] ids

namespace Locator

/-- The locator after the steps of a session. -/
def afterSession (l : Locator) : List SessionStep → Locator
  | [] => l
  | s :: ss => (l.sessionStep s).2.afterSession ss

/-- The reads of a session that went past the store and found a manifest that
parsed, step after step. -/
def sessionMissedParses (l : Locator) : List SessionStep → List Path
  | [] => []
  | s :: ss => l.missedParsesAll s.searches ++ (l.sessionStep s).2.sessionMissedParses ss

theorem sessionStep_snd_cache (l : Locator) (s : SessionStep) :
    (l.sessionStep s).2.cache = (l.searchAll s.searches).cache := by
  cases s with
  | change w => rfl
  | locate id => rfl
  | collect ids => exact congrArg Locator.cache (collect_snd l ids)

theorem sessionStep_snd_world (l : Locator) (s : SessionStep) :
    (l.sessionStep s).2.world = s.world?.getD l.world := by
  cases s with
  | change w => rfl
  | locate id => exact locate_snd_world l id
  | collect ids => exact (congrArg Locator.world (collect_snd l ids)).trans (searchAll_world _ l)

theorem sessionStep_cache_ne_disabled {l : Locator} (hc : l.cache ≠ .disabled) (s : SessionStep) :
    (l.sessionStep s).2.cache ≠ .disabled := by
  rw [sessionStep_snd_cache]
  exact searchAll_cache_ne_disabled _ l hc

theorem mem_keys_afterSession (q : Path) :
    ∀ (steps : List SessionStep) (l : Locator), l.cache ≠ .disabled →
      (q ∈ (l.afterSession steps).cache.keys ↔ q ∈ l.cache.keys ∨ q ∈ l.sessionMissedParses steps)
  | [] => fun l _ => by simp [afterSession, sessionMissedParses]
  | s :: ss => fun l hc => by
    simp only [afterSession, sessionMissedParses, List.mem_append]
    rw [mem_keys_afterSession q ss _ (sessionStep_cache_ne_disabled hc s), sessionStep_snd_cache,
      mem_keys_searchAll q _ l hc, or_assoc]

theorem afterSession_cache_ne_disabled :
    ∀ (steps : List SessionStep) (l : Locator), l.cache ≠ .disabled →
      (l.afterSession steps).cache ≠ .disabled
  | [] => fun _ hc => hc
  | s :: ss => fun _ hc => afterSession_cache_ne_disabled ss _ (sessionStep_cache_ne_disabled hc s)

theorem nodup_keys_afterSession :
    ∀ (steps : List SessionStep) (l : Locator), l.cache.keys.Nodup →
      (l.afterSession steps).cache.keys.Nodup
  | [] => fun _ h => h
  | s :: ss => fun l h => by
    apply nodup_keys_afterSession ss
    rw [sessionStep_snd_cache]
    exact nodup_keys_searchAll _ l h

theorem storedIn_afterSession {ws : List World} :
    ∀ (steps : List SessionStep) (l : Locator), l.cache.StoredIn ws → l.world ∈ ws →
      (∀ w ∈ steps.filterMap SessionStep.world?, w ∈ ws) → (l.afterSession steps).cache.StoredIn ws
  | [] => fun _ hc _ _ => hc
  | s :: ss => fun l hc hw hsteps => by
    have hstep : (l.sessionStep s).2.world ∈ ws := by
      rw [sessionStep_snd_world]
      cases hs : s.world? with
      | none => exact hw
      | some w => exact hsteps w (by simp [hs])
    have hss : ∀ w ∈ ss.filterMap SessionStep.world?, w ∈ ws := by
      intro w hmem
      apply hsteps w
      rw [List.filterMap_cons]
      cases s.world? with
      | none => exact hmem
      | some w' => exact List.mem_cons_of_mem _ hmem
    apply storedIn_afterSession ss _ _ hstep hss
    rw [sessionStep_snd_cache]
    exact storedIn_searchAll _ l hc hw

theorem length_sessionMissedParses_le :
    ∀ (steps : List SessionStep) (l : Locator),
      (l.sessionMissedParses steps).length ≤ (steps.flatMap SessionStep.searches).length
  | [] => fun _ => Nat.le_refl 0
  | s :: ss => fun l => by
    simp only [sessionMissedParses, List.flatMap_cons, List.length_append]
    have h₁ := length_missedParsesAll_le s.searches l
    have h₂ := length_sessionMissedParses_le ss (l.sessionStep s).2
    omega


/-! ## From an empty store -/

theorem mem_keys_afterSession_fresh (w : World) (paths : SearchPaths) (steps : List SessionStep)
    (m : Path) : m ∈ ((Locator.mk w paths .fresh).afterSession steps).cache.keys ↔
      m ∈ (Locator.mk w paths .fresh).sessionMissedParses steps := by
  rw [mem_keys_afterSession m steps _ ManifestCache.fresh_ne_disabled]
  simp

theorem entries_afterSession_fresh (w : World) (paths : SearchPaths) (steps : List SessionStep) :
    ∃ entries, ((Locator.mk w paths .fresh).afterSession steps).cache = .memory entries ∧
      ∀ e ∈ entries, ∃ w' ∈ w :: steps.filterMap SessionStep.world?, w'.isFile ⟨e.path⟩ = true ∧
        ∃ text, w'.readLossy ⟨e.path⟩ = .ok text ∧ Json.parse text = .ok e.value ∧ e.value.isObject = true := by
  have hstored := storedIn_afterSession steps (Locator.mk w paths .fresh)
    (ManifestCache.storedIn_fresh _) (List.mem_cons_self ..) (fun _ h => List.mem_cons_of_mem _ h)
  cases hc : ((Locator.mk w paths .fresh).afterSession steps).cache with
  | disabled => exact absurd hc (afterSession_cache_ne_disabled steps _ ManifestCache.fresh_ne_disabled)
  | memory entries =>
    rw [hc] at hstored
    refine ⟨entries, rfl, fun e he => ?_⟩
    obtain ⟨w', hw', -, hman⟩ := hstored e he
    exact ⟨w', hw', World.text_of_manifest_eq_parsed hman⟩

theorem size?_afterSession_fresh (w : World) (paths : SearchPaths) (steps : List SessionStep) :
    ((Locator.mk w paths .fresh).afterSession steps).cache.size? =
      some ((Locator.mk w paths .fresh).sessionMissedParses steps).eraseDups.length :=
  ManifestCache.size?_eq_of_mem_keys_iff (afterSession_cache_ne_disabled steps _ ManifestCache.fresh_ne_disabled)
    (nodup_keys_afterSession steps _ List.nodup_nil) (mem_keys_afterSession_fresh w paths steps)

theorem size?_collect_fresh (w : World) (paths : SearchPaths) (ids : List String) :
    ((Locator.mk w paths .fresh).collect ids).2.cache.size? =
      some (ids.filterMap (Locator.mk w paths .disabled).stop?).eraseDups.length := by
  rw [collect_snd]
  apply ManifestCache.size?_eq_of_mem_keys_iff
    (searchAll_cache_ne_disabled _ (Locator.mk w paths .fresh) ManifestCache.fresh_ne_disabled)
    (nodup_keys_searchAll _ (Locator.mk w paths .fresh) List.nodup_nil)
  intro q
  rw [mem_keys_searchAll_stop q _ _ ManifestCache.fresh_ne_disabled (ManifestCache.storedIn_fresh _),
    distinctIds_eq_eraseDups]
  simp [List.mem_filterMap, List.mem_eraseDups]

/-- Over a session that starts from an empty store, the store's keys are
exactly the manifests that some read went past the store for and found
parsed. A search keeps every key and adds at most the manifest it stops at,
the only read of it that can find a manifest past the store. Every remembered
manifest is the object the text of its file parsed to in a world of the
session. The store counts the distinct manifests found past it, at most one
per search; after one collection it counts the distinct manifests at which
the searches for the identifiers stop with nothing remembered. -/
theorem session_keys_are_missed_parses (w : World) (paths : SearchPaths) (steps : List SessionStep) :
    (∀ m, m ∈ ((Locator.mk w paths .fresh).afterSession steps).cache.keys ↔
      m ∈ (Locator.mk w paths .fresh).sessionMissedParses steps) ∧
    (∀ (l : Locator) (id : String), l.missedParses id = ((l.stop? id).filter l.missesParsed).toList ∧
      (l.cache ≠ .disabled → ∀ m, m ∈ (l.locate id).2.cache.keys ↔ m ∈ l.cache.keys ∨ l.stop? id = some m)) ∧
    (∃ entries, ((Locator.mk w paths .fresh).afterSession steps).cache = .memory entries ∧
      ∀ e ∈ entries, ∃ w' ∈ w :: steps.filterMap SessionStep.world?, w'.isFile ⟨e.path⟩ = true ∧
        ∃ text, w'.readLossy ⟨e.path⟩ = .ok text ∧ Json.parse text = .ok e.value ∧ e.value.isObject = true) ∧
    (((Locator.mk w paths .fresh).afterSession steps).cache.size? =
        some ((Locator.mk w paths .fresh).sessionMissedParses steps).eraseDups.length ∧
      ((Locator.mk w paths .fresh).sessionMissedParses steps).eraseDups.length ≤
        (steps.flatMap SessionStep.searches).length) ∧
    ∀ ids, ((Locator.mk w paths .fresh).collect ids).2.cache.size? =
      some (ids.filterMap (Locator.mk w paths .disabled).stop?).eraseDups.length := by
  refine ⟨mem_keys_afterSession_fresh w paths steps,
    fun l id => ⟨missedParses_eq l id, fun hc => mem_keys_locate_stop hc id⟩,
    entries_afterSession_fresh w paths steps, ⟨size?_afterSession_fresh w paths steps, ?_⟩,
    size?_collect_fresh w paths⟩
  calc ((Locator.mk w paths .fresh).sessionMissedParses steps).eraseDups.length
      ≤ ((Locator.mk w paths .fresh).sessionMissedParses steps).length := (eraseDups_sublist _).length_le
    _ ≤ (steps.flatMap SessionStep.searches).length := length_sessionMissedParses_le steps _

/-- A search for the bare identifier dep stops at its manifest below the
search directory and remembers it; a search for dep/sub then stops at the
same manifest, served from the store, so the store still counts one. -/
theorem session_keys_memoized :
    let w : World := ⟨⟨[(["node_modules"], .dir), (["node_modules", "dep"], .dir),
      (["node_modules", "dep", "package.json"], .file (Text.bytesOf "\x7b\"name\": \"dep\"\x7d") 0)]⟩,
      [], 0, 0, 0, none⟩
    let paths : SearchPaths := ⟨⟨"/"⟩, [⟨"/node_modules"⟩]⟩
    let manifest : Path := ⟨"/node_modules/dep/package.json"⟩
    let steps := [SessionStep.locate "dep", .locate "dep/sub"]
    (Locator.mk w paths .fresh).stop? "dep" = some manifest ∧
      manifest ∈ ((Locator.mk w paths .fresh).locate "dep").2.cache.keys ∧
      ((Locator.mk w paths .fresh).afterSession steps).cache.size? = some 1 := by
  intro w paths manifest steps
  have hstop : (Locator.mk w paths .fresh).stop? "dep" = some manifest := by decide +kernel
  have hmissed : ((Locator.mk w paths .fresh).sessionMissedParses steps).eraseDups.length = 1 := by
    decide +kernel
  obtain ⟨-, hlocate, -, ⟨hsize, -⟩, -⟩ := session_keys_are_missed_parses w paths steps
  refine ⟨hstop, ((hlocate _ "dep").2 ManifestCache.fresh_ne_disabled manifest).mpr (Or.inr hstop), ?_⟩
  rw [hsize, hmissed]

end Locator

end TypeRefs
