import TypeRefs.Json.Read
import TypeRefs.Resolve.Cache
import TypeRefs.Resolve.Identifier
import TypeRefs.Resolve.SearchPaths
import TypeRefs.Text.Blank

/-!
# Finding the package of an identifier

A bare identifier `a/b/c` is looked for as `a/b/c`, then `a/b`, then `a`, each
in every search directory; a path identifier in its directory and each one
above it inside the identifier. The first manifest that parses as an object
ends the search; its `name` must be usable. The manifest paths looked at are
recorded, up to twenty.
-/

namespace TypeRefs

def manifestName : String := "package.json"

/-- How many looked-at manifest paths are recorded. -/
def maxTried : Nat := 20

/-- Why an identifier has no package. An identifier is invalid when it is
empty, or bare with an empty, `.` or `..` segment. -/
inductive LocateReason where
  | specifierInvalid
  | notFound
  | packageJsonInvalid
  | packageNameMissing
deriving DecidableEq, Repr, Inhabited

def LocateReason.code : LocateReason → String
  | .specifierInvalid => "SPECIFIER_INVALID"
  | .notFound => "NOT_FOUND"
  | .packageJsonInvalid => "PACKAGE_JSON_INVALID"
  | .packageNameMissing => "PACKAGE_NAME_MISSING"

/-- An installed package: its name, its directory and its manifest. -/
structure Package where
  name : String
  dir : Path
  manifest : Path
deriving Repr, Inhabited

/-- The outcome of a search: the package or why there is none, and the
manifest paths looked at. -/
structure Located where
  package : Option Package
  reason : Option LocateReason
  tried : List Path
deriving Repr, Inhabited

/-- What a manifest path held. -/
inductive Manifest where
  | missing
  | invalid
  | parsed (value : Json)
deriving Repr, Inhabited

/-- Records a looked-at manifest while fewer than twenty are recorded. -/
def addTried (tried : List Path) (p : Path) : List Path :=
  if tried.length < maxTried then tried ++ [p] else tried

theorem length_addTried_le {tried : List Path} (h : tried.length ≤ maxTried) (p : Path) :
    (addTried tried p).length ≤ maxTried := by
  unfold addTried
  split
  · rename_i hlt
    simp only [List.length_append, List.length_singleton]
    omega
  · exact h

theorem addTried_of_lt {tried : List Path} (h : tried.length < maxTried) (p : Path) :
    addTried tried p = tried ++ [p] := by
  simp [addTried, h]

/-- The name of a manifest, if it can be written into a directive. -/
def usableName (v : Json) : Option String :=
  match v.field? "name" with
  | some (.string s) =>
    let name := Text.trim s
    if name.isEmpty || name.toList.contains '"' || name.toList.contains '\n' ||
      name.toList.contains '\r' then none
    else some name
  | _ => none

/-- The package names to try for a bare identifier, most specific first; none
when a segment is empty, `.` or `..`. -/
def packageCandidates (id : String) : Option (List String) :=
  let trimmed := String.ofList (id.toList.reverse.dropWhile (· == '/')).reverse
  let segs := (slashFields trimmed.toList).map String.ofList
  if segs.any (fun s => s.isEmpty || s == "." || s == "..") then none
  else
    let minSegs := if trimmed.startsWith "@" then 2 else 1
    let shorter := ((List.range (segs.length - 1)).reverse.filter (fun i => i + 1 ≥ minSegs)).map
      fun i => "/".intercalate (segs.take (i + 1))
    some (trimmed :: shorter)

/-- The directories to try for a path identifier, nearest first: the
identifier and each directory above it inside the identifier, but not `.`
itself; an absolute identifier gives only itself. -/
def pathCandidates (id : String) : List Path :=
  if IdentifierKind.isAbsoluteText id then [⟨id⟩]
  else
    let cs := (Path.mk id).components
    ((List.range cs.length).reverse.map fun i => cs.take (i + 1)).filter (fun pre => pre != [Component.cur])
      |>.map Path.ofComponents

namespace Located

/-- The search found a manifest: a package when it has a usable name. -/
def ofManifest (v : Json) (manifest : Path) (tried : List Path) : Located :=
  match usableName v with
  | none => ⟨none, some .packageNameMissing, tried⟩
  | some name => ⟨some ⟨name, manifest.parent?.getD manifest, manifest⟩, none, tried⟩

def missing (sawInvalid : Bool) (tried : List Path) : Located :=
  ⟨none, some (if sawInvalid then .packageJsonInvalid else .notFound), tried⟩

end Located

/-- A search for packages over fixed search paths, in a world, with a store
of parsed manifests. -/
structure Locator where
  world : World
  paths : SearchPaths
  cache : ManifestCache
deriving Repr, Inhabited

namespace Locator

/-- Reads and parses a manifest, using and filling the store. -/
def readManifest (l : Locator) (p : Path) : Manifest × Locator :=
  match l.cache.get? l.world p with
  | some v => (.parsed v, l)
  | none =>
    if !l.world.isFile p then (.missing, l)
    else
      match l.world.readLossy p with
      | .error _ => (.invalid, l)
      | .ok text =>
        match Json.parse text with
        | .ok v =>
          if v.isObject then (.parsed v, { l with cache := l.cache.set l.world p v })
          else (.invalid, l)
        | .error _ => (.invalid, l)

/-- Tries manifest paths in order until one parses; `sawInvalid` tells
whether one failed to parse so far. -/
def tryManifests (l : Locator) (tried : List Path) (sawInvalid : Bool) :
    List Path → Located × Locator
  | [] => (Located.missing sawInvalid tried, l)
  | m :: ms =>
    let tried := addTried tried m
    match l.readManifest m with
    | (.parsed v, l) => (Located.ofManifest v m tried, l)
    | (.invalid, l) => tryManifests l tried true ms
    | (.missing, l) => tryManifests l tried sawInvalid ms

/-- The manifest paths of a path identifier: those of its candidate
directories, skipping the root and a manifest already recorded. -/
def pathManifests (root : Path) (tried : List Path) : List Path → List Path
  | [] => []
  | c :: cs =>
    let dir := (root.join c).normalize
    let m := dir.join ⟨manifestName⟩
    if dir.text == root.text || (tried.map Path.text).contains m.text then pathManifests root tried cs
    else m :: pathManifests root (addTried tried m) cs

/-- Finds the package of a path identifier. -/
def locatePath (l : Locator) (id : String) : Located × Locator :=
  l.tryManifests [] false (pathManifests l.paths.root [] (pathCandidates id))

/-- Finds the package of a bare identifier. -/
def locateBare (l : Locator) (id : String) : Located × Locator :=
  match packageCandidates id with
  | none => (⟨none, some .specifierInvalid, []⟩, l)
  | some names =>
    l.tryManifests [] false
      (names.flatMap fun name => l.paths.dirs.map fun d => (d.join ⟨name⟩).join ⟨manifestName⟩)

/-- Finds the package of an identifier. -/
def locate (l : Locator) (id : String) : Located × Locator :=
  match IdentifierKind.of? id with
  | none => (⟨none, some .specifierInvalid, []⟩, l)
  | some .path => l.locatePath id
  | some .bare => l.locateBare id

/-- The path a path identifier names, from the root, normalised. -/
def resolvePath (l : Locator) (id : String) : Path :=
  (l.paths.root.join ⟨id⟩).normalize

end Locator

end TypeRefs
