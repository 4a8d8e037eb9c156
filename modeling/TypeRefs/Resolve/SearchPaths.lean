import TypeRefs.Path.Basic
import TypeRefs.Prepare.Error

/-!
# Where installed packages are looked for

The `node_modules` of the root and of each directory above it, nearest first
(a `node_modules` directory gets none of its own), then the extra
directories; all normalised, each once at its first place. Nothing here
reads the filesystem.
-/

namespace TypeRefs

/-- The name of the directory packages are installed in. -/
def packagesDirName : String := "node_modules"

/-- The normalised absolute root and the directories to search, in order. -/
structure SearchPaths where
  root : Path
  dirs : List Path
deriving Repr, Inhabited

namespace SearchPaths

/-- The root made absolute from the working directory `cwd` and normalised;
an empty root is refused. -/
def absoluteRoot (cwd root : Path) : Except PrepareError Path :=
  if root.text.isEmpty then .error (.invalidRoot root "root directory is empty")
  else .ok (cwd.join root).normalize

/-- The `node_modules` directories of `dir` and the directories above it,
nearest first; `fuel` bounds the climb. -/
def ancestorDirs (dir : Path) : Nat → List Path
  | 0 => []
  | fuel + 1 =>
    let here := if dir.fileName? == some packagesDirName then [] else [dir.join ⟨packagesDirName⟩]
    match dir.parent? with
    | some up => here ++ ancestorDirs up fuel
    | none => here

/-- Keeps the first of equal paths. -/
def dedupeFrom (seen : List String) : List Path → List Path
  | [] => []
  | p :: ps => if seen.contains p.text then dedupeFrom seen ps else p :: dedupeFrom (p.text :: seen) ps

/-- The search paths of a root, with extra directories searched last. -/
def build (cwd root : Path) (extraDirs : List Path) : Except PrepareError SearchPaths := do
  let root ← absoluteRoot cwd root
  let ancestors := ancestorDirs root (root.components.length + 1)
  let extras := extraDirs.map fun d => (root.join d).normalize
  pure ⟨root, dedupeFrom [] (ancestors ++ extras)⟩

end SearchPaths

end TypeRefs
