import TypeRefs.Declaration.Basic
import TypeRefs.Fs.Atomic
import TypeRefs.Prepare.Hook
import TypeRefs.Resolve.Collect

/-!
# Preparing a project

Build the search paths of the root, resolve the identifiers with a fresh
store of manifests, let the hook edit the references, keep the writable ones
with a line not yet kept, and write the declaration file whole at the
normalised path taken from the root.
-/

namespace TypeRefs

structure PrepareInput where
  root : Path
  identifiers : List String
  extraDirs : List Path := []
  declarationPath : Path := ⟨defaultDeclarationName⟩
  generator : String := defaultGenerator
deriving Repr, Inhabited

structure PrepareOutput where
  declarationPath : Path
  references : List Reference
  resolutions : List Resolution
  searchPaths : List Path
deriving Repr, Inhabited

namespace World

/-- Writes a declaration file whole, making the directories that hold it. -/
def emit (w : World) (d : Declaration) (p : Path) : World × Except IoError Unit :=
  match w.ensureParentDir p with
  | (w, .error e) => (w, .error e)
  | (w, .ok ()) => w.atomicWrite p (Text.bytesOf d.render)

end World

/-- Runs a preparation in a world. -/
def runPrepare (w : World) (input : PrepareInput) (hook : Hook) :
    World × Except PrepareError PrepareOutput :=
  match SearchPaths.build w.cwdPath input.root input.extraDirs with
  | .error e => (w, .error e)
  | .ok paths =>
    let declPath := (paths.root.join input.declarationPath).normalize
    let (collected, _) := (Locator.mk w paths .fresh).collect input.identifiers
    match hook collected.references with
    | .error e => (w, .error e)
    | .ok edited =>
      let refs := Reference.dedupe edited
      match w.emit ⟨input.generator, refs⟩ declPath with
      | (w, .error e) => (w, .error (.emit declPath e))
      | (w, .ok ()) => (w, .ok ⟨declPath, refs, collected.resolutions, paths.dirs⟩)

end TypeRefs
