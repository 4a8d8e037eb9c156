import TypeRefs.Cli.Help
import TypeRefs.Path.Relative
import TypeRefs.Prepare.Run
import TypeRefs.Project.Load

/-!
# Running the command line

`prepare` takes its paths from the working directory, loads the project's
configuration from the root and adds the command line's modules and
directories after the configured ones. With `--json` the outcome is one JSON
object; otherwise success prints the declaration's path. Exit codes: 0, 1 for
a failed preparation, 2 for a wrong command line.
-/

namespace TypeRefs

namespace Cli

/-- What a run printed and how it exited. -/
structure Outcome where
  status : Nat
  stdout : String
deriving DecidableEq, Repr, Inhabited

/-- The JSON object printed for a successful preparation. -/
def successJson (out : PrepareOutput) : Json :=
  .object [("declaration", .string out.declarationPath.text),
    ("lines", Json.strings (out.references.map Reference.render)),
    ("ok", .bool true),
    ("references", .array (out.references.map Reference.toJson)),
    ("resolutions", .array (out.resolutions.map Resolution.toJson)),
    ("search_paths", Json.strings (out.searchPaths.map Path.text))]

/-- The JSON object printed for a failed preparation. -/
def failureJson (e : PrepareError) : Json :=
  .object [("error", .object [("code", .string e.code), ("message", .string e.message)]),
    ("ok", .bool false)]

/-- A path as shown to the user: relative to `base` when both are rooted
alike, else as it is. -/
def shownPath (p base : Path) : String :=
  ((Path.relativeTo? p base).getD p).text

/-- Runs `prepare` with the working directory `cwd`. -/
def runPrepareCommand (w : World) (cwd : Path) (a : PrepareArgs) :
    World × Except PrepareError PrepareOutput :=
  let resolve (p : Path) : Path := if p.isAbsolute then p else cwd.join p
  let root := (resolve ⟨a.root⟩).normalize
  if !w.isDir root then (w, .error (.invalidRoot root "not a directory"))
  else
    match ProjectConfig.load w root (a.config.map Path.mk) with
    | .error e => (w, .error e)
    | .ok (_, project) =>
      let input : PrepareInput :=
        { root,
          identifiers := project.identifiers ++ a.modules,
          extraDirs := project.modulesDir ++ a.modulesDir.map fun d => resolve ⟨d⟩,
          declarationPath := match a.output with
            | some o => resolve ⟨o⟩
            | none => project.declarationPath root,
          generator := a.generator.getD defaultGenerator }
      runPrepare w input project.hook

def prepareCommand (w : World) (g : Globals) (a : PrepareArgs) : World × Outcome :=
  let cwd : Path := match g.cwd with
    | some c => ⟨c⟩
    | none => w.cwdPath
  match runPrepareCommand w cwd a with
  | (w, .ok out) =>
    if g.json then (w, ⟨0, (successJson out).write ++ "\n"⟩)
    else (w, ⟨0, "Generated " ++ shownPath out.declarationPath cwd ++ "\n"⟩)
  | (w, .error e) =>
    if g.json then (w, ⟨1, (failureJson e).write ++ "\n"⟩) else (w, ⟨1, ""⟩)

/-- Runs a command line (without the program name) in a world. -/
def run (w : World) (args : List String) : World × Outcome :=
  match parse args with
  | .usage _ => (w, ⟨2, ""⟩)
  | .help topic => (w, ⟨0, helpText topic⟩)
  | .version => (w, ⟨0, versionText ++ "\n"⟩)
  | .run _ none => (w, ⟨0, versionText ++ "\n"⟩)
  | .run _ (some .version) => (w, ⟨0, versionText ++ "\n"⟩)
  | .run g (some (.prepare a)) => prepareCommand w g a

end Cli

end TypeRefs
