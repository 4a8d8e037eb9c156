import TypeRefs.Fs.World
import TypeRefs.Project.Config

/-!
# Loading the configuration of a project

A configuration file named explicitly must exist; a relative name is taken
from the root. Otherwise the root is searched for the known names, in order,
and a project without one gets the default configuration. The file must be
UTF-8.
-/

namespace TypeRefs

namespace ProjectConfig

/-- The first known configuration file in the root that is a regular file. -/
def find? (w : World) (root : Path) : Option Path :=
  (fileNames.map fun n => root.join ⟨n⟩).find? w.isFile

def read (w : World) (path : Path) : Except PrepareError ProjectConfig :=
  match w.readText path with
  | .error e => .error (.configRead path e)
  | .ok source =>
    match parse source with
    | .error e => .error (.configParse path e)
    | .ok c => .ok c

/-- The configuration of a project, with the file it came from. -/
def load (w : World) (root : Path) (explicit : Option Path) :
    Except PrepareError (Option Path × ProjectConfig) :=
  match explicit with
  | some p =>
    let path := if p.isAbsolute then p else root.join p
    (read w path).map fun c => (some path, c)
  | none =>
    match find? w root with
    | none => .ok (none, {})
    | some path => (read w path).map fun c => (some path, c)

end ProjectConfig

end TypeRefs
