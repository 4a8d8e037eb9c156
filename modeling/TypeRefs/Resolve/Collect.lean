import TypeRefs.Reference.Entry
import TypeRefs.Resolve.Locate

/-!
# From identifiers to references

Each distinct identifier, in first order, is resolved once: to its package's
name, or else to itself as a path when it is writable and names something
from the root. The references are then deduplicated by line.
-/

namespace TypeRefs

inductive Outcome where
  | package
  | path
  | unresolved
deriving DecidableEq, Repr, Inhabited

def Outcome.name : Outcome → String
  | .package => "package"
  | .path => "path"
  | .unresolved => "unresolved"

structure Resolution where
  identifier : String
  outcome : Outcome
  reference : Option Reference
  reason : Option LocateReason
  packageDir : Option Path
  tried : List Path
deriving Repr, Inhabited

/-- The record of a resolution, its fields in the order of their names. -/
def Resolution.toJson (r : Resolution) : Json :=
  .object [("identifier", .string r.identifier), ("outcome", .string r.outcome.name),
    ("package_dir", Json.optString (r.packageDir.map Path.text)),
    ("reason", Json.optString (r.reason.map LocateReason.code)),
    ("reference", match r.reference with | some e => e.toJson | none => .null),
    ("tried", Json.strings (r.tried.map Path.text))]

/-- The deduplicated references and one resolution per distinct identifier. -/
structure Collected where
  references : List Reference
  resolutions : List Resolution
deriving Repr, Inhabited

/-- The identifiers without repeats, in the order first seen. -/
def distinctIds (seen : List String) : List String → List String
  | [] => []
  | id :: ids => if seen.contains id then distinctIds seen ids else id :: distinctIds (id :: seen) ids

namespace Locator

def resolve (l : Locator) (id : String) : Resolution × Locator :=
  let (found, l) := l.locate id
  match found.package with
  | some pkg => (⟨id, .package, some (.package pkg.name), none, some pkg.dir, found.tried⟩, l)
  | none =>
    let asPath := Reference.path id
    let present := (IdentifierKind.of? id).isSome && asPath.isWritable &&
      l.world.pathExists (l.resolvePath id)
    if present then (⟨id, .path, some asPath, found.reason, none, found.tried⟩, l)
    else (⟨id, .unresolved, none, found.reason, none, found.tried⟩, l)

def resolveAll (l : Locator) : List String → List Resolution × Locator
  | [] => ([], l)
  | id :: ids =>
    let (r, l) := l.resolve id
    let (rs, l) := l.resolveAll ids
    (r :: rs, l)

/-- Resolves the distinct identifiers and collects their references. -/
def collect (l : Locator) (ids : List String) : Collected × Locator :=
  let (rs, l) := l.resolveAll (distinctIds [] ids)
  (⟨Reference.dedupe (rs.filterMap Resolution.reference), rs⟩, l)

end Locator

end TypeRefs
