import TypeRefs.Fs.Error
import TypeRefs.Fs.Tree
import TypeRefs.Path.Basic

/-!
# Finding what a path names

A path is read name by name from the root or the working directory; `.`
stays and `..` goes up. A link before the last name, or at it when followed,
is replaced by its target; after 40 links the lookup fails, as it does for a
name over 255 bytes, a path of 4096 bytes or a NUL byte. The lookup ends at an
entry, or at a missing last name in an existing directory.
-/

namespace TypeRefs

/-- The names of a path text, with a final `.` when it ends with a slash. -/
def pathPieces (s : String) : List String :=
  let ps := ((slashFields s.toList).map String.ofList).filter (· != "")
  if s.endsWith "/" && !ps.isEmpty then ps ++ ["."] else ps

/-- How many links one lookup may follow. -/
def maxLinks : Nat := 40

/-- The longest name, in bytes. -/
def maxNameBytes : Nat := 255

/-- The longest path, in bytes, is one less than this. -/
def pathLimit : Nat := 4096

inductive Target where
  | found (loc : Location) (node : Node)
  | absent (dir : Location) (name : String)
deriving DecidableEq, Repr, Inhabited

/-- Reads the names `ps` from the directory `cur`, having followed `links`
links so far; `followLast` says whether a link at the last name is followed. -/
def walk (t : Tree) (followLast : Bool) : Nat → Location → List String → Nat → Except IoError Target
  | 0, _, _, _ => .error IoError.loop
  | _ + 1, cur, [], _ => .ok (.found cur .dir)
  | fuel + 1, cur, p :: rest, links =>
    if p == "." then walk t followLast fuel cur rest links
    else if p == ".." then walk t followLast fuel cur.dropLast rest links
    else if p.utf8ByteSize > maxNameBytes then .error IoError.nameTooLong
    else
      let loc := cur ++ [p]
      match t.get? loc with
      | none => if rest.isEmpty then .ok (.absent cur p) else .error IoError.notFound
      | some (.link target) =>
        if rest.isEmpty && !followLast then .ok (.found loc (.link target))
        else if links ≥ maxLinks then .error IoError.loop
        else if target.isEmpty then .error IoError.notFound
        else
          walk t followLast fuel (if target.startsWith "/" then [] else cur)
            (pathPieces target ++ rest) (links + 1)
      | some .dir => walk t followLast fuel loc rest links
      | some n => if rest.isEmpty then .ok (.found loc n) else .error IoError.notDir

/-- Enough steps for any lookup of `s` that does not loop: every step reads
one name, and each of at most 40 links adds the names of its target. -/
def lookupFuel (t : Tree) (s : String) : Nat :=
  s.length + (maxLinks + 1) * (t.longestTarget + 2) + 2

/-- Checks a path text before it is looked up. -/
def checkPath (s : String) : Except IoError Unit :=
  if s.toList.contains '\x00' then .error .nulInPath
  else if s.isEmpty then .error IoError.notFound
  else if s.utf8ByteSize ≥ pathLimit then .error IoError.nameTooLong
  else .ok ()

/-- Looks a path text up from the working directory `cwd`. -/
def lookup (t : Tree) (cwd : Location) (s : String) (followLast : Bool) : Except IoError Target := do
  checkPath s
  walk t followLast (lookupFuel t s) (if s.startsWith "/" then [] else cwd) (pathPieces s) 0

/-- Looks up the directory that holds the last name of a path, and returns it
with that name; the name is none when the path has no last name to replace
(the root, `.` or `..`). -/
def lookupParent (t : Tree) (cwd : Location) (s : String) :
    Except IoError (Location × Option String) := do
  checkPath s
  let ps := pathPieces s
  let start := if s.startsWith "/" then [] else cwd
  let (dirPieces, last) := match ps.getLast? with
    | some l => (ps.dropLast, if l == "." || l == ".." then none else some l)
    | none => (ps, none)
  let dirPieces := if last.isNone then ps else dirPieces
  match ← walk t true (lookupFuel t s) start dirPieces 0 with
  | .found loc .dir =>
    match last with
    | some l => if l.utf8ByteSize > maxNameBytes then throw IoError.nameTooLong else pure (loc, last)
    | none => pure (loc, none)
  | .found _ _ => throw IoError.notDir
  | .absent _ _ => throw IoError.notFound

end TypeRefs
