import TypeRefs.Fs.Lookup
import TypeRefs.Path.Basic
import TypeRefs.Text.Utf8

/-!
# The world a program runs in

The filesystem, the working directory, a clock that stamps written files, the
process number, the count of scratch files named, and a size limit on files.
Each operation fails and leaves the world as it was, or succeeds; a write over
the limit is the exception, leaving what fitted.
-/

namespace TypeRefs

/-- The filesystem, the working directory, the clock, the process number, the
count of scratch files named so far, and the largest file the filesystem
holds, when it has a limit. -/
structure World where
  tree : Tree
  cwd : Location
  clock : Nat
  pid : Nat
  scratchCount : Nat
  fileLimit : Option Nat := none
deriving Repr, Inhabited

namespace World

def pathOf (loc : Location) : Path :=
  ⟨"/" ++ "/".intercalate loc⟩

def cwdPath (w : World) : Path :=
  pathOf w.cwd

/-- Looks a path up from the working directory. -/
def find (w : World) (p : Path) (followLast : Bool) : Except IoError Target :=
  lookup w.tree w.cwd p.text followLast

/-- The entry a path names, following links. -/
def stat (w : World) (p : Path) : Except IoError (Location × Node) :=
  match w.find p true with
  | .ok (.found loc n) => .ok (loc, n)
  | .ok (.absent _ _) => .error IoError.notFound
  | .error e => .error e

/-- Whether a path names a regular file, following links; errors count as no. -/
def isFile (w : World) (p : Path) : Bool :=
  match w.stat p with
  | .ok (_, .file _ _) => true
  | _ => false

/-- Whether a path names a directory, following links; errors count as no. -/
def isDir (w : World) (p : Path) : Bool :=
  match w.stat p with
  | .ok (_, .dir) => true
  | _ => false

/-- Whether a path names anything, following links. -/
def pathExists (w : World) (p : Path) : Bool :=
  match w.stat p with
  | .ok _ => true
  | .error _ => false

/-- The modification time and size of the file a path names. -/
def fileStamp? (w : World) (p : Path) : Option (Nat × Nat) :=
  match w.stat p with
  | .ok (_, .file bytes mtime) => some (mtime, bytes.length)
  | _ => none

/-- The bytes of the file a path names; a directory cannot be read. -/
def readBytes (w : World) (p : Path) : Except IoError (List UInt8) :=
  match w.stat p with
  | .ok (_, .file bytes _) => .ok bytes
  | .ok _ => .error IoError.isDir
  | .error e => .error e

/-- The text of a file, with every byte sequence that is not UTF-8 read as
the replacement character. -/
def readLossy (w : World) (p : Path) : Except IoError String :=
  (w.readBytes p).map Text.lossyText

/-- The text of a file, which must be UTF-8. -/
def readText (w : World) (p : Path) : Except IoError String := do
  let bytes ← w.readBytes p
  match Text.strictText? bytes with
  | some s => pure s
  | none => throw IoError.invalidUtf8

/-- Makes one directory; its parent must exist and the name must be free. -/
def mkdir (w : World) (p : Path) : Except IoError World :=
  match w.find p false with
  | .ok (.absent dir name) => .ok { w with tree := w.tree.set (dir ++ [name]) .dir }
  | .ok (.found _ _) => .error IoError.alreadyExists
  | .error e => .error e

/-- Makes a directory and the missing directories above it. A name that is
already taken is fine when it leads to a directory. The world is returned
also on failure: the directories made before the failing step stay. -/
def createDirAll (w : World) (p : Path) : Nat → World × Except IoError Unit
  | 0 => (w, .error IoError.notFound)
  | fuel + 1 =>
    if p.text.isEmpty then (w, .ok ())
    else
      match w.mkdir p with
      | .ok w' => (w', .ok ())
      | .error e =>
        if e != IoError.notFound then
          (w, if w.isDir p then .ok () else .error e)
        else
          match p.parent? with
          | none => (w, .error e)
          | some q =>
            match w.createDirAll q fuel with
            | (w', .error e') => (w', .error e')
            | (w', .ok ()) =>
              match w'.mkdir p with
              | .ok w'' => (w'', .ok ())
              | .error e'' => (w', if w'.isDir p then .ok () else .error e'')

/-- Makes a directory and the missing directories above it; the world is
returned also on failure. -/
def makeDirs (w : World) (p : Path) : World × Except IoError Unit :=
  w.createDirAll p (p.text.length + 2)

/-- Whether a file of these bytes stays within the filesystem's limit. -/
def fits (w : World) (bytes : List UInt8) : Bool :=
  match w.fileLimit with
  | some limit => bytes.length ≤ limit
  | none => true

/-- The bytes a write leaves in a file: all of them, or those within the limit. -/
def written (w : World) (bytes : List UInt8) : List UInt8 :=
  match w.fileLimit with
  | some limit => bytes.take limit
  | none => bytes

theorem written_of_fits {w : World} {bytes : List UInt8} (h : w.fits bytes = true) :
    w.written bytes = bytes := by
  unfold fits at h
  unfold written
  cases hlim : w.fileLimit with
  | none => rfl
  | some limit =>
    rw [hlim] at h
    exact List.take_of_length_le (of_decide_eq_true h)

/-- Creates or truncates the file a path names, following a link at the last
name, then writes the bytes into it with this modification time. Past the
filesystem's limit the write fails once the file was created, and the file
keeps the bytes that fit. -/
def writeFile (w : World) (p : Path) (bytes : List UInt8) (mtime : Nat) :
    World × Except IoError Unit :=
  let fill (loc : Location) : World × Except IoError Unit :=
    ({ w with tree := w.tree.set loc (.file (w.written bytes) mtime) },
      if w.fits bytes then .ok () else .error IoError.tooLarge)
  match w.find p true with
  | .ok (.absent dir name) => fill (dir ++ [name])
  | .ok (.found loc (.file _ _)) => fill loc
  | .ok (.found _ _) => (w, .error IoError.isDir)
  | .error e => (w, .error e)

/-- Removes a file or a link; a directory is refused. -/
def removeFile (w : World) (p : Path) : Except IoError World :=
  match w.find p false with
  | .ok (.found loc .dir) => if loc.isEmpty then .error IoError.busy else .error IoError.isDir
  | .ok (.found loc _) => .ok { w with tree := w.tree.erase loc }
  | .ok (.absent _ _) => .error IoError.notFound
  | .error e => .error e

/-- Removes a file or a link, or a directory with everything in it. -/
def removeAll (w : World) (p : Path) : Except IoError World :=
  match w.find p false with
  | .ok (.found loc .dir) =>
    if loc.isEmpty then .error IoError.busy else .ok { w with tree := w.tree.eraseTree loc }
  | .ok (.found loc _) => .ok { w with tree := w.tree.erase loc }
  | .ok (.absent _ _) => .error IoError.notFound
  | .error e => .error e

/-- Makes a link to `target` at a free name. Both texts are checked for NUL
first; then the target is read, which must be non-empty and shorter than the
path limit, and only then is the name looked up. -/
def symlink (w : World) (target : String) (p : Path) : Except IoError World :=
  if target.contains '\x00' || p.text.contains '\x00' then .error .nulInPath
  else if target.isEmpty then .error IoError.notFound
  else if target.utf8ByteSize ≥ pathLimit then .error IoError.nameTooLong
  else
    match w.find p false with
    | .ok (.absent dir name) => .ok { w with tree := w.tree.set (dir ++ [name]) (.link target) }
    | .ok (.found _ _) => .error IoError.alreadyExists
    | .error e => .error e

/-- Moves a file or link to another name, replacing a file or link there. A
directory cannot be replaced, and the root, `.` and `..` cannot be moved or
replaced. -/
def rename (w : World) (src dst : Path) : Except IoError World := do
  let (sdir, sname) ← lookupParent w.tree w.cwd src.text
  let (ddir, dname) ← lookupParent w.tree w.cwd dst.text
  match sname, dname with
  | some s, some d =>
    let sloc := sdir ++ [s]
    let dloc := ddir ++ [d]
    match w.tree.get? sloc with
    | none => throw IoError.notFound
    | some .dir => throw IoError.invalid
    | some n =>
      if sloc == dloc then pure w
      else
        match w.tree.get? dloc with
        | some .dir => throw IoError.isDir
        | _ => pure { w with tree := (w.tree.erase sloc).set dloc n }
  | _, _ => throw IoError.busy

/-- Advances the clock by one millisecond and returns the new time. -/
def tick (w : World) : World × Nat :=
  ({ w with clock := w.clock + 1 }, w.clock + 1)

/-- The entries below a directory location, as paths relative to it:
directories end with a slash and links with `@`, sorted by their bytes. -/
def listing (w : World) (loc : Location) : List String :=
  let names := (w.tree.below loc).map fun (rel, n) =>
    "/".intercalate rel ++ match n with
      | .dir => "/"
      | .link _ => "@"
      | .file _ _ => ""
  names.mergeSort (fun a b => decide (a ≤ b))

end World

end TypeRefs
