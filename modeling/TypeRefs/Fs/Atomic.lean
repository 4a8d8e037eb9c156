import TypeRefs.Fs.World

/-!
# Writing a file whole

The bytes go to a scratch file beside the target, named after it, the process
and a counter, which is then renamed over it. When a step fails, also a write
that fails after the scratch file was created, the scratch file is removed;
the directories made for the file stay.
-/

namespace TypeRefs

namespace World

/-- Makes the directory that holds a path, with the ones above it; the
directories made stay also when a later one cannot be made. -/
def ensureParentDir (w : World) (p : Path) : World × Except IoError Unit :=
  match p.parent? with
  | some q => if q.text.isEmpty then (w, .ok ()) else w.makeDirs q
  | none => (w, .ok ())

/-- The name of the scratch file for `name` at the `seq`-th write of process `pid`. -/
def scratchName (name : String) (pid seq : Nat) : String :=
  "." ++ name ++ ".tmp." ++ toString pid ++ "." ++ toString seq

/-- The scratch file beside `p` for the `seq`-th write of process `pid`. -/
def scratchPath (p : Path) (pid seq : Nat) : Path :=
  let dir := p.parent?.getD ⟨"."⟩
  dir.join ⟨scratchName (p.fileName?.getD "file") pid seq⟩

/-- Removes a scratch file, ignoring a failure. -/
def discard (w : World) (p : Path) : World :=
  match w.removeFile p with
  | .ok w' => w'
  | .error _ => w

/-- Replaces the file at `p` with `bytes` through a scratch file. The world
is returned also on failure, since the counter of scratch names has moved. -/
def atomicWrite (w : World) (p : Path) (bytes : List UInt8) : World × Except IoError Unit :=
  let tmp := scratchPath p w.pid w.scratchCount
  let w := { w with scratchCount := w.scratchCount + 1 }
  let (w, now) := w.tick
  match w.writeFile tmp bytes now with
  | (w', .error e) => (w'.discard tmp, .error e)
  | (w', .ok ()) =>
    match w'.rename tmp p with
    | .ok w'' => (w'', .ok ())
    | .error e => (w'.discard tmp, .error e)

end World

end TypeRefs
