import TypeRefs.Fs.World
import TypeRefs.Json.Value

/-!
# Remembering parsed manifests

A manifest that parsed is remembered with the modification time and size
its file had when it was stored. It is served again while the file still
has that time and size, even if its bytes changed in between; otherwise it
is read again. The store can also be switched off, and then nothing is
remembered.
-/

namespace TypeRefs

structure CachedManifest where
  path : String
  value : Json
  stamp : Option (Nat × Nat)
deriving Repr, Inhabited

/-- A store of parsed manifests, or none. -/
inductive ManifestCache where
  | disabled
  | memory (entries : List CachedManifest)
deriving Repr, Inhabited

namespace ManifestCache

def fresh : ManifestCache := .memory []

/-- Whether a stored stamp still describes the file. -/
def stampMatches (w : World) (p : Path) : Option (Nat × Nat) → Bool
  | none => w.pathExists p
  | some s => w.fileStamp? p == some s

/-- The remembered manifest at a path, if its file is unchanged. -/
def get? (c : ManifestCache) (w : World) (p : Path) : Option Json :=
  match c with
  | .disabled => none
  | .memory entries =>
    match entries.find? (·.path == p.text) with
    | some e => if stampMatches w p e.stamp then some e.value else none
    | none => none

/-- Remembers a manifest with its file's present stamp. -/
def set (c : ManifestCache) (w : World) (p : Path) (v : Json) : ManifestCache :=
  match c with
  | .disabled => .disabled
  | .memory entries =>
    .memory (entries.filter (·.path != p.text) ++ [⟨p.text, v, w.fileStamp? p⟩])

/-- How many manifests are remembered, or none when the store is off. -/
def size? : ManifestCache → Option Nat
  | .disabled => none
  | .memory entries => some entries.length

@[simp] theorem get?_disabled (w : World) (p : Path) : ManifestCache.disabled.get? w p = none :=
  rfl

@[simp] theorem set_disabled (w : World) (p : Path) (v : Json) :
    ManifestCache.disabled.set w p v = .disabled :=
  rfl

@[simp] theorem size?_fresh : fresh.size? = some 0 := rfl

theorem get?_set_self {entries : List CachedManifest} {w : World} {p : Path} {v : Json}
    {s : Nat × Nat} (h : w.fileStamp? p = some s) :
    ((ManifestCache.memory entries).set w p v).get? w p = some v := by
  simp [set, get?, List.find?_append, Tree.find?_const_false, stampMatches, h]

theorem get?_set_of_ne {entries : List CachedManifest} {w : World} {p q : Path} {v : Json}
    (h : q.text ≠ p.text) :
    ((ManifestCache.memory entries).set w p v).get? w q =
      (ManifestCache.memory entries).get? w q := by
  simp only [set, get?]
  have hp : (fun a : CachedManifest => !decide (a.path = p.text) && decide (a.path = q.text)) =
      (fun a => a.path == q.text) := by
    funext a
    by_cases ha : a.path = q.text <;> simp [ha, h]
  simp [List.find?_append, List.find?_filter, hp, Ne.symm h]

end ManifestCache

end TypeRefs
