import TypeRefs.Path.Basic

/-!
# Relative paths

The path that leads from a base to a target, both normalised first: the
common leading components are dropped, each remaining base name becomes a
`..`, and the remaining target components follow. There is none when exactly
one of the two is absolute, or when a `..` of the base is left over, since
no name can be written for the directory above it.
-/

namespace TypeRefs

namespace Path

/-- Drops the longest common prefix of two component lists. -/
def dropCommon : List Component → List Component → List Component × List Component
  | a :: as, b :: bs => if a = b then dropCommon as bs else (a :: as, b :: bs)
  | as, bs => (as, bs)

/-- Whether a path starts at the root, read from its components. -/
def hasRoot (cs : List Component) : Bool :=
  cs.head? == some .root

/-- The path from `base` to `p`, if one can be written. -/
def relativeTo? (p base : Path) : Option Path :=
  let ps := p.normalize.components
  let bs := base.normalize.components
  if hasRoot ps != hasRoot bs then none
  else
    let (rest, up) := dropCommon ps bs
    if up.all Component.isNormal then
      let cs := up.map (fun _ => Component.up) ++ rest
      if cs.isEmpty then some ⟨"."⟩ else some (ofComponents cs)
    else none

end Path

end TypeRefs
