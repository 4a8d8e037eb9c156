import TypeRefs.Prepare.Error
import TypeRefs.Reference.Entry

/-!
# Hooks on the references

Before the declaration is written, a hook may edit the list of references:
add to it, reorder it, drop from it, or refuse, which stops the preparation
with the hook's error.
-/

namespace TypeRefs

/-- An edit of the references that may refuse. -/
abbrev Hook := List Reference → Except PrepareError (List Reference)

namespace Hook

/-- The hook that leaves the references as they are. -/
def noop : Hook := fun rs => .ok rs

/-- The hook that appends packages, then paths, to the references. -/
def extra (types paths : List String) : Hook :=
  fun rs => .ok (rs ++ types.map Reference.package ++ paths.map Reference.path)

end Hook

end TypeRefs
