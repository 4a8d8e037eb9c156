import TypeRefs.Text.Blank
import TypeRefs.Json.Value

/-!
# Reference entries

A reference names a package (a `types` directive) or a file (a `path`
directive). A value can be written when it has a non-blank character and no
double quote or line break; `dedupe` keeps the writable entries whose line
was not kept before.
-/

namespace TypeRefs

/-- A reference to a package by name or to a file by path. -/
inductive Reference where
  | package (name : String)
  | path (path : String)
deriving DecidableEq, Repr, Inhabited

namespace Reference

/-- The name or path a reference carries. -/
def value : Reference → String
  | package name => name
  | path p => p

/-- A value fits in a directive when it is not blank and holds no double
quote, line feed or carriage return. -/
def isWritableValue (v : String) : Bool :=
  !Text.isBlankText v && !v.toList.any (fun c => c == '"' || c == '\n' || c == '\r')

/-- Whether the reference can be written as a directive. -/
def isWritable (r : Reference) : Bool :=
  isWritableValue r.value

def render : Reference → String
  | package name => "/// <reference types=\"" ++ name ++ "\" />"
  | path p => "/// <reference path=\"" ++ p ++ "\" />"

/-- The JSON form: the kind and the name or path. -/
def toJson : Reference → Json
  | package name => .object [("kind", .string "package"), ("name", .string name)]
  | path p => .object [("kind", .string "path"), ("path", .string p)]

/-- Keeps the writable entries whose line is not among `seen` nor among the
lines kept before them. -/
def dedupeFrom (seen : List String) : List Reference → List Reference
  | [] => []
  | r :: rs =>
    if r.isWritable && !seen.contains r.render then r :: dedupeFrom (r.render :: seen) rs
    else dedupeFrom seen rs

/-- The writable entries, each directive line once, in first order. -/
def dedupe (rs : List Reference) : List Reference :=
  dedupeFrom [] rs

@[simp] theorem dedupeFrom_nil (seen : List String) : dedupeFrom seen [] = [] := rfl

theorem dedupeFrom_sublist (seen : List String) (rs : List Reference) :
    (dedupeFrom seen rs).Sublist rs := by
  induction rs generalizing seen with
  | nil => exact List.Sublist.slnil
  | cons r rs ih =>
    simp only [dedupeFrom]
    split
    · exact (ih _).cons_cons r
    · exact (ih _).cons r

theorem isWritable_of_mem_dedupeFrom {seen : List String} {rs : List Reference}
    {r : Reference} (h : r ∈ dedupeFrom seen rs) : r.isWritable = true := by
  induction rs generalizing seen with
  | nil => simp at h
  | cons x xs ih =>
    simp only [dedupeFrom] at h
    split at h
    · rename_i hx
      rcases List.mem_cons.mp h with rfl | h
      · simp at hx
        exact hx.1
      · exact ih h
    · exact ih h

theorem dedupe_sublist (rs : List Reference) : (dedupe rs).Sublist rs :=
  dedupeFrom_sublist [] rs

theorem isWritable_of_mem_dedupe {rs : List Reference} {r : Reference} (h : r ∈ dedupe rs) :
    r.isWritable = true :=
  isWritable_of_mem_dedupeFrom h

end Reference

end TypeRefs
