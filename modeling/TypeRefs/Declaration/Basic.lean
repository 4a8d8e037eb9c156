import TypeRefs.Reference.Entry

/-!
# Declaration files

A declaration file is a header comment naming the command that generated it,
a blank line, one directive line per reference, and a final line break.
-/

namespace TypeRefs

/-- The command named in the header when none is given. -/
def defaultGenerator : String := "typeprep prepare"

/-- The file name of the declaration when the project names none. -/
def defaultDeclarationName : String := "nuxt.d.ts"

/-- The contents of a declaration file. -/
structure Declaration where
  generator : String
  references : List Reference
deriving DecidableEq, Repr, Inhabited

namespace Declaration

def header (d : Declaration) : String :=
  "// Declarations auto generated by `" ++ d.generator ++
    "`. Please do not manually modify this file."

/-- The lines of the file: the header, a blank line, the directives and an
empty last line, so that the text ends with a line break. -/
def lines (d : Declaration) : List String :=
  d.header :: "" :: d.references.map Reference.render ++ [""]

theorem length_lines (d : Declaration) : d.lines.length = d.references.length + 3 := by
  simp [lines]

def render (d : Declaration) : String :=
  "\n".intercalate d.lines

end Declaration

end TypeRefs
