/-!
# Identifiers

A module identifier is either a bare package name, optionally followed by a
subpath, or a path. Paths are recognised by their start: `.` or `..` alone,
`./`, `../` and their backslash forms, a slash, two backslashes, or a drive
letter with a colon and a separator.
-/

namespace TypeRefs

inductive IdentifierKind where
  | bare
  | path
deriving DecidableEq, Repr, Inhabited

namespace IdentifierKind

/-- The name of a kind as it is reported. -/
def name : IdentifierKind → String
  | bare => "bare"
  | path => "path"

/-- Whether an identifier is an absolute path on some system: it starts with
a slash, with two backslashes, or with an ASCII letter, a colon and a slash
or backslash. -/
def isAbsoluteText (id : String) : Bool :=
  id.startsWith "/" || id.startsWith "\\\\" ||
    match id.toList with
    | d :: ':' :: s :: _ => d.isAlpha && (s == '\\' || s == '/')
    | _ => false

/-- Whether an identifier is a relative path: `.` or `..` alone, or one of
them followed by a slash or a backslash. -/
def isRelativeText (id : String) : Bool :=
  id == "." || id == ".." || id.startsWith "./" || id.startsWith "../" ||
    id.startsWith ".\\" || id.startsWith "..\\"

/-- The kind of an identifier; the empty identifier has none. -/
def of? (id : String) : Option IdentifierKind :=
  if id.isEmpty then none
  else if isRelativeText id || isAbsoluteText id then some path
  else some bare

end IdentifierKind

end TypeRefs
