/-!
# Filesystem errors

An operation on the filesystem fails with an error number of the system,
with a path that holds a NUL byte (which the system cannot be given), or,
when a file is read as text, with bytes that are not UTF-8. Each is shown as
the system describes it, followed by its number.
-/

namespace TypeRefs

inductive IoError where
  | os (code : Nat)
  | nulInPath
  | invalidUtf8
deriving DecidableEq, Repr, Inhabited

namespace IoError

def notFound : IoError := .os 2
def busy : IoError := .os 16
def alreadyExists : IoError := .os 17
def notDir : IoError := .os 20
def isDir : IoError := .os 21
def invalid : IoError := .os 22
def tooLarge : IoError := .os 27
def nameTooLong : IoError := .os 36
def notEmpty : IoError := .os 39
def loop : IoError := .os 40

/-- The system's description of an error number. -/
def describe : Nat → String
  | 1 => "Operation not permitted"
  | 2 => "No such file or directory"
  | 13 => "Permission denied"
  | 16 => "Device or resource busy"
  | 17 => "File exists"
  | 18 => "Invalid cross-device link"
  | 20 => "Not a directory"
  | 21 => "Is a directory"
  | 22 => "Invalid argument"
  | 27 => "File too large"
  | 36 => "File name too long"
  | 39 => "Directory not empty"
  | 40 => "Too many levels of symbolic links"
  | n => "Unknown error " ++ toString n

def message : IoError → String
  | .os code => describe code ++ " (os error " ++ toString code ++ ")"
  | .nulInPath => "file name contained an unexpected NUL byte"
  | .invalidUtf8 => "stream did not contain valid UTF-8"

end IoError

end TypeRefs
