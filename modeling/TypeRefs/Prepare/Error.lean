import TypeRefs.Fs.Error
import TypeRefs.Json.Syntax
import TypeRefs.Path.Basic

/-!
# Errors of preparation

Preparing a project fails when its configuration cannot be read or parsed,
when the root is not a directory, when the declaration cannot be written, or
when a hook refuses. Each kind of failure has a stable code for programs that
read the output, and a message for people.
-/

namespace TypeRefs

inductive PrepareError where
  | configRead (path : Path) (cause : IoError)
  | configParse (path : Path) (cause : Json.SyntaxError)
  | invalidRoot (path : Path) (reason : String)
  | emit (path : Path) (cause : IoError)
  | hook (msg : String)
  | other (msg : String)
deriving Repr, Inhabited

namespace PrepareError

/-- The name of the kind of failure. -/
def kind : PrepareError → String
  | .configRead .. => "ConfigRead"
  | .configParse .. => "ConfigParse"
  | .invalidRoot .. => "InvalidRoot"
  | .emit .. => "Emit"
  | .hook .. => "Hook"
  | .other .. => "Other"

def code : PrepareError → String
  | .configRead .. | .configParse .. => "PREPARE_CONFIG_INVALID"
  | .invalidRoot .. => "PREPARE_ROOT_INVALID"
  | .emit .. => "PREPARE_WRITE_FAILED"
  | .hook .. => "PREPARE_HOOK_FAILED"
  | .other .. => "PREPARE_ERROR"

def message : PrepareError → String
  | .configRead p e => "Failed to read config at " ++ p.text ++ ": " ++ e.message
  | .configParse p e => "Failed to parse config at " ++ p.text ++ ": " ++ e.message
  | .invalidRoot p r => "Invalid project root " ++ p.text ++ ": " ++ r
  | .emit p e => "Failed to write declarations to " ++ p.text ++ ": " ++ e.message
  | .hook m => "prepare:types hook failed: " ++ m
  | .other m => m

end PrepareError

end TypeRefs
