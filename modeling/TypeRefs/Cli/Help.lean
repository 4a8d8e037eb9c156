import TypeRefs.Cli.Args

/-!
# Help and version texts

The help of a command is its summary, its usage line, and its commands,
positional arguments and options in aligned columns: each column of names
is as wide as its widest entry plus two spaces. An option without a short
form is indented as if it had one.
-/

namespace TypeRefs

namespace Cli

def versionText : String := "typeprep 0.1.0"

/-- Lays out named entries in two columns. -/
def columns (rows : List (String × String)) : List String :=
  let width := rows.foldl (fun m r => max m r.1.length) 0
  rows.map fun (name, text) =>
    "  " ++ name ++ String.ofList (List.replicate (width - name.length + 2) ' ') ++ text

def titled (title : String) (rows : List (String × String)) : List String :=
  (title ++ ":") :: columns rows

def verboseRow : String × String :=
  ("-v, --verbose...", "Increase logging verbosity (-v for DEBUG, -vv for TRACE)")

/-- The option that asks for JSON output. -/
def jsonRow : String × String :=
  ("    --json", "Emit JSON formatted output (stable, machine-readable)")

/-- The option that sets the working directory. -/
def cwdRow : String × String :=
  ("    --cwd <PATH>", "Override the working directory")

def helpRow : String × String :=
  ("-h, --help", "Print help")

def commandRows : List (String × String) :=
  [("version", "Print version information"),
   ("prepare", "Resolve the project's modules and write the type declaration file"),
   ("help", "Print this message or the help of the given subcommand(s)")]

/-- Joins blocks of lines with a blank line between blocks, ending with a
line break. -/
def page (blocks : List (List String)) : String :=
  "\n\n".intercalate (blocks.map fun b => "\n".intercalate b) ++ "\n"

def helpText : HelpTopic → String
  | .main => page
    [["Generate type reference declarations for a project's modules"],
     ["Usage: typeprep [OPTIONS] [COMMAND]"],
     titled "Commands" commandRows,
     titled "Options" [verboseRow, jsonRow, cwdRow, helpRow, ("-V, --version", "Print version")]]
  | .version => page
    [["Print version information"],
     ["Usage: typeprep version [OPTIONS]"],
     titled "Options" [verboseRow, jsonRow, cwdRow, helpRow]]
  | .prepare => page
    [["Resolve the project's modules and write the type declaration file"],
     ["Usage: typeprep prepare [OPTIONS] [ROOT]"],
     titled "Arguments" [("[ROOT]", "Project root directory [default: .]")],
     titled "Options"
      [("-c, --config <FILE>", "Path to project config file (overrides auto-discovery)"),
       verboseRow, jsonRow,
       ("    --modules-dir <DIR>", "Extra directory to search for installed packages (repeatable)"),
       cwdRow,
       ("-m, --module <ID>", "Extra module identifier to reference (repeatable)"),
       ("-o, --output <FILE>",
        "Output file (defaults to the config's `declaration`, or nuxt.d.ts in the root)"),
       ("    --generator <LABEL>", "Command name written into the generated header comment"),
       helpRow]]
  | .help => page
    [["Print this message or the help of the given subcommand(s)"],
     ["Usage: typeprep help [COMMAND]..."],
     titled "Arguments" [("[COMMAND]...", "Print help for the subcommand(s)")]]

end Cli

end TypeRefs
