import TypeRefs.Cli.Run

/-!
# The program

The program reads its command line, runs it in a world whose filesystem
holds only the root directory, which is also the working directory, prints
what the run printed and exits with its status.
-/

def TypeRefs.Cli.startWorld : TypeRefs.World :=
  { tree := TypeRefs.Tree.empty, cwd := [], clock := 0, pid := 1, scratchCount := 0 }

/-- Runs the command line and prints its output. -/
def main (args : List String) : IO UInt32 := do
  let (_, out) := TypeRefs.Cli.run TypeRefs.Cli.startWorld args
  let stdout ← IO.getStdout
  stdout.putStr out.stdout
  stdout.flush
  return UInt32.ofNat out.status
