import DocCoverage.Command.Run

/-!
# The command

Reads standard input, runs the command, and prints what it says. The executable starts no other
program: without `--stdin` it reports that there is no git.
-/

namespace DocCoverage

/-- Everything that can still be read from a stream, behind what was read before. -/
partial def readAll (stream : IO.FS.Stream) (before : ByteArray) : IO ByteArray := do
  let chunk ← stream.read 65536
  if chunk.isEmpty then return before
  else readAll stream (before ++ chunk)

end DocCoverage

/-- Runs the command with the arguments and the surroundings of the process. -/
def main (arguments : List String) : IO UInt32 := do
  let stdin ← DocCoverage.readAll (← IO.getStdin) ByteArray.empty
  let logSpec ← IO.getEnv "RUST_LOG"
  let report := DocCoverage.Command.execute arguments ⟨stdin.toList, none, logSpec⟩
  IO.print report.stdout
  for line in report.stderr do
    IO.eprintln line
  return UInt32.ofNat report.code
