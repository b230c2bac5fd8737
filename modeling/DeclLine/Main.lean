import DeclLine.Command.Run

/-!
The command line.
-/

namespace DeclLine.Command

/-- Reads until a line break has come in or the input ends. -/
partial def readInput (stream : IO.FS.Stream) (read : ByteArray) : IO ByteArray := do
  let chunk ← stream.read 4096
  let read := read ++ chunk
  if chunk.isEmpty || chunk.data.contains 10 then return read
  readInput stream read

end DeclLine.Command

open DeclLine.Command in
def main (args : List String) : IO UInt32 := do
  let stdout ← IO.getStdout
  let stderr ← IO.getStderr
  let request := Request.ofArguments args
  let prompt := promptFor request
  let mut input := ByteArray.empty
  unless prompt.isEmpty do
    stdout.putStr prompt
    stdout.flush
    input ← readInput (← IO.getStdin) input
  match answer request input.data.toList with
  | none =>
      stderr.putStr "error: unexpected arguments\n\nFor more information, try '--help'.\n"
      return 2
  | some output =>
      stdout.putStr output.stdout
      stderr.putStr output.stderr
      return output.exitCode.toUInt32
