import Scriptlet.Console.Basic

/-!
# The command line

The program itself. All it adds to `Command` and `Repl` is the outside world: arguments, files,
standard input and output, and whether output should be coloured.
-/

namespace Scriptlet

/-- What reading a file gives. -/
def readBytes (path : String) : IO (Except ReadError (List UInt8)) := do
  try
    return .ok (← IO.FS.readBinFile path).toList
  catch
    | .noFileOrDirectory .. => return .error .notFound
    | .inappropriateType .. => return .error .isDirectory
    | error => throw error

/-- Reads a line with its line end, behind the bytes read so far. At the end of the input there is
nothing more to read. -/
partial def readLine (input : IO.FS.Stream) (read : Array UInt8) : IO (List UInt8) := do
  let bytes ← input.read 1
  let read := read ++ bytes.data
  if bytes.isEmpty || bytes.data.contains lineFeed then
    return read.toList
  else
    readLine input read

/-- Whether output should be coloured: always if that is forced, and otherwise if it goes to a
terminal that nobody has asked to keep plain. -/
def wantsColor (output : IO.FS.Stream) : IO Bool := do
  let forced := (← IO.getEnv "CLICOLOR_FORCE").getD "0" ≠ "0"
  let plain := (← IO.getEnv "CLICOLOR") = some "0" ∨ (← IO.getEnv "NO_COLOR").isSome
  return forced || (!plain && (← output.isTty))

/-- Writes an outcome. -/
def Outcome.write (outcome : Outcome) : IO UInt32 := do
  IO.print outcome.stdout
  IO.eprint outcome.stderr
  return outcome.status.code.toUInt32

/-- Exchanges lines and replies until the input ends. -/
partial def Repl.converse (repl : Repl) (input output : IO.FS.Stream) : IO UInt32 := do
  output.putStr Repl.prompt
  output.flush
  let line ← readLine input #[]
  if line.isEmpty then
    Outcome.write { stdout := "\n" }
  else
    match repl.turn line with
    | .error error => Outcome.write { stderr := error.reason ++ "\n", status := .unreadable }
    | .ok (text, repl) =>
      output.putStr text
      repl.converse input output

/-- Does what a command line asks for. -/
def Command.perform (command : Command) : IO UInt32 := do
  let color ← wantsColor (← IO.getStdout)
  match command with
  | .version => (Command.version.execute color (fun _ => .error .notFound) []).write
  | .run options =>
    match options.file with
    | some path => (runFile options color path (← readBytes path)).write
    | none => Repl.converse ⟨options, color, .new⟩ (← IO.getStdin) (← IO.getStdout)

end Scriptlet

/-- Runs the program. -/
def main (args : List String) : IO UInt32 := do
  match Scriptlet.Command.parse args with
  | some command => command.perform
  | none =>
    Scriptlet.Outcome.write { stderr := "usage: [--tokens] [--ast] [FILE]\n", status := .usage }
