import Scriptlet.Console.Repl

/-!
# The program

A whole run of the program, as far as it shows: what it writes and how it ends, given its arguments,
the files and the input. The source in a file is run by itself, and the run fails with it.
-/

namespace Scriptlet

/-- The name and the version of the program. -/
def versionText : String := "qwq 0.1.0"

/-- Runs the source in a file, given what reading the file gave. -/
def runFile (options : Options) (color : Bool) (path : String)
    (content : Except ReadError (List UInt8)) : Outcome :=
  match content >>= decodeText with
  | .error error =>
      { stderr := "could not read " ++ path ++ ": " ++ error.reason ++ "\n", status := .unreadable }
  | .ok source =>
      let reply := Session.new.reply options color source
      { stdout := reply.output, status := if reply.fine then .success else .badSource }

/-- Does what a command line asks for. -/
def Command.execute (color : Bool) (files : String → Except ReadError (List UInt8))
    (input : List UInt8) : Command → Outcome
  | version => { stdout := versionText ++ "\n" }
  | run options =>
      match options.file with
      | some path => runFile options color path (files path)
      | none => Repl.transcript ⟨options, color, .new⟩ "" input

/-- A run of the program on its arguments. -/
def runProgram (args : List String) (color : Bool) (files : String → Except ReadError (List UInt8))
    (input : List UInt8) : Outcome :=
  match Command.parse args with
  | some command => command.execute color files input
  | none => { status := .usage }

end Scriptlet
