/-!
# Outcomes

All that shows of a run of the program: what it writes and the code it exits with. Reading may fail,
for reasons that have a text each.
-/

namespace Scriptlet

/-- How a run of the program ended. -/
inductive Status where
  | success
  /-- The command line was wrong. -/
  | usage
  /-- The source in a file failed. -/
  | badSource
  /-- Something could not be read. -/
  | unreadable
  deriving DecidableEq, Repr

/-- The exit code for a status. -/
def Status.code : Status → Nat
  | success => 0
  | usage => 2
  | badSource => 65
  | unreadable => 74

/-- All that shows of a run of the program. -/
structure Outcome where
  stdout : String := ""
  stderr : String := ""
  status : Status := .success
  deriving DecidableEq, Repr

/-- Why something could not be read. -/
inductive ReadError where
  | notFound
  | isDirectory
  | notText
  deriving DecidableEq, Repr

/-- The text of a reason. -/
def ReadError.reason : ReadError → String
  | notFound => "No such file or directory (os error 2)"
  | isDirectory => "Is a directory (os error 21)"
  | notText => "stream did not contain valid UTF-8"

/-- The text that bytes encode. -/
def decodeText (bytes : List UInt8) : Except ReadError String :=
  match String.fromUTF8? ⟨bytes.toArray⟩ with
  | some text => .ok text
  | none => .error .notText

end Scriptlet
