import Scriptlet.Console.Outcome
import Scriptlet.Console.Reply

/-!
# Reading line by line

Without a file, sources are read line by line. A prompt invites each line, and all lines belong to
one session. The end of the input ends the exchange, and so does a line that is no text. Errors in a
line do not.

`Repl.turn` is what happens with one line, and `Repl.transcript` is the whole exchange for an input
that is known from the start.
-/

namespace Scriptlet

/-- The byte that ends a line. -/
def lineFeed : UInt8 := 10

/-- The first line of an input, with its line end if it has one. -/
def firstLine (input : List UInt8) : List UInt8 :=
  input.takeWhile (· ≠ lineFeed) ++ (input.dropWhile (· ≠ lineFeed)).take 1

/-- What follows the first line of an input. -/
def otherLines (input : List UInt8) : List UInt8 :=
  (input.dropWhile (· ≠ lineFeed)).drop 1

theorem length_otherLines_lt {input : List UInt8} (nonempty : input ≠ []) :
    (otherLines input).length < input.length := by
  have bound : (input.dropWhile (· ≠ lineFeed)).length ≤ input.length :=
    (List.dropWhile_suffix _).length_le
  have positive := List.length_pos_iff.2 nonempty
  rw [otherLines, List.length_drop]
  omega

/-- An exchange in progress. -/
structure Repl where
  options : Options
  color : Bool
  session : Session

namespace Repl

/-- The text that invites a line. -/
def prompt : String := "QWQ >> "

/-- Takes a line, with its line end: what is written for it, and the exchange after it. -/
def turn (repl : Repl) (line : List UInt8) : Except ReadError (String × Repl) := do
  let source ← decodeText line
  let reply := repl.session.reply repl.options repl.color source
  return (reply.output, { repl with session := reply.session })

/-- All that an exchange writes for an input, behind what was written before. -/
def transcript (repl : Repl) (written : String) (input : List UInt8) : Outcome :=
  if atEnd : input = [] then
    { stdout := written ++ prompt ++ "\n" }
  else
    match repl.turn (firstLine input) with
    | .error error =>
        { stdout := written ++ prompt, stderr := error.reason ++ "\n", status := .unreadable }
    | .ok (output, repl) =>
        have := length_otherLines_lt atEnd
        repl.transcript (written ++ prompt ++ output) (otherLines input)
termination_by input.length

end Repl

end Scriptlet
