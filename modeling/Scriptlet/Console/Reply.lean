import Scriptlet.Console.Command
import Scriptlet.Session

/-!
# Replies

What is written for a source. The tokens come first if they are asked for, one on a line. Then comes
the printed tree, if that is asked for, and otherwise the value of the source; a null value is not
written. Errors take the place of both. Errors and the kinds of tokens are styled where colour is
wanted.
-/

namespace Scriptlet

/-- The text in a style, which ends with the text. The codes switch the style on. -/
def styled (color : Bool) (codes : String) (text : String) : String :=
  if color then codes ++ text ++ "\x1b[0m" else text

/-- Faint text. -/
def dim : String := "\x1b[2m"

/-- Red text. -/
def red : String := "\x1b[31m"

/-- Bold text. -/
def bold : String := "\x1b[1m"

/-- The tokens of a source, one on a line. -/
def tokenListing (color : Bool) (source : String) : String :=
  String.join ((tokenize source).map fun token =>
    styled color dim token.kind.label ++ " " ++ token.literal ++ "\n")

/-- The lines that tell why a run failed. -/
def Failure.lines (color : Bool) : Failure → String
  | unreadable report =>
      String.join (report.toList.map fun error => styled color red error.message ++ "\n")
  | faulty fault => styled color (red ++ bold) "ERROR:" ++ " " ++ fault.message ++ "\n"

/-- What is written for a source, whether the source was fine, and the session after it. -/
structure Reply where
  output : String
  fine : Bool
  session : Session

/-- The reply to a source, apart from its tokens. -/
def Session.answer (options : Options) (color : Bool) (session : Session) (source : String) :
    Reply :=
  if options.tree then
    match Program.parse source with
    | .ok program => ⟨program.print ++ "\n", true, session⟩
    | .error report => ⟨(Failure.unreadable report).lines color, false, session⟩
  else
    match session.run source with
    | (.ok (some value), session) => ⟨value.display ++ "\n", true, session⟩
    | (.ok none, session) => ⟨"", true, session⟩
    | (.error failure, session) => ⟨failure.lines color, false, session⟩

/-- The reply to a source. -/
def Session.reply (options : Options) (color : Bool) (session : Session) (source : String) :
    Reply :=
  let answer := session.answer options color source
  if options.tokens then
    { answer with output := tokenListing color source ++ answer.output }
  else
    answer

end Scriptlet
