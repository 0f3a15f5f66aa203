import Scriptlet.Token.Basic

/-!
# Diagnostics

What can be wrong with the tokens of a source, and the message for each case.
-/

namespace Scriptlet

/-- What the parser can find wrong. -/
inductive Diagnostic where
  /-- Another kind of token stands where a certain kind is required. -/
  | expected (wanted found : Kind)
  /-- No expression begins with a token of this kind. -/
  | noOperand (kind : Kind)
  /-- A character that belongs to no token stands where an expression should begin. -/
  | illegal (text : String)
  /-- The digits denote a number beyond the integers of the language. -/
  | integerRange (digits : String)
  /-- Expressions and statements lie too deep inside each other. -/
  | tooDeep
  deriving DecidableEq, Repr

/-- The message for a diagnostic. -/
def Diagnostic.message : Diagnostic → String
  | expected wanted found => "expect " ++ wanted.label ++ ", got " ++ found.label
  | noOperand kind => "no prefix parse fn for " ++ kind.label ++ " found"
  | illegal text => "illegal character " ++ text
  | integerRange digits => "could not parse " ++ digits ++ " as integer"
  | tooDeep => "expression nested too deeply"

instance : ToString Diagnostic := ⟨Diagnostic.message⟩

end Scriptlet
