import Scriptlet.Parser.Diagnostic
import Scriptlet.Report
import Scriptlet.Token.Lexer

/-!
# Cursors

A cursor stands on a token of the source. It knows the tokens from there on and what has been
reported so far. Behind the last token it stands on the end mark, and stays there however often it
is moved on.
-/

namespace Scriptlet

/-- A position in the tokens of a source. -/
structure Cursor where
  /-- The tokens that are left, the one under the cursor first. -/
  tokens : List Token
  /-- What has been reported so far. -/
  report : Report Diagnostic := {}
  deriving DecidableEq, Repr

namespace Cursor

/-- The cursor on the first token of a source. -/
def ofSource (source : String) : Cursor := { tokens := tokenize source }

/-- The token under the cursor. -/
def current (cursor : Cursor) : Token := cursor.tokens.headD .eof

/-- The token behind the one under the cursor. -/
def peek (cursor : Cursor) : Token := cursor.tokens.tail.headD .eof

/-- The cursor one token further on. -/
def advance (cursor : Cursor) : Cursor := { cursor with tokens := cursor.tokens.tail }

/-- The cursor with one more diagnostic reported. -/
def addDiagnostic (cursor : Cursor) (diagnostic : Diagnostic) : Cursor :=
  { cursor with report := cursor.report.add diagnostic }

/-- What is left once the rest of a statement is skipped: the cursor comes to rest on a `;`, on the
end mark, or in front of a `}`, a `let` or a `return`. -/
def skipTokens : List Token → List Token
  | [] => []
  | token :: rest =>
      if token.kind ∈ [.semicolon, .eof] ∨
          (rest.headD .eof).kind ∈ [.rbrace, .kwLet, .kwReturn] then
        token :: rest
      else
        skipTokens rest

theorem skipTokens_suffix (tokens : List Token) : skipTokens tokens <:+ tokens := by
  induction tokens with
  | nil => exact List.suffix_refl []
  | cons token rest ih =>
      rw [skipTokens]
      split
      · exact List.suffix_refl _
      · exact ih.trans (List.suffix_cons token rest)

/-- What reading may do to a cursor: it moves on and adds to the report, and takes nothing back. -/
structure LeadsTo (start done : Cursor) : Prop where
  tokens : done.tokens <:+ start.tokens
  report : start.report.toList <+: done.report.toList

namespace LeadsTo

theorem refl (cursor : Cursor) : cursor.LeadsTo cursor :=
  ⟨List.suffix_refl _, List.prefix_refl _⟩

theorem trans {start middle done : Cursor} (first : start.LeadsTo middle)
    (second : middle.LeadsTo done) : start.LeadsTo done :=
  ⟨second.tokens.trans first.tokens, first.report.trans second.report⟩

end LeadsTo

theorem leadsTo_advance (cursor : Cursor) : cursor.LeadsTo cursor.advance :=
  ⟨List.tail_suffix cursor.tokens, List.prefix_refl _⟩

theorem leadsTo_skip (cursor : Cursor) :
    cursor.LeadsTo { cursor with tokens := skipTokens cursor.tokens } :=
  ⟨skipTokens_suffix _, List.prefix_refl _⟩

theorem leadsTo_addDiagnostic (cursor : Cursor) (diagnostic : Diagnostic) :
    cursor.LeadsTo (cursor.addDiagnostic diagnostic) :=
  ⟨List.suffix_refl _, by simp [addDiagnostic]⟩

/-- A cursor that is not on the end mark has tokens left. -/
theorem tokens_ne_nil_of_current {cursor : Cursor} (notEnd : cursor.current.kind ≠ .eof) :
    cursor.tokens ≠ [] := by
  intro empty
  exact notEnd (by rw [current, empty]; rfl)

/-- If the next token is not the end mark, the cursor has room to move on. -/
theorem length_advance_lt {cursor : Cursor} (notEnd : cursor.peek.kind ≠ .eof) :
    cursor.advance.tokens.length < cursor.tokens.length := by
  cases tokens_eq : cursor.tokens with
  | nil => exact absurd (by rw [peek, tokens_eq]; rfl) notEnd
  | cons token rest => simp [advance, tokens_eq]

end Cursor

end Scriptlet
