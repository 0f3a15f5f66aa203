/-!
# Tokens

A token is a kind together with the text it was read from. The kinds cover the marks and words of
the language, one kind for every character no pattern begins with, and an end mark that stands
behind the last token of every source.

Two texts belong to a kind. `Kind.label` is the one that messages and listings show: a mark is shown
as it is spelled and everything else as a word in capitals. For the operators and the punctuation,
listed in `Kind.marks`, the label is therefore also the spelling.
-/

namespace Scriptlet

/-- The kinds of token. -/
inductive Kind where
  | int
  | string
  | ident
  | assign
  | eq
  | ne
  | plus
  | minus
  | star
  | slash
  | bang
  | question
  | lt
  | le
  | gt
  | ge
  | plusPlus
  | minusMinus
  | lparen
  | rparen
  | lbrace
  | rbrace
  | comma
  | semicolon
  | kwFn
  | kwLet
  | kwTrue
  | kwFalse
  | kwIf
  | kwElse
  | kwReturn
  | illegal
  | eof
  deriving DecidableEq, Repr

namespace Kind

/-- The text that stands for a kind in messages and token listings. -/
def label : Kind → String
  | int => "INT"
  | string => "STRING"
  | ident => "IDENT"
  | assign => "="
  | eq => "=="
  | ne => "!="
  | plus => "+"
  | minus => "-"
  | star => "*"
  | slash => "/"
  | bang => "!"
  | question => "?"
  | lt => "<"
  | le => "<="
  | gt => ">"
  | ge => ">="
  | plusPlus => "++"
  | minusMinus => "--"
  | lparen => "("
  | rparen => ")"
  | lbrace => "\x7b"
  | rbrace => "\x7d"
  | comma => ","
  | semicolon => ";"
  | kwFn => "FUNCTION"
  | kwLet => "LET"
  | kwTrue => "TRUE"
  | kwFalse => "FALSE"
  | kwIf => "IF"
  | kwElse => "ELSE"
  | kwReturn => "RETURN"
  | illegal => "ILLEGAL"
  | eof => "EOF"

/-- The operators and the punctuation, those of two characters first. A mark of two characters is
thus found before the shorter mark it begins with. -/
def marks : List Kind :=
  [eq, ne, le, ge, plusPlus, minusMinus, assign, plus, minus, star, slash, bang, question, lt, gt,
    lparen, rparen, lbrace, rbrace, comma, semicolon]

/-- The seven reserved words. -/
def keywords : List (String × Kind) :=
  [("fn", kwFn), ("let", kwLet), ("true", kwTrue), ("false", kwFalse), ("if", kwIf),
    ("else", kwElse), ("return", kwReturn)]

/-- The kind of a word: its own if the word is reserved, and that of an identifier otherwise. -/
def ofWord (word : String) : Kind :=
  (keywords.lookup word).getD ident

end Kind

/-- A token: its kind and the text it was read from. -/
structure Token where
  kind : Kind
  literal : String
  deriving DecidableEq, Repr

namespace Token

/-- The end mark, which stands behind the last token for as long as one keeps reading. -/
def eof : Token := ⟨.eof, ""⟩

/-- The token of a mark, whose text is the spelling of its kind. -/
def mark (kind : Kind) : Token := ⟨kind, kind.label⟩

/-- The token of a word, reserved or not. -/
def word (text : String) : Token := ⟨.ofWord text, text⟩

end Token

end Scriptlet
