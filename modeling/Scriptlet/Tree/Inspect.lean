import Scriptlet.Tree.Basic

/-!
# Inspecting trees

The text of a tree with every node, field and token written out. A node with fields is its name and
the fields in braces, a node around a single other node is its name and that node in parentheses,
and lists are in brackets. The literals of tokens stand in quotes just as they are: what tokens can
spell inside a tree needs no escapes.
-/

namespace Scriptlet

namespace Inspect

/-- A node with fields. -/
def record (name : String) (fields : List (String × String)) : String :=
  let shown := fields.map fun field => field.1 ++ ": " ++ field.2
  name ++ " \x7b " ++ ", ".intercalate shown ++ " \x7d"

/-- A node around a single other node. -/
def wrapped (name : String) (content : String) : String :=
  name ++ "(" ++ content ++ ")"

/-- Items in a row. -/
def row (items : List String) : String :=
  "[" ++ ", ".intercalate items ++ "]"

/-- A text in quotes. -/
def quoted (text : String) : String :=
  "\"" ++ text ++ "\""

/-- A truth value. -/
def bool (value : Bool) : String :=
  if value then "true" else "false"

end Inspect

open Inspect

/-- The name of a kind. -/
def Kind.name : Kind → String
  | int => "Int"
  | string => "String"
  | ident => "Ident"
  | assign => "Assign"
  | eq => "Eq"
  | ne => "Ne"
  | plus => "Plus"
  | minus => "Minus"
  | star => "Multi"
  | slash => "Divide"
  | bang => "Bang"
  | question => "What"
  | lt => "Lt"
  | le => "Le"
  | gt => "Gt"
  | ge => "Ge"
  | plusPlus => "PlusPlus"
  | minusMinus => "MinusMinus"
  | lparen => "LParen"
  | rparen => "RParen"
  | lbrace => "LBrace"
  | rbrace => "RBrace"
  | comma => "Comma"
  | semicolon => "Semicolon"
  | kwFn => "Function"
  | kwLet => "Let"
  | kwTrue => "True"
  | kwFalse => "False"
  | kwIf => "If"
  | kwElse => "Else"
  | kwReturn => "Return"
  | illegal => "Illegal"
  | eof => "Eof"

/-- A token written out. -/
def Token.inspect (token : Token) : String :=
  record "Token" [("kind", token.kind.name), ("literal", quoted token.literal)]

/-- An identifier written out. -/
def Ident.inspect (ident : Ident) : String :=
  record "Identifier" [("token", ident.token.inspect), ("name", quoted ident.name)]

mutual

/-- An expression written out. -/
def Expr.inspect : Expr → String
  | .name ident => wrapped "Identifier" ident.inspect
  | .int token value =>
      record "IntegerLiteral" [("token", token.inspect), ("value", toString value.toInt)]
  | .bool token value =>
      record "BooleanLiteral" [("token", token.inspect), ("value", bool value)]
  | .unary token operand =>
      record "Prefix" [("token", token.inspect), ("right", operand.inspect)]
  | .binary token left right =>
      record "Infix"
        [("token", token.inspect), ("left", left.inspect), ("right", right.inspect)]
  | .suffix token operand =>
      record "Suffix" [("token", token.inspect), ("left", operand.inspect)]
  | .cond token test consequence none =>
      record "If"
        [("token", token.inspect), ("condition", test.inspect),
          ("consequence", consequence.inspect), ("alternative", "None")]
  | .cond token test consequence (some alternative) =>
      record "If"
        [("token", token.inspect), ("condition", test.inspect),
          ("consequence", consequence.inspect),
          ("alternative", wrapped "Some" alternative.inspect)]
  | .function token params body =>
      record "Function"
        [("token", token.inspect), ("params", row (params.map Ident.inspect)),
          ("body", body.inspect)]
  | .call token callee args =>
      record "Call"
        [("token", token.inspect), ("function", callee.inspect),
          ("arguments", row (inspectExprs args))]
termination_by structural expr => expr

/-- Several expressions written out. -/
def inspectExprs : List Expr → List String
  | [] => []
  | expr :: exprs => expr.inspect :: inspectExprs exprs
termination_by structural exprs => exprs

/-- A statement written out. -/
def Stmt.inspect : Stmt → String
  | .letBind token name value =>
      record "Let"
        [("token", token.inspect), ("name", name.inspect), ("value", value.inspect)]
  | .ret token value => record "Return" [("token", token.inspect), ("value", value.inspect)]
  | .expr token expr => record "Expression" [("token", token.inspect), ("expr", expr.inspect)]
  | .block block => wrapped "Block" block.inspect
termination_by structural stmt => stmt

/-- Several statements written out. -/
def inspectStmts : List Stmt → List String
  | [] => []
  | stmt :: stmts => stmt.inspect :: inspectStmts stmts
termination_by structural stmts => stmts

/-- A block written out. -/
def Block.inspect : Block → String
  | .mk token statements =>
      record "BlockStatement"
        [("token", token.inspect), ("statements", row (inspectStmts statements))]
termination_by structural block => block

end

end Scriptlet
