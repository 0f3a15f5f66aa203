import Scriptlet.Tree.Basic
import Scriptlet.Tree.Equality
import Scriptlet.Tree.Printer

/-!
# Values

What expressions evaluate to: integers of 64 bits, booleans, the null value and functions. A
function is a closure. It keeps its parameters and body, and the scope it was created in, which it
only names; the scope itself lives in a store and may still change. Every evaluation of a function
literal makes a function of its own, told apart from all others by a number, and functions are equal
only to themselves.
-/

namespace Scriptlet

/-- The number of a scope. -/
abbrev ScopeId := Nat

/-- A function together with the scope it was created in. -/
structure Closure where
  /-- The number that tells this function apart from all others. -/
  id : Nat
  params : List Ident
  body : Block
  /-- The scope in which the function was created. -/
  scope : ScopeId
  deriving DecidableEq

/-- What an expression evaluates to. -/
inductive Value where
  | int (value : Int64)
  | bool (value : Bool)
  | null
  | function (closure : Closure)
  deriving DecidableEq

/-- The types of values. -/
inductive ValueType where
  | int
  | bool
  | null
  | function
  deriving DecidableEq, Repr

/-- The name of a type in messages. -/
def ValueType.label : ValueType → String
  | int => "INTEGER"
  | bool => "BOOLEAN"
  | null => "NULL"
  | function => "FUNCTION"

/-- The text of a function: its parameters and its body, as in a function literal. -/
def Closure.display (closure : Closure) : String :=
  "fn(" ++ ", ".intercalate (closure.params.map Ident.name) ++ ")" ++ closure.body.print

namespace Value

/-- The type of a value. -/
def type : Value → ValueType
  | int _ => .int
  | bool _ => .bool
  | null => .null
  | function _ => .function

/-- Whether a value counts as true in a condition: all do but `false` and null. -/
def truthy : Value → Bool
  | bool false | null => false
  | _ => true

/-- Whether a value is the null value. -/
def isNull : Value → Bool
  | null => true
  | _ => false

/-- Whether two values are equal. A function is equal only to itself. -/
def equals : Value → Value → Bool
  | int left, int right => left = right
  | bool left, bool right => left = right
  | null, null => true
  | function left, function right => left.id = right.id
  | _, _ => false

/-- The text of a value. -/
def display : Value → String
  | int value => toString value.toInt
  | bool true => "true"
  | bool false => "false"
  | null => "NULL"
  | function closure => closure.display

end Value

end Scriptlet
