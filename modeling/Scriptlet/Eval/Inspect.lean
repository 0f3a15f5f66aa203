import Scriptlet.Eval.Value
import Scriptlet.Tree.Inspect

/-!
# Inspecting values

The text of a value with its content written out. Of a function it shows the parameters and the
body, but not the scope, which may hold the function itself.
-/

namespace Scriptlet

open Inspect

/-- A function written out. -/
def Closure.inspect (closure : Closure) : String :=
  record "Function"
    [("params", row (closure.params.map Ident.inspect)), ("body", closure.body.inspect)]

/-- A value written out. -/
def Value.inspect : Value → String
  | int value => wrapped "Integer" (toString value.toInt)
  | bool value => wrapped "Boolean" (Inspect.bool value)
  | null => "Null"
  | function closure => wrapped "Function" closure.inspect

end Scriptlet
