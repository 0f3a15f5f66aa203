/-!
# Decimal numbers

The number that a run of decimal digits denotes, and the integers among these numbers: those that
fit into 64 bits with a sign.
-/

namespace Scriptlet

namespace Decimal

/-- The number that digits denote, the most significant one first. -/
def value (digits : List Char) : Nat :=
  digits.foldl (fun number digit => 10 * number + (digit.toNat - '0'.toNat)) 0

/-- The integer that digits denote, if it is in range. -/
def int64? (digits : String) : Option Int64 :=
  let number := value digits.toList
  if number < Nat.pow 2 63 then some (Int64.ofNat number) else none

end Decimal

end Scriptlet
