/-!
# Reports

A report collects errors in the order in which they were found. It is read in two ways: as lines,
one for each error, or as the lines joined into a single message.
-/

namespace Scriptlet

/-- Errors in the order in which they were found. -/
structure Report (Error : Type) where
  errors : Array Error := #[]
  deriving DecidableEq, Repr

namespace Report

variable {Error : Type}

/-- A report of nothing. -/
def empty : Report Error := {}

/-- The report with one more error at its end. -/
def add (report : Report Error) (error : Error) : Report Error :=
  ⟨report.errors.push error⟩

/-- Whether nothing was reported. -/
def isEmpty (report : Report Error) : Bool :=
  report.errors.isEmpty

/-- The number of errors. -/
def size (report : Report Error) : Nat :=
  report.errors.size

/-- The errors in order. -/
def toList (report : Report Error) : List Error :=
  report.errors.toList

@[simp]
theorem toList_add (report : Report Error) (error : Error) :
    (report.add error).toList = report.toList ++ [error] := by
  simp [add, toList]

variable [ToString Error]

/-- The messages of all errors, each with a line end behind it. -/
def lines (report : Report Error) : String :=
  String.join (report.toList.map fun error => toString error ++ "\n")

/-- The messages of all errors, with a line end between two of them. -/
def joined (report : Report Error) : String :=
  "\n".intercalate (report.toList.map toString)

end Report

end Scriptlet
