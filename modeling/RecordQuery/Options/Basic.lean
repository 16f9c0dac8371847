/-!
# Options

* `Options`: the names of the parameters that are made for a query, and the separator of value
  lists.
-/

namespace RecordQuery

structure Options where
  projectionRoot : String := "x"
  filterRoot : String := "x"
  /-- The text between the values of a list. -/
  separator : String := ","
  deriving DecidableEq, Repr

end RecordQuery
