/-
FilterQuery.Limits — bounds on what a query may ask of the reader.
-/

namespace FilterQuery

/-- No query may nest calls deeper than this, whatever its limits say. -/
def depthCeiling : Nat := 1024

/-- The limits under which a query is read. -/
structure Limits where
  /-- How many calls may be nested. -/
  maxDepth : Nat := 128
  /-- How many bytes a query may have. -/
  maxInputLength : Nat := 65536
deriving DecidableEq, Repr

end FilterQuery
