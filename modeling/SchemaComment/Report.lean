/-
  REPORTS.

  A batch ends in a report: which files were written and which could not be processed, both in the
  order of the batch.
-/
import SchemaComment.Fault

namespace SchemaComment

/-- What a batch does to its files. -/
inductive Operation where
  /-- Schema comments are written. -/
  | annotate
  /-- Schema comments are taken out. -/
  | strip
deriving DecidableEq, Repr

/-- A file that could not be processed. -/
structure Failure where
  /-- The file. -/
  path : String
  /-- What went wrong with it. -/
  message : String
deriving DecidableEq, Repr

/-- What came of a batch. -/
structure Report where
  /-- What was done. -/
  operation : Operation
  /-- The files that were written. -/
  modified : List String := []
  /-- The files that could not be processed. -/
  failures : List Failure := []
deriving DecidableEq, Repr

namespace Report

/-- Whether every file could be processed. -/
def isOk (r : Report) : Bool := r.failures.isEmpty

/-- The report in one line. -/
def summary (r : Report) : String :=
  let names := ", ".intercalate r.modified
  match r.operation, r.modified with
  | .annotate, [] => "Model files unchanged."
  | .annotate, _ => "Annotated (" ++ toString r.modified.length ++ "): " ++ names
  | .strip, [] => "No annotations removed."
  | .strip, _ => "Removed annotations from: " ++ names

end Report
end SchemaComment
