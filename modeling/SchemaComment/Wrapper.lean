/-
  MARKER LINES AROUND A SCHEMA COMMENT.

  A project may want its schema comments between two lines of its own.  A marker is kept without
  the comment sign: `START` is written as the line `# START`.  Either marker may be missing.
-/
import SchemaComment.Text.Lines

namespace SchemaComment

/-- The texts of the lines around a schema comment. -/
structure Wrapper where
  /-- The line in front. -/
  opening : Option Text := none
  /-- The line behind. -/
  closing : Option Text := none
deriving DecidableEq, Repr

namespace Wrapper

/-- The line that a marker is written as, and nothing for no marker. -/
def markerLine : Option Text → Text
  | none => []
  | some m => '#' :: ' ' :: m ++ ['\n']

/-- A block between its marker lines. -/
def wrap (w : Wrapper) (block : Text) : Text := markerLine w.opening ++ block ++ markerLine w.closing

/-- Without markers the block stands alone. -/
@[simp] theorem wrap_empty (block : Text) : wrap {} block = block := by
  simp [wrap, markerLine]

end Wrapper
end SchemaComment
