/-
  THE TWO LINE ENDINGS.

  A file keeps its line ending.  What is spliced into it is written in the ending of its first line
  break, and a file without one counts as `lf`.

  1. **Program** — `LineEnding.detect` looks at the first line only; `LineEnding.apply` goes through
     a text line by line.  Under `crlf` each line gets a carriage return unless it has one; under
     `lf` the text stands as it is, so a block that brings its own returns keeps them.
  2. **Specification** — `apply_crlf_apply_crlf`: applying `crlf` twice is applying it once.
-/
import SchemaComment.Text.Lines

namespace SchemaComment

/-- How a file ends its lines. -/
inductive LineEnding where
  /-- A newline. -/
  | lf
  /-- A carriage return and a newline. -/
  | crlf
deriving DecidableEq, Repr

/-! ## The carriage return of a line -/

namespace Line

/-- Whether the line ends in a carriage return. -/
def endsInReturn (l : Line) : Bool := l.getLast? = some '\r'

/-- The line with a carriage return at its end, unless it has one. -/
def withReturn (l : Line) : Line := if endsInReturn l then l else l ++ ['\r']

/-- The line without one carriage return at its end. -/
def withoutReturn (l : Line) : Line := if endsInReturn l then l.dropLast else l

@[simp] theorem endsInReturn_withReturn (l : Line) : endsInReturn (withReturn l) = true := by
  unfold withReturn
  split
  · assumption
  · simp [endsInReturn]

@[simp] theorem withReturn_withReturn (l : Line) : withReturn (withReturn l) = withReturn l := by
  rw [withReturn, if_pos (endsInReturn_withReturn l)]

@[simp] theorem withoutReturn_append_return (l : Line) : withoutReturn (l ++ ['\r']) = l := by
  simp [withoutReturn, endsInReturn]

end Line

/-- Every line of the text given a carriage return that has none. -/
def Lines.withReturns (s : Lines) : Lines := ⟨s.ended.map Line.withReturn, s.tail⟩

namespace LineEnding

/-- The line break itself. -/
def text : LineEnding → Text
  | .lf => ['\n']
  | .crlf => ['\r', '\n']

/-- The ending of the first line break of a text, `lf` where there is none. -/
def detect (t : Text) : LineEnding :=
  match (Lines.ofText t).ended with
  | [] => .lf
  | l :: _ => if Line.endsInReturn l then .crlf else .lf

/-- The text in this line ending. -/
def apply : LineEnding → Text → Text
  | .lf, t => t
  | .crlf, t => (Lines.ofText t).withReturns.toText

@[simp] theorem apply_lf (t : Text) : apply .lf t = t := rfl

/-- A carriage return added to a line brings no newline into it. -/
theorem not_mem_withReturn {l : Line} (h : '\n' ∉ l) : '\n' ∉ Line.withReturn l := by
  unfold Line.withReturn
  split
  · exact h
  · simp [h]

/-- Reading back a text in `crlf` gives its lines with their returns. -/
theorem ofText_apply_crlf (t : Text) :
    Lines.ofText (apply .crlf t) = (Lines.ofText t).withReturns := by
  apply Lines.ofText_toText
  · intro l hl
    obtain ⟨k, hk, rfl⟩ := List.mem_map.mp hl
    exact not_mem_withReturn (Lines.not_mem_ended_ofText t k hk)
  · exact Lines.not_mem_tail_ofText t

/-- **`crlf` is stable**: a text already in it is left alone. -/
theorem apply_crlf_apply_crlf (t : Text) : apply .crlf (apply .crlf t) = apply .crlf t := by
  rw [apply, ofText_apply_crlf, apply]
  simp [Lines.withReturns, Function.comp_def]

end LineEnding
end SchemaComment
