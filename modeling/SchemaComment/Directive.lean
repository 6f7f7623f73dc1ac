/-
  DIRECTIVES AT THE TOP OF A FILE.

  A source file may open with lines that its interpreter and tools read: the encoding, the frozen
  literals, the typing level.  They have to stay first, so a schema comment goes after them.

  1. **Program** — `isDirective` decides one line, without its line break, by the seven spellings
     below.  `directives` takes the lines from the top as long as they are directives;
     `afterDirectives` is the rest of the file.
  2. **Specification** — `unlines_directives_append`: the two pieces make up the file.
  3. **The crux** — only a line whose newline is there counts, and one carriage return before the
     newline is no part of it.
-/
import SchemaComment.Text.Blank
import SchemaComment.LineEnding

namespace SchemaComment

/-! ## One line -/

namespace Directive

/-- The remainder of a line holds no newline. -/
def staysOnLine (t : Text) : Bool := !t.contains '\n'

/-- The remainder holds no newline and at least one character. -/
def hasValue (t : Text) : Bool := staysOnLine t && !t.isEmpty

/-- The remainder holds no newline and ends in the closing mark, with a value before it. -/
def hasClosedValue (t : Text) : Bool :=
  staysOnLine t && "-*-".toList.isSuffixOf t && decide (4 ≤ t.length)

/-- A hash, any blanks, then the key and its remainder. -/
def keyed (key : String) (value : Text → Bool) (l : Text) : Bool :=
  match l with
  | '#' :: r => ((Text.trimStart r).after? key).any value
  | _ => false

/-- An encoding between marks: the key, at most one blank, a colon. -/
def markedEncoding (l : Text) : Bool :=
  match l.after? "# -*- encoding" with
  | some (':' :: r) => staysOnLine r
  | some (c :: ':' :: r) => Text.isBlank c && staysOnLine r
  | _ => false

/-- Frozen literals between marks: the key, any blanks, a colon, a value and the closing mark. -/
def markedFrozen (l : Text) : Bool :=
  match (l.after? "# -*- frozen_string_literal").map Text.trimStart with
  | some (':' :: r) => hasClosedValue r
  | _ => false

end Directive

/-- Whether a line, without its line break, is a directive. -/
def isDirective (l : Text) : Bool :=
  Directive.keyed "encoding:" Directive.staysOnLine l
    || (l.after? "# coding:").any Directive.staysOnLine
    || (l.after? "# -*- coding:").any Directive.staysOnLine
    || Directive.markedEncoding l
    || Directive.keyed "frozen_string_literal:" Directive.hasValue l
    || Directive.markedFrozen l
    || Directive.keyed "typed:" Directive.staysOnLine l

/-! ## The run at the top of a file -/

/-- Whether a terminated line is a directive, its carriage return aside. -/
def Line.isDirective (l : Line) : Bool := SchemaComment.isDirective (Line.withoutReturn l)

namespace Lines

/-- The directives that the text opens with. -/
def directives (s : Lines) : List Line := s.ended.takeWhile Line.isDirective

/-- The text from the first line on that is no directive. -/
def afterDirectives (s : Lines) : Lines := ⟨s.ended.dropWhile Line.isDirective, s.tail⟩

/-- The directives and what follows them make up the text. -/
theorem unlines_directives_append (s : Lines) :
    unlines s.directives ++ s.afterDirectives.toText = s.toText := by
  rw [toText, toText, directives, afterDirectives, ← List.append_assoc, ← unlines_append,
    List.takeWhile_append_dropWhile]

/-- What follows the directives opens with none. -/
theorem directives_afterDirectives (s : Lines) : s.afterDirectives.directives = [] := by
  simp only [directives, afterDirectives]
  induction s.ended with
  | nil => rfl
  | cons l ls ih =>
    by_cases h : Line.isDirective l
    · simpa [h] using ih
    · simp [h]

end Lines

/-- The directives a text opens with, as text. -/
def directiveText (t : Text) : Text := unlines (Lines.ofText t).directives

end SchemaComment
