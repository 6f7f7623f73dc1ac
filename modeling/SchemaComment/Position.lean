/-
  WHERE A SCHEMA COMMENT GOES.

  There are two places: before the declaration, right after the directives, and after it, at the end
  of the file.  Each has two names.  A name is read without regard to case or to the blanks around
  it, and one colon in front of it is ignored.
-/
import SchemaComment.Text.Blank

namespace SchemaComment

/-- The place of a schema comment in a file. -/
inductive Position where
  /-- Before the declaration, after the directives. -/
  | before
  /-- At the end of the file, after an empty line. -/
  | after
deriving DecidableEq, Repr, Inhabited

/-- A text that names no position. -/
structure InvalidPosition where
  /-- The text as it was given. -/
  value : Text
deriving DecidableEq, Repr

namespace InvalidPosition

/-- The message, with the text as it was given. -/
def message (e : InvalidPosition) : String :=
  "invalid position '" ++ String.ofList e.value ++ "': expected before, top, after or bottom"

end InvalidPosition

namespace Position

/-- The name that positions are printed by. -/
def name : Position → String
  | .before => "before"
  | .after => "after"

/-- The text that a position's name is looked for in: trimmed, without one colon, in lower case. -/
def normalize (value : Text) : Text :=
  let trimmed := Text.trim value
  let bare := match trimmed with
    | ':' :: r => r
    | _ => trimmed
  bare.map Char.toLower

/-- The position that a text names. -/
def parse (value : Text) : Except InvalidPosition Position :=
  let name := normalize value
  if name = "before".toList ∨ name = "top".toList then .ok .before
  else if name = "after".toList ∨ name = "bottom".toList then .ok .after
  else .error ⟨value⟩

/-- A position is read back from its name. -/
theorem parse_name (p : Position) : parse p.name.toList = .ok p := by
  cases p <;> rfl

end Position
end SchemaComment
