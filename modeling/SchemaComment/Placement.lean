/-
  PLACING A SCHEMA COMMENT.

  A file that is to carry a block either gets it where the options put it (REGENERATE) or gets it in
  the stead of the comment that it has (SUBSTITUTE).

  1. **Program** — `action?` chooses: a file without a comment is regenerated, and so is any file
     under `force`; one whose columns changed has its comment substituted; any other is left alone.
     `place` carries the choice out.  A text that comes out as it went in needs no writing, and only
     then is it asked whether writing is allowed.
  2. **The crux** — blank lines must not pile up from run to run.  `regenerate` trims the body at
     the seam and puts one empty line between directives and comment, and between a comment and a
     body that opens with one of its own; without the latter the next run would take that comment
     for a part of the block.
-/
import SchemaComment.SourceFile
import SchemaComment.Options

namespace SchemaComment

/-- The two ways to bring a block into a file. -/
inductive Action where
  /-- Write the file anew around the block. -/
  | regenerate
  /-- Put the block where the old one stands. -/
  | substitute
deriving DecidableEq, Repr

/-- The name of an action in the log. -/
def Action.name : Action → String
  | .regenerate => "Regenerate"
  | .substitute => "Substitute"

/-- What becomes of a file that is to carry a block. -/
inductive Placement where
  /-- The file has opted out. -/
  | skipped
  /-- There is nothing to write. -/
  | unchanged
  /-- The file would have to be written, which is forbidden. -/
  | refused
  /-- The file is to be written with this text. -/
  | write (action : Action) (text : Text)
deriving DecidableEq, Repr

namespace SourceFile

/-! ## The two ways to write -/

/-- The file written anew around `wrapped`, its seams in the given line ending. -/
def regenerate (f : SourceFile) (wrapped : Text) (p : Position) (ending : LineEnding) : Text :=
  match p with
  | .after => f.directiveText ++ Text.trimEnd f.body ++ ending.text ++ ending.text ++ wrapped
  | .before =>
    let body := Text.trimStart f.body
    let gap := if body.head? = some '#' then ending.text else []
    let seam := if f.directives.isEmpty then [] else ending.text
    f.directiveText ++ seam ++ wrapped ++ gap ++ body

/-- The file with `wrapped` in the stead of its region, the blank lines of the region kept.  A file
    without a region stays as it is. -/
def substitute (f : SourceFile) (wrapped : Text) : Text :=
  match f.region with
  | none => f.raw
  | some r =>
    f.directiveText ++ unlines r.before ++ unlines r.leading ++ wrapped ++ unlines r.trailing ++
      unlines r.after ++ f.rest.tail

/-! ## The choice between them -/

/-- The way to bring the block `wrapped` into the file, if there is anything to do. -/
def action? (f : SourceFile) (force : Bool) (wrapped : Text) : Option Action :=
  if f.isOptedOut then none
  else if !f.hasRegion || force then some .regenerate
  else if (f.diff wrapped).isChanged then some .substitute
  else none

/-- The text that an action gives. -/
def textAfter (f : SourceFile) (a : Action) (wrapped : Text) (p : Position) : Text :=
  let ending := LineEnding.detect f.raw
  match a with
  | .regenerate => f.regenerate (ending.apply wrapped) p ending
  | .substitute => f.substitute (ending.apply wrapped)

/-- What becomes of the file when it is to carry `block` at `p`. -/
def place (f : SourceFile) (o : Options) (block : Text) (p : Position) : Placement :=
  let wrapped := o.wrapper.wrap block
  if f.isOptedOut then .skipped
  else match f.action? o.force wrapped with
    | none => .unchanged
    | some a =>
      let text := f.textAfter a wrapped p
      if text = f.raw then .unchanged
      else if o.frozen then .refused
      else .write a text

/-- A file is never written with the text that it has. -/
theorem ne_raw_of_place_eq_write {f : SourceFile} {o : Options} {block : Text} {p : Position}
    {a : Action} {t : Text} (h : f.place o block p = .write a t) : t ≠ f.raw := by
  simp only [place] at h
  split at h
  · cases h
  · split at h
    · cases h
    · split at h
      · cases h
      · split at h
        · cases h
        · cases h; assumption

end SourceFile
end SchemaComment
