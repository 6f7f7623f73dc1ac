/-
  THE COLUMNS A SCHEMA COMMENT DESCRIBES.

  Two schema comments say the same when they describe the same columns.  Everything above the line
  that names the table (a version, a banner) and the order of the lines stay out of it.

  1. **Program** — `tableLines` cuts out the section: the first line that names the table and the
     comment lines right below it.  `columnLines` keeps the lines of the section that look like a
     column, cuts their carriage returns and sorts them.  `ColumnDiff` holds the two sorted lists, and
     a line of one of them is looked up in the other by halving (`holdsLine`).
  2. **Specification** — sorting forgets the order and nothing else (`sortLines_perm`), so two lists
     agree when they hold the same lines equally often.
  3. **The crux** — what looks like a column: a hash, blanks (tab or space), a name, blanks, and at
     least one more character.  The last blank of a run may be that character, so the line is asked
     for two characters after the name, the first of them a blank.  The line that names the table
     has that form as well, so a comment for another table differs from this one.
-/
import SchemaComment.Text.Word
import SchemaComment.Text.Lines

namespace SchemaComment

/-! ## The section of the table -/

/-- Whether a line is a comment line. -/
def Line.isComment (l : Line) : Bool := l.head? = some '#'

/-- Whether a line names the table. -/
def Line.namesTable (l : Line) : Bool := "# Table name:".toList.isPrefixOf l

/-- The first line that names the table and the comment lines right below it. -/
def tableLines (ls : List Line) : List Line :=
  match ls.dropWhile (! Line.namesTable ·) with
  | [] => []
  | l :: below => l :: below.takeWhile Line.isComment

/-! ## Column lines -/

namespace Column

/-- The blanks inside a comment line. -/
def isGap (c : Char) : Bool := c == ' ' || c == '\t'

/-- The characters of a column's name. -/
def isName (c : Char) : Bool := Text.isWord c || c == '*' || c == '.' || c == '\x60'

/-- Whether a line looks like a column. -/
def describes (l : Line) : Bool :=
  match l with
  | '#' :: gap :: r =>
    let name := r.dropWhile isGap
    let rest := name.dropWhile isName
    isGap gap && name.head?.any isName && rest.head?.any isGap && decide (2 ≤ rest.length)
  | _ => false

/-- The line without the carriage returns at its end. -/
def withoutReturns (l : Line) : Line := (l.reverse.dropWhile (· == '\r')).reverse

end Column

/-! ## Sorting by code point -/

/-- Whether `k` comes no later than `l` by code points. -/
def Line.le : Line → Line → Bool
  | [], _ => true
  | _ :: _, [] => false
  | c :: k, d :: l => if c = d then Line.le k l else c.toNat < d.toNat

/-- A line put into its place among sorted ones. -/
def insertLine (l : Line) : List Line → List Line
  | [] => [l]
  | k :: ks => if Line.le l k then l :: k :: ks else k :: insertLine l ks

/-- The lines in ascending order. -/
def sortLines : List Line → List Line
  | [] => []
  | l :: ls => insertLine l (sortLines ls)

theorem insertLine_perm (l : Line) (ks : List Line) : (insertLine l ks).Perm (l :: ks) := by
  induction ks with
  | nil => exact .refl _
  | cons k ks ih =>
    unfold insertLine
    split
    · exact .refl _
    · exact (ih.cons k).trans (.swap l k ks)

/-- Sorting keeps every line as often as it stood there. -/
theorem sortLines_perm (ls : List Line) : (sortLines ls).Perm ls := by
  induction ls with
  | nil => exact .refl _
  | cons l ls ih => exact (insertLine_perm l (sortLines ls)).trans (ih.cons l)

/-! ## Looking a line up among sorted ones -/

/-- The place that halving comes down to.  Of the `size` lines from `base` on, those behind the middle
    are left out if the middle one comes after `l`, and those before it otherwise. -/
def halve (ls : List Line) (l : Line) (base size : Nat) (h : base + size ≤ ls.length) : Nat :=
  if _hs : 1 < size then
    if Line.le ls[base + size / 2] l then halve ls l (base + size / 2) (size - size / 2) (by omega)
    else halve ls l base (size - size / 2) (by omega)
  else base
termination_by size

/-- Whether halving finds the line. -/
def holdsLine (ls : List Line) (l : Line) : Bool :=
  ls[halve ls l 0 ls.length (by omega)]? == some l

/-! ## Comparing two schema comments -/

/-- The column lines of a text, sorted. -/
def columnLines (t : Text) : List Line :=
  sortLines (((tableLines (Lines.ofText t).ended).filter Column.describes).map Column.withoutReturns)

/-- The columns of the comment in a file beside those of a fresh one. -/
structure ColumnDiff where
  /-- The columns in the file. -/
  old : List Line
  /-- The columns of the fresh comment. -/
  new : List Line
deriving DecidableEq, Repr

namespace ColumnDiff

/-- The comparison of two texts. -/
def ofTexts (old new : Text) : ColumnDiff := ⟨columnLines old, columnLines new⟩

/-- Whether the two lists differ. -/
def isChanged (d : ColumnDiff) : Bool := d.old != d.new

/-- The new columns that the old comment does not have. -/
def added (d : ColumnDiff) : List Line := d.new.filter (! holdsLine d.old ·)

/-- The old columns that the new comment does not have. -/
def removed (d : ColumnDiff) : List Line := d.old.filter (! holdsLine d.new ·)

end ColumnDiff
end SchemaComment
