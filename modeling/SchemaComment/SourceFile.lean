/-
  A SOURCE FILE TAKEN APART.

  To write a schema comment a file is taken apart into its directives, the region of the comment it
  already has, and its body: all the rest.

  1. **Program** — `SourceFile.ofText` reads the file as lines, splits the directives off, and looks
     for regions in what follows them.
  2. **Specification** — directives, region and body make up the file (`raw_eq_of_region`,
     `raw_eq_of_no_region`), so taking apart loses nothing.
-/
import SchemaComment.Directive
import SchemaComment.Region

namespace SchemaComment

/-- A file that contains this marker is neither annotated nor stripped. -/
def skipMarker : Text := "# -*- SkipSchemaAnnotations".toList

/-- Whether a text has opted out. -/
def optedOut (t : Text) : Bool := Text.occursIn skipMarker t

/-- A source file taken apart. -/
structure SourceFile where
  /-- The whole text. -/
  raw : Text
  /-- The directives at the top. -/
  directives : List Line
  /-- What follows the directives. -/
  rest : Lines
  /-- The first region after the directives. -/
  region : Option Region
  /-- How many regions there are after the directives. -/
  regionCount : Nat
deriving DecidableEq, Repr

namespace SourceFile

/-- A text taken apart, its regions being of shape `p`. -/
def ofText (p : RegionShape) (t : Text) : SourceFile :=
  let s := Lines.ofText t
  let rest := s.afterDirectives
  { raw := t
    directives := s.directives
    rest := rest
    region := p.located? rest.ended
    regionCount := (p.all rest.ended).length }

/-- The directives as text. -/
def directiveText (f : SourceFile) : Text := unlines f.directives

/-- The file without its directives and without its schema comment. -/
def body (f : SourceFile) : Text :=
  match f.region with
  | none => f.rest.toText
  | some r => unlines (r.before ++ r.after) ++ f.rest.tail

/-- Whether the file has a schema comment. -/
def hasRegion (f : SourceFile) : Bool := f.region.isSome

/-- Whether the file has opted out. -/
def isOptedOut (f : SourceFile) : Bool := optedOut f.raw

/-- The text of the region, empty where there is none. -/
def regionText (f : SourceFile) : Text := (f.region.map Region.text).getD []

/-- The places where the region starts and where it stops, in bytes of the whole file. -/
def regionSpan (f : SourceFile) : Option (Nat × Nat) :=
  f.region.map fun r => (f.directiveText.size + r.start, f.directiveText.size + r.stop)

/-- The blank line that the region opens with. -/
def leadingText (f : SourceFile) : Text := (f.region.map fun r => unlines r.leading).getD []

/-- The blank lines that the region closes with. -/
def trailingText (f : SourceFile) : Text := (f.region.map fun r => unlines r.trailing).getD []

/-- The columns in the file beside those of a fresh comment. -/
def diff (f : SourceFile) (fresh : Text) : ColumnDiff := .ofTexts f.regionText fresh

/-- The region is the first one among the lines. -/
theorem region_ofText (p : RegionShape) (t : Text) :
    (ofText p t).region = p.first? (ofText p t).rest.ended := p.located?_eq _

/-- The lines of a region are lines of the file, whatever the markers. -/
theorem allLines_of_region {p : RegionShape} {t : Text} {r : Region}
    (h : (ofText p t).region = some r) : r.allLines = (ofText p t).rest.ended :=
  (RegionShape.lines_of_first? ((region_ofText p t).symm.trans h)).1

/-! ## Nothing is lost -/

/-- The pieces of a file that has a region. -/
theorem raw_eq_of_region {p : RegionShape} {t : Text} {r : Region}
    (h : (ofText p t).region = some r) :
    t = (ofText p t).directiveText ++ (unlines r.before ++ r.text ++ unlines r.after) ++
      (ofText p t).rest.tail := by
  have hr := allLines_of_region h
  have ht : unlines (ofText p t).directives ++ (ofText p t).rest.toText = (Lines.ofText t).toText :=
    Lines.unlines_directives_append (Lines.ofText t)
  rw [Lines.toText_ofText, Lines.toText, ← hr] at ht
  conv => lhs; rw [← ht]
  simp [directiveText, Region.allLines, Region.text, List.append_assoc]

/-- The pieces of a file that has no region. -/
theorem raw_eq_of_no_region {p : RegionShape} {t : Text} (h : (ofText p t).region = none) :
    t = (ofText p t).directiveText ++ (ofText p t).body := by
  have ht := Lines.unlines_directives_append (Lines.ofText t)
  rw [Lines.toText_ofText] at ht
  conv => lhs; rw [← ht]
  simp [directiveText, body, h]
  rfl

end SourceFile
end SchemaComment
