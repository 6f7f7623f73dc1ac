/-
  HOW A FILE WITH A SCHEMA COMMENT LIES.

  A file is written piece by piece and read back by search.  A `Layout` is what both have in common:
  the directives, a region with the lines around it, and the open end.

  1. **Program** — `Layout.text` puts the pieces together.
  2. **Specification** — `SourceFile.ofText_text`: the text of a layout that fits is taken apart
     into that layout.  `SourceFile.fits_layout` is the other way: a file with a region is the text
     of a layout that fits.
  3. **The crux** — the directives end where the layout says only if the first line behind them is
     no directive.  The number of regions does not depend on that (`count_text`).
-/
import SchemaComment.Proofs.Count
import SchemaComment.Proofs.Joined
import SchemaComment.SourceFile

namespace SchemaComment

open Line

/-- A file that carries a schema comment. -/
structure Layout where
  /-- The directives at the top. -/
  directives : List Line
  /-- The region, with the lines before and after it. -/
  region : Region
  /-- What follows the last newline. -/
  tail : Line
deriving DecidableEq, Repr

namespace Layout

variable {p : RegionShape} {L : Layout}

/-- All the lines that end in a newline. -/
def lines (L : Layout) : List Line := L.directives ++ L.region.allLines

/-- The whole text. -/
def text (L : Layout) : Text := unlines L.lines ++ L.tail

/-- The layout with another core in its region. -/
def withCore (L : Layout) (core : List Line) : Layout :=
  { L with region := { L.region with core := core } }

/-- Whether the search finds the region of the layout among its lines. -/
structure Fits (p : RegionShape) (L : Layout) : Prop where
  directive : ∀ l ∈ L.directives, Line.isDirective l = true
  region : L.region.Fits p
  plain : ∀ l ∈ L.lines, '\n' ∉ l
  open_end : '\n' ∉ L.tail

/-- The text of a layout has the lines of the layout. -/
theorem ofText_text (h : L.Fits p) : Lines.ofText L.text = ⟨L.lines, L.tail⟩ :=
  Lines.ofText_toText (s := ⟨L.lines, L.tail⟩) h.plain h.open_end

/-- The text may lie in another way under another shape. -/
theorem Fits.switch {q : RegionShape} {r : Region} (h : L.Fits p) (hr : r.Fits q)
    (hall : r.allLines = L.region.allLines) :
    ({ L with region := r } : Layout).Fits q ∧ ({ L with region := r } : Layout).text = L.text := by
  have hlines : ({ L with region := r } : Layout).lines = L.lines := by
    rw [lines, lines, hall]
  refine ⟨⟨h.directive, hr, ?_, h.open_end⟩, ?_⟩
  · rw [hlines]
    exact h.plain
  · rw [text, text, hlines]

/-- Directives count nothing. -/
theorem headings_directives_append {ds : List Line} (h : ∀ l ∈ ds, Line.isDirective l = true)
    (ls : List Line) : headings false (ds ++ ls) = headings false ls :=
  headings_false_append (fun l hl => not_isHeader_of_isDirective (h l hl)) ls

/-- **The regions of a layout**: its own, and those behind it. -/
theorem headings_lines (h : L.Fits p) :
    headings false L.lines = headings false L.region.after + 1 := by
  rw [lines, headings_directives_append h.directive, headings_allLines h.region]

/-- The number of regions under any shape of single lines. -/
theorem count_text (h : L.Fits p) {q : RegionShape} (hq : q.IsSingleLine) :
    q.count L.text = headings false L.region.after + 1 := by
  rw [RegionShape.count_eq hq, ofText_text h, headings_lines h]

end Layout

namespace SourceFile

variable {p : RegionShape} {L : Layout} {t : Text}

/-! ## Reading a layout -/

/-- The region of a shape of single lines, and how many there are. -/
theorem ofText_eq (hp : p.IsSingleLine) {ds ls : List Line} {tail : Line}
    (ht : Lines.ofText t = ⟨ds ++ ls, tail⟩) (hds : ∀ l ∈ ds, Line.isDirective l = true)
    (hls : ∀ l ∈ ls.head?, Line.isDirective l = false) :
    ofText p t = ⟨t, ds, ⟨ls, tail⟩, p.first? ls, headings false ls⟩ := by
  have hsplit := takeWhile_append_of_stop hds hls
  simp only [ofText, Lines.directives, Lines.afterDirectives, ht, hsplit,
    RegionShape.located?_eq, RegionShape.length_all hp]

/-- **A layout is read back** as it was written. -/
theorem ofText_text (hp : p.IsSingleLine) (h : L.Fits p)
    (hfirst : ∀ l ∈ L.region.allLines.head?, Line.isDirective l = false) :
    ofText p L.text = ⟨L.text, L.directives, ⟨L.region.allLines, L.tail⟩, some L.region,
      headings false L.region.after + 1⟩ := by
  have hregion := (RegionShape.first?_eq_some_iff hp).mpr ⟨rfl, h.region⟩
  rw [ofText_eq hp (Layout.ofText_text h) h.directive hfirst, hregion, headings_allLines h.region]

/-! ## The layout of a file -/

/-- The directives of a file are directives, and what follows them does not open with one. -/
theorem directives_ofText (p : RegionShape) (t : Text) :
    (∀ l ∈ (ofText p t).directives, Line.isDirective l = true) ∧
      ∀ l ∈ (ofText p t).rest.ended.head?, Line.isDirective l = false :=
  ⟨fun l hl => List.all_eq_true.mp List.all_takeWhile l hl, fun _ hl => not_of_mem_head?_dropWhile hl⟩

/-- The lines of a file are its directives and the rest. -/
theorem lines_ofText (p : RegionShape) (t : Text) :
    Lines.ofText t =
      ⟨(ofText p t).directives ++ (ofText p t).rest.ended, (ofText p t).rest.tail⟩ := by
  have hsplit : (Lines.ofText t).directives ++ (Lines.ofText t).afterDirectives.ended =
      (Lines.ofText t).ended := List.takeWhile_append_dropWhile
  simp only [ofText, hsplit]
  rfl

/-- How many regions a file has after its directives. -/
theorem regionCount_ofText (hp : p.IsSingleLine) (t : Text) :
    (ofText p t).regionCount = headings false (ofText p t).rest.ended := RegionShape.length_all hp _

/-- **The directives take no part in the number of regions.** -/
theorem count_eq_regionCount (hp : p.IsSingleLine) {q : RegionShape} (hq : q.IsSingleLine)
    (t : Text) : q.count t = (ofText p t).regionCount := by
  rw [regionCount_ofText hp, RegionShape.count_eq hq, lines_ofText p,
    Layout.headings_directives_append (directives_ofText p t).1]

/-- The layout of a file that has the region `r`. -/
def layout (f : SourceFile) (r : Region) : Layout := ⟨f.directives, r, f.rest.tail⟩

/-- **The region of a file** is told by its lines. -/
theorem region_eq_some_iff (hp : p.IsSingleLine) {r : Region} :
    (ofText p t).region = some r ↔ r.allLines = (ofText p t).rest.ended ∧ r.Fits p := by
  rw [region_ofText, RegionShape.first?_eq_some_iff hp]

/-- A file has no region where it has no header. -/
theorem region_eq_none_iff (hp : p.IsSingleLine) :
    (ofText p t).region = none ↔ ∀ l ∈ (ofText p t).rest.ended, isHeader l = false := by
  rw [region_ofText, RegionShape.first?_eq_none_iff hp]

/-- **A file with a region** is the text of its layout, and the layout fits. -/
theorem fits_layout (hp : p.IsSingleLine) {r : Region} (h : (ofText p t).region = some r) :
    ((ofText p t).layout r).Fits p ∧ ((ofText p t).layout r).text = t ∧
      r.allLines = (ofText p t).rest.ended := by
  obtain ⟨hall, hfits⟩ := (region_eq_some_iff hp).mp h
  have hlines := lines_ofText p t
  have hsame : ((ofText p t).layout r).lines = (Lines.ofText t).ended := by
    rw [hlines, Layout.lines, layout, hall]
  refine ⟨⟨(directives_ofText p t).1, hfits, ?_, ?_⟩, ?_, hall⟩
  · rw [hsame]
    exact Lines.not_mem_ended_ofText t
  · have := Lines.not_mem_tail_ofText t
    rw [hlines] at this
    exact this
  · have ht := Lines.toText_ofText t
    rw [Lines.toText, ← hsame, hlines] at ht
    exact ht

/-- The regions of a file that has one. -/
theorem regionCount_of_region (hp : p.IsSingleLine) {r : Region}
    (h : (ofText p t).region = some r) :
    (ofText p t).regionCount = headings false r.after + 1 := by
  obtain ⟨hfits, -, hall⟩ := fits_layout hp h
  have hregion : r.Fits p := hfits.region
  rw [regionCount_ofText hp, ← hall, headings_allLines hregion]

/-! ## The body -/

/-- The lines of the body that end in a newline. -/
def bodyLines (f : SourceFile) : List Line :=
  match f.region with
  | none => f.rest.ended
  | some r => r.before ++ r.after

/-- The body is put together from its lines. -/
theorem body_eq (f : SourceFile) : f.body = unlines f.bodyLines ++ f.rest.tail := by
  unfold body bodyLines
  split <;> simp_all [Lines.toText]

/-- The lines of the body are lines of the file. -/
theorem mem_rest_of_mem_bodyLines (hp : p.IsSingleLine) {l : Line}
    (h : l ∈ (ofText p t).bodyLines) : l ∈ (ofText p t).rest.ended := by
  unfold bodyLines at h
  split at h
  · exact h
  · rename_i r hr
    obtain ⟨-, -, hall⟩ := fits_layout hp hr
    rw [← hall]
    exact Region.mem_allLines_of_around h

/-- The body is read back line by line. -/
theorem ofText_body (hp : p.IsSingleLine) (t : Text) :
    Lines.ofText (ofText p t).body = ⟨(ofText p t).bodyLines, (ofText p t).rest.tail⟩ := by
  have hlines := lines_ofText p t
  rw [body_eq]
  refine Lines.ofText_toText (s := ⟨(ofText p t).bodyLines, (ofText p t).rest.tail⟩) ?_ ?_
  · intro l hl
    have hmem := Lines.not_mem_ended_ofText t
    rw [hlines] at hmem
    exact hmem l (List.mem_append_right _ (mem_rest_of_mem_bodyLines hp hl))
  · have := Lines.not_mem_tail_ofText t
    rw [hlines] at this
    exact this

/-- **The body has no header**, where a file has one region at the most. -/
theorem not_isHeader_bodyLines (hp : p.IsSingleLine) (h : (ofText p t).regionCount ≤ 1) :
    ∀ l ∈ (ofText p t).bodyLines, isHeader l = false := by
  unfold bodyLines
  split
  · rename_i hnone
    exact (region_eq_none_iff hp).mp hnone
  · rename_i r hr
    obtain ⟨hfits, -, hall⟩ := fits_layout hp hr
    rw [regionCount_ofText hp, ← hall] at h
    exact not_isHeader_around hfits.region h

end SourceFile
end SchemaComment
