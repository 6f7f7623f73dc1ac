/-
  FINDING A SCHEMA COMMENT IN A FILE.

  A schema comment that stands in a file is a REGION of whole lines: perhaps one empty line, perhaps
  the opening marker, a header, the comment lines right below it and the empty lines after those.

  1. **Program** — `RegionShape.cut?` tries to cut a region off the front of a list of lines.
     `RegionShape.first?` takes the first line at which that works.  `RegionShape.all` goes on behind
     each region.
  2. **Specification** — a region comes with the lines before and after it, and all five pieces
     together are the lines that were searched (`lines_of_first?`).  So no place has to be computed
     to cut a region out or to put another in its stead.
     What is found counts where the blanks at either end of its text can be told
     (`RegionShape.located?`), which is always so (`located?_eq`).
  3. **The crux** — a header counts under any of three spellings: the one asked for and two short
     ones, of which the usual headers are longer forms.  A header or a marker may itself run over
     several lines; `opens?` then wants all of them but the last exactly.
-/
import SchemaComment.Text.Blank
import SchemaComment.Columns

namespace SchemaComment

/-! ## Fixed beginnings -/

/-- The lines that a fixed text covers from the first line on, the last of them to its end, and the
    lines after those. -/
def opens? (lead : Text) (ls : List Line) : Option (List Line × List Line) :=
  let s := Lines.ofText lead
  match s.ended.isPrefixOf? ls with
  | some (l :: rest) => if s.tail.isPrefixOf l then some (s.ended ++ [l], rest) else none
  | _ => none

/-- What `opens?` covers and leaves is what it was given, and it covers a line. -/
theorem eq_of_opens? {lead : Text} {ls taken rest : List Line}
    (h : opens? lead ls = some (taken, rest)) : ls = taken ++ rest ∧ taken ≠ [] := by
  simp only [opens?] at h
  split at h
  · rename_i l r hp
    split at h
    · simp only [Option.some.injEq, Prod.mk.injEq] at h
      obtain ⟨rfl, rfl⟩ := h
      have := eq_append_of_isPrefixOf? hp
      simp [this]
    · simp at h
  · simp at h

/-! ## Blank lines at either end -/

/-- Whether a line is an empty one, under either line ending. -/
def Line.isEmpty (l : Line) : Bool := l == [] || l == ['\r']

/-- Whether all of a line is blank. -/
def Line.isBlank (l : Line) : Bool := l.all Text.isBlank

/-- The empty line at the front, if there is one, and the lines after it. -/
def splitEmptyLine : List Line → List Line × List Line
  | l :: ls => if Line.isEmpty l then ([l], ls) else ([], l :: ls)
  | [] => ([], [])

/-- The lines up to the last that is not blank. -/
def upToLastSolid (ls : List Line) : List Line := (ls.reverse.dropWhile Line.isBlank).reverse

/-- The blank lines at the end. -/
def closingBlanks (ls : List Line) : List Line := (ls.reverse.takeWhile Line.isBlank).reverse

theorem splitEmptyLine_append (ls : List Line) :
    (splitEmptyLine ls).1 ++ (splitEmptyLine ls).2 = ls := by
  unfold splitEmptyLine
  split
  · split <;> simp
  · rfl

theorem upToLastSolid_append (ls : List Line) : upToLastSolid ls ++ closingBlanks ls = ls := by
  rw [upToLastSolid, closingBlanks, ← List.reverse_append, List.takeWhile_append_dropWhile,
    List.reverse_reverse]

/-! ## The shape of a region -/

/-- The header in its plain form. -/
def plainHeader : Text := "== Schema Information".toList

/-- The header in its Markdown form. -/
def markdownHeader : Text := "## Schema Information".toList

/-- The beginnings under which a header of either form is known. -/
def shortHeaders : List Text := ["== Schema Info".toList, "## Schema Info".toList]

/-- What a region looks like: its header and, where markers are in use, the opening one. -/
structure RegionShape where
  /-- The header, without the comment sign. -/
  header : Text := plainHeader
  /-- The opening marker, without the comment sign. -/
  opening : Option Text := none
deriving DecidableEq, Repr

/-- The comment sign and the space that headers and markers are written after. -/
def commented (t : Text) : Text := '#' :: ' ' :: t

/-- A schema comment and the lines around it. -/
structure Region where
  /-- The lines before it. -/
  before : List Line
  /-- The empty line that it opens with, if there is one. -/
  leading : List Line
  /-- Its lines from the first that is not blank to the last. -/
  core : List Line
  /-- The blank lines that it closes with. -/
  trailing : List Line
  /-- The lines after it. -/
  after : List Line
deriving DecidableEq, Repr

namespace Region

/-- The lines of the region itself. -/
def lines (r : Region) : List Line := r.leading ++ r.core ++ r.trailing

/-- The text of the region. -/
def text (r : Region) : Text := unlines r.lines

/-- The place where the region starts, in bytes. -/
def start (r : Region) : Nat := Text.size (unlines r.before)

/-- The place right after the region, in bytes. -/
def stop (r : Region) : Nat := r.start + Text.size r.text

/-- All the lines that were searched. -/
def allLines (r : Region) : List Line := r.before ++ r.lines ++ r.after

/-- The region with one more line before it. -/
def below (l : Line) (r : Region) : Region := { r with before := l :: r.before }

@[simp] theorem allLines_below (l : Line) (r : Region) : (below l r).allLines = l :: r.allLines := rfl

end Region

namespace RegionShape

/-- The header lines at the front, under the first spelling that fits. -/
def header? (p : RegionShape) (ls : List Line) : Option (List Line × List Line) :=
  (p.header :: shortHeaders).findSome? fun h => opens? (commented h) ls

/-- A header, the comment lines below it and the empty lines after those. -/
def body? (p : RegionShape) (ls : List Line) : Option (List Line × List Line) :=
  (p.header? ls).map fun (head, rest) =>
    let comments := rest.takeWhile Line.isComment
    let rest := rest.dropWhile Line.isComment
    (head ++ comments ++ rest.takeWhile Line.isEmpty, rest.dropWhile Line.isEmpty)

/-- The same behind the opening marker. -/
def markedBody? (p : RegionShape) (ls : List Line) : Option (List Line × List Line) := do
  let (marker, rest) ← opens? (commented (← p.opening)) ls
  let (body, rest) ← p.body? rest
  return (marker ++ body, rest)

/-- The region at the front of the lines, if there is one.  With the opening marker comes first. -/
def cut? (p : RegionShape) (ls : List Line) : Option Region :=
  let (leading, rest) := splitEmptyLine ls
  (p.markedBody? rest <|> p.body? rest).map fun (body, after) =>
    ⟨[], leading, upToLastSolid body, closingBlanks body, after⟩

/-- The first region among the lines. -/
def first? (p : RegionShape) : List Line → Option Region
  | [] => none
  | l :: ls =>
    match p.cut? (l :: ls) with
    | some r => some r
    | none => (p.first? ls).map (Region.below l)

/-! ## The pieces make up the lines -/

theorem eq_of_header? {p : RegionShape} {ls taken rest : List Line}
    (h : p.header? ls = some (taken, rest)) : ls = taken ++ rest ∧ taken ≠ [] := by
  obtain ⟨lead, -, hl⟩ := List.exists_of_findSome?_eq_some h
  exact eq_of_opens? hl

theorem eq_of_body? {p : RegionShape} {ls taken rest : List Line}
    (h : p.body? ls = some (taken, rest)) : ls = taken ++ rest ∧ taken ≠ [] := by
  simp only [body?, Option.map_eq_some_iff, Prod.mk.injEq, Prod.exists] at h
  obtain ⟨head, tail, hh, rfl, rfl⟩ := h
  obtain ⟨rfl, hne⟩ := eq_of_header? hh
  simp [hne, List.append_assoc]

theorem eq_of_markedBody? {p : RegionShape} {ls taken rest : List Line}
    (h : p.markedBody? ls = some (taken, rest)) : ls = taken ++ rest ∧ taken ≠ [] := by
  simp only [markedBody?, Option.bind_eq_bind, Option.bind_eq_some_iff, Option.pure_def,
    Option.some.injEq, Prod.mk.injEq, Prod.exists] at h
  obtain ⟨m, -, marker, r, hm, body, r', hb, rfl, rfl⟩ := h
  obtain ⟨rfl, hne⟩ := eq_of_opens? hm
  obtain ⟨rfl, -⟩ := eq_of_body? hb
  simp [hne]

/-- A region cut off the front leaves the lines after it, and is not empty. -/
theorem lines_of_cut? {p : RegionShape} {ls : List Line} {r : Region} (h : p.cut? ls = some r) :
    r.before = [] ∧ r.lines ++ r.after = ls ∧ r.lines ≠ [] := by
  simp only [cut?, Option.map_eq_some_iff, Prod.exists] at h
  obtain ⟨body, after, hb, rfl⟩ := h
  have hbody : (splitEmptyLine ls).2 = body ++ after ∧ body ≠ [] := by
    cases hm : p.markedBody? (splitEmptyLine ls).2 with
    | none => exact eq_of_body? (by simpa [hm] using hb)
    | some x =>
      obtain rfl : x = (body, after) := by simpa [hm] using hb
      exact eq_of_markedBody? hm
  have hls := splitEmptyLine_append ls
  rw [hbody.1] at hls
  refine ⟨rfl, ?_, ?_⟩
  · simp [Region.lines, upToLastSolid_append, hls]
  · simp [Region.lines, List.append_assoc, upToLastSolid_append, hbody.2]

/-- **The five pieces of a region are the lines that were searched.** -/
theorem lines_of_first? {p : RegionShape} {ls : List Line} {r : Region}
    (h : p.first? ls = some r) : r.allLines = ls ∧ r.lines ≠ [] := by
  induction ls generalizing r with
  | nil => simp [first?] at h
  | cons l ls ih =>
    rw [first?] at h
    split at h
    · rename_i g hc
      cases h
      obtain ⟨hb, hl, hne⟩ := lines_of_cut? hc
      exact ⟨by simp [Region.allLines, hb, hl], hne⟩
    · obtain ⟨g, hg, rfl⟩ := Option.map_eq_some_iff.mp h
      obtain ⟨hl, hne⟩ := ih hg
      exact ⟨by simp [hl], hne⟩

/-- Fewer lines follow a region than were searched. -/
theorem after_length_lt {p : RegionShape} {ls : List Line} {r : Region}
    (h : p.first? ls = some r) : r.after.length < ls.length := by
  obtain ⟨hl, hne⟩ := lines_of_first? h
  have := List.length_pos_iff.mpr hne
  rw [← hl]
  simp only [Region.allLines, List.length_append]
  omega

/-! ## All regions, and regions of a text -/

/-- The regions among the lines, each one with the lines since the one before it.  The search goes
    on behind a region, and so on fewer lines. -/
def all (p : RegionShape) (ls : List Line) : List Region :=
  match _h : p.first? ls with
  | none => []
  | some r => r :: p.all r.after
termination_by ls.length
decreasing_by exact after_length_lt (by assumption)

/-- The first region among the lines, to be written in the stead of.  One whose blanks cannot be told
    from its text counts as none. -/
def located? (p : RegionShape) (ls : List Line) : Option Region :=
  (p.first? ls).filter fun r => (Text.surroundings? r.text).isSome

/-- **The blanks of a region can always be told**, as it ends in a newline. -/
theorem located?_eq (p : RegionShape) (ls : List Line) : p.located? ls = p.first? ls := by
  unfold located?
  cases h : p.first? ls with
  | none => rfl
  | some r =>
    obtain ⟨-, hne⟩ := lines_of_first? h
    obtain ⟨t, ht⟩ := exists_unlines_eq hne
    rw [Option.filter_some, Region.text, ht, if_pos (Text.isSome_surroundings?_append t)]

/-- The first region of a text. -/
def locate (p : RegionShape) (t : Text) : Option Region := p.located? (Lines.ofText t).ended

theorem locate_eq (p : RegionShape) (t : Text) : p.locate t = p.first? (Lines.ofText t).ended :=
  p.located?_eq _

/-- How many regions a text holds. -/
def count (p : RegionShape) (t : Text) : Nat := (p.all (Lines.ofText t).ended).length

/-- Whether a text holds a region. -/
def isMatch (p : RegionShape) (t : Text) : Bool := (p.first? (Lines.ofText t).ended).isSome

end RegionShape
end SchemaComment
