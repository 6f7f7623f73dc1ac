/-
  WRITING A FILE.

  There are three ways to bring a block into a file: anew before the body, anew behind it, and in
  the stead of the old block.  Each of them writes a layout.

  1. **Program** — `layoutBefore`, `layoutAfter` and `Layout.withCore`.
  2. **Specification** — each layout has the text that `regenerate` or `substitute` gives
     (`text_layoutBefore`, `text_layoutAfter`, `text_withCore`), and it fits, so it is read back as
     it was written (`fits_layoutBefore`, `fits_layoutAfter`, `fits_withCore`).
  3. **The crux** — writing anew trims the body where the block goes.  `trimStart` takes the blanks
     off the front of the first line that is not blank, so a comment that was indented can become a
     header (`hidesHeader`).  No other line of the body becomes one, and none does behind the body.
-/
import SchemaComment.Proofs.Layout
import SchemaComment.Proofs.Block
import SchemaComment.Placement

namespace SchemaComment

open Line

/-! ## What trimming leaves -/

/-- The lines of a text that begins with no blank: the first of them begins as the text does. -/
theorem head?_of_mem_head?_ended {t : Text} {l : Line} (h : l ∈ (Lines.ofText t).ended.head?)
    (ht : ∀ c ∈ t.head?, Text.isBlank c = false) : ∃ c r, l = c :: r ∧ t.head? = some c := by
  have hwhole := Lines.toText_ofText t
  cases hls : (Lines.ofText t).ended with
  | nil =>
    rw [hls] at h
    cases h
  | cons k ks =>
    rw [hls] at h
    obtain rfl := Option.some.inj h
    rw [Lines.toText, hls, unlines_cons] at hwhole
    cases k with
    | cons c r => exact ⟨c, r, rfl, by rw [← hwhole]; rfl⟩
    | nil =>
      have hblank := ht '\n' (by rw [← hwhole]; rfl)
      cases hblank

/-- Behind a trimmed front only the first line may be a header that the text did not have. -/
theorem headings_trimStart {t : Text} (h : ∀ l ∈ (Lines.ofText t).ended, isHeader l = false) :
    headings false (Lines.ofText (Text.trimStart t)).ended =
      if (Lines.ofText (Text.trimStart t)).ended.head?.any isHeader then 1 else 0 := by
  cases hls : (Lines.ofText (Text.trimStart t)).ended with
  | nil => rfl
  | cons l ls =>
    have hwhole := Lines.ended_of_append_right (u := t.takeWhile Text.isBlank) hls
    rw [Text.takeWhile_append_trimStart] at hwhole
    -- the lines below the first are lines of the text
    have hbelow : ∀ k ∈ ls, isHeader k = false := by
      intro k hk
      exact h k (by rw [hwhole]; simp [hk])
    rw [headings, headings_eq_zero hbelow, headings_eq_zero hbelow]
    rfl

/-- Where a text has no open end, it has none behind its trimmed front. -/
theorem tail_trimStart {t : Text} (h : (Lines.ofText t).tail = []) :
    (Lines.ofText (Text.trimStart t)).tail = [] := by
  rw [← Text.takeWhile_append_trimStart t, Lines.ofText_append, Lines.append] at h
  split at h
  · exact (List.append_eq_nil_iff.mp h).2
  · exact h

/-- The lines of a text whose end is trimmed, its last line ended by a break. -/
def trimmedLines (e : LineEnding) (t : Text) : List Line :=
  let s := Lines.ofText (Text.trimEnd t)
  s.ended ++ [s.tail ++ e.onLine []]

theorem unlines_trimmedLines (e : LineEnding) (t : Text) :
    unlines (trimmedLines e t) = Text.trimEnd t ++ e.text := by
  have hwhole := Lines.toText_ofText (Text.trimEnd t)
  rw [trimmedLines, unlines_append, ← LineEnding.append_text, ← List.append_assoc]
  rw [Lines.toText] at hwhole
  rw [hwhole]

theorem not_mem_trimmedLines (e : LineEnding) (t : Text) : ∀ l ∈ trimmedLines e t, '\n' ∉ l := by
  intro l hl
  rcases List.mem_append.mp hl with hl | hl
  · exact Lines.not_mem_ended_ofText _ l hl
  · rw [List.mem_singleton.mp hl]
    have htail := Lines.not_mem_tail_ofText (Text.trimEnd t)
    have hbreak := LineEnding.not_mem_onLine (List.not_mem_nil (a := '\n')) e
    simp [htail, hbreak]

/-- Trimming the end makes no line a header. -/
theorem not_isHeader_trimmedLines {t : Text} (h : ∀ l ∈ (Lines.ofText t).ended, isHeader l = false)
    (htail : isHeader (Lines.ofText t).tail = false) (e : LineEnding) :
    ∀ l ∈ trimmedLines e t, isHeader l = false := by
  have hwhole := Text.trimEnd_append_blankEnd t
  intro l hl
  rcases List.mem_append.mp hl with hl | hl
  · have hpre := Lines.ended_of_append_left (Text.trimEnd t) (Text.blankEnd t)
    rw [hwhole] at hpre
    exact h l (hpre.subset hl)
  · rw [List.mem_singleton.mp hl, isHeader_append_blank fun c hc => e.isBlank_of_mem_onLine_nil hc]
    have hpre := Lines.tail_of_append_left (Text.trimEnd t) (Text.blankEnd t)
    rw [hwhole] at hpre
    rcases hpre with ⟨k, hk, hpre⟩ | hpre
    · exact not_isHeader_of_begins hpre (h k hk)
    · exact not_isHeader_of_begins hpre htail

/-- A header that is left open is a header of the trimmed lines. -/
theorem exists_header_trimmedLines {t : Text} (h : isHeader (Lines.ofText t).tail = true)
    (e : LineEnding) : ∃ l ∈ trimmedLines e t, isHeader l = true := by
  have hsolid : ∃ c ∈ (Lines.ofText t).tail, Text.isBlank c = false := by
    obtain ⟨r, hr⟩ := isComment_iff.mp (isComment_of_isHeader h)
    exact ⟨'#', by simp [hr], Text.isBlank_hash⟩
  have hsplit := Text.trimEnd_append_blankEnd (Lines.ofText t).tail
  have htrimmed : Text.trimEnd t =
      unlines (Lines.ofText t).ended ++ Text.trimEnd (Lines.ofText t).tail := by
    conv => lhs; rw [← Lines.toText_ofText t]
    exact Text.trimEnd_append_of_solid hsolid _
  have hopen : '\n' ∉ Text.trimEnd (Lines.ofText t).tail := by
    have hplain := Lines.not_mem_tail_ofText t
    rw [← hsplit, List.mem_append, not_or] at hplain
    exact hplain.1
  have hread : Lines.ofText (Text.trimEnd t) =
      ⟨(Lines.ofText t).ended, Text.trimEnd (Lines.ofText t).tail⟩ := by
    rw [htrimmed]
    exact Lines.ofText_toText (s := ⟨(Lines.ofText t).ended, Text.trimEnd (Lines.ofText t).tail⟩)
      (Lines.not_mem_ended_ofText t) hopen
  refine ⟨Text.trimEnd (Lines.ofText t).tail ++ e.onLine [], by simp [trimmedLines, hread], ?_⟩
  rw [isHeader_append_blank fun c hc => e.isBlank_of_mem_onLine_nil hc]
  rwa [← hsplit, isHeader_append_blank fun c hc => Text.isBlank_of_mem_blankEnd hc] at h

/-- Trimming the end and ending the last line keeps the line ending. -/
theorem endsInReturn_trimmedLines (t : Text) :
    ∀ l ∈ (trimmedLines (LineEnding.detect t) t).head?,
      (endsInReturn l = true ↔ LineEnding.detect t = .crlf) := by
  intro l hl
  have hpre := Lines.ended_of_append_left (Text.trimEnd t) (Text.blankEnd t)
  rw [Text.trimEnd_append_blankEnd] at hpre
  cases hls : (Lines.ofText (Text.trimEnd t)).ended with
  | cons k ks =>
    -- the first line is one of the text itself
    rw [hls] at hpre
    obtain ⟨rest, hrest⟩ := hpre
    simp only [trimmedLines, hls] at hl
    obtain rfl := Option.some.inj hl
    exact LineEnding.endsInReturn_iff_of_head (by rw [← hrest]; rfl)
  | nil =>
    -- the text is one line, which the break has just ended
    simp only [trimmedLines, hls] at hl
    obtain rfl := Option.some.inj hl
    have hwhole := Lines.toText_ofText (Text.trimEnd t)
    rw [Lines.toText, hls, unlines_nil, List.nil_append] at hwhole
    rw [hwhole]
    cases LineEnding.detect t with
    | crlf => simp [LineEnding.onLine, withReturn, endsInReturn]
    | lf =>
      simp only [LineEnding.onLine, List.append_nil, reduceCtorEq, iff_false]
      intro hreturn
      have hlast : (Text.trimEnd t).getLast? = some '\r' := of_decide_eq_true hreturn
      have := Text.isBlank_getLast_trimEnd hlast
      cases this

namespace SourceFile

variable {p : RegionShape} {t : Text} {e : LineEnding} {core : List Line}

/-! ## The layouts -/

/-- Whether the first line of the body that is not blank is a header once its indentation is off. -/
def hidesHeader (f : SourceFile) : Bool :=
  (Lines.ofText (Text.trimStart f.body)).ended.head?.any isHeader

/-- The file written anew with its block before the body. -/
def layoutBefore (f : SourceFile) (e : LineEnding) (core : List Line) : Layout :=
  let rest := Lines.ofText (Text.trimStart f.body)
  { directives := f.directives
    region :=
      { before := []
        leading := if f.directives.isEmpty then [] else [e.onLine []]
        core := core
        trailing := if (Text.trimStart f.body).head? = some '#' then [e.onLine []] else []
        after := rest.ended }
    tail := rest.tail }

/-- The file written anew with its block behind the body.  What the body opens with may be more
    directives. -/
def layoutAfter (f : SourceFile) (e : LineEnding) (core : List Line) : Layout :=
  let front := trimmedLines e f.body
  { directives := f.directives ++ front.takeWhile Line.isDirective
    region :=
      { before := front.dropWhile Line.isDirective
        leading := [e.onLine []]
        core := core
        trailing := []
        after := [] }
    tail := [] }

theorem text_layoutBefore (f : SourceFile) (e : LineEnding) (core : List Line) :
    (f.layoutBefore e core).text = f.regenerate (unlines core) .before e := by
  have hwhole := Lines.toText_ofText (Text.trimStart f.body)
  rw [Lines.toText] at hwhole
  have hseam : unlines (if f.directives.isEmpty then [] else [e.onLine []]) =
      if f.directives.isEmpty then [] else e.text := by
    split
    · rfl
    · exact e.unlines_onLine_nil
  have hgap : unlines (if (Text.trimStart f.body).head? = some '#' then [e.onLine []] else []) =
      if (Text.trimStart f.body).head? = some '#' then e.text else [] := by
    split
    · exact e.unlines_onLine_nil
    · rfl
  simp only [Layout.text, Layout.lines, layoutBefore, Region.allLines, Region.lines, unlines_append,
    List.nil_append, List.append_assoc, regenerate, directiveText, hseam, hgap]
  rw [hwhole]

theorem text_layoutAfter (f : SourceFile) (e : LineEnding) (core : List Line) :
    (f.layoutAfter e core).text = f.regenerate (unlines core) .after e := by
  have hfront := unlines_trimmedLines e f.body
  rw [← List.takeWhile_append_dropWhile (p := Line.isDirective) (l := trimmedLines e f.body),
    unlines_append] at hfront
  simp only [Layout.text, Layout.lines, layoutAfter, Region.allLines, Region.lines, unlines_append,
    List.append_nil, List.append_assoc, regenerate, directiveText, e.unlines_onLine_nil]
  rw [← List.append_assoc (unlines (List.takeWhile _ _)), hfront, List.append_assoc]

theorem text_withCore {f : SourceFile} {r : Region} (h : f.region = some r) (core : List Line) :
    ((f.layout r).withCore core).text = f.substitute (unlines core) := by
  simp [Layout.text, Layout.lines, Layout.withCore, layout, Region.allLines, Region.lines, substitute,
    h, directiveText]

/-! ## The lines of the layouts -/

theorem mem_lines_layoutBefore {f : SourceFile} {l : Line}
    (h : l ∈ (f.layoutBefore e core).lines) :
    l ∈ f.directives ∨ l = e.onLine [] ∨ l ∈ core ∨
      l ∈ (Lines.ofText (Text.trimStart f.body)).ended := by
  simp only [Layout.lines, layoutBefore, Region.allLines, Region.lines, List.nil_append,
    List.mem_append] at h
  rcases h with h | ((h | h) | h) | h
  · exact Or.inl h
  · split at h
    · cases h
    · exact Or.inr (Or.inl (List.mem_singleton.mp h))
  · exact Or.inr (Or.inr (Or.inl h))
  · split at h
    · exact Or.inr (Or.inl (List.mem_singleton.mp h))
    · cases h
  · exact Or.inr (Or.inr (Or.inr h))

theorem lines_layoutAfter (f : SourceFile) (e : LineEnding) (core : List Line) :
    (f.layoutAfter e core).lines = f.directives ++ trimmedLines e f.body ++ e.onLine [] :: core := by
  simp only [Layout.lines, layoutAfter, Region.allLines, Region.lines, List.append_nil,
    List.append_assoc]
  rw [← List.append_assoc (List.takeWhile _ _), List.takeWhile_append_dropWhile]
  rfl

theorem mem_lines_layoutAfter {f : SourceFile} {l : Line} (h : l ∈ (f.layoutAfter e core).lines) :
    l ∈ f.directives ∨ l = e.onLine [] ∨ l ∈ core ∨ l ∈ trimmedLines e f.body := by
  rw [lines_layoutAfter, List.mem_append, List.mem_append, List.mem_cons] at h
  rcases h with (h | h) | h | h <;> simp [h]

end SourceFile

theorem Layout.mem_lines_withCore {L : Layout} {core : List Line} {l : Line}
    (h : l ∈ (L.withCore core).lines) : l ∈ core ∨ l ∈ L.lines := by
  simp only [Layout.lines, Layout.withCore, Region.allLines, Region.lines, List.mem_append] at h ⊢
  rcases h with h | (h | (h | h) | h) | h <;> simp [h]

namespace SourceFile

variable {p : RegionShape} {t : Text} {e : LineEnding} {core : List Line}

/-! ## The layouts fit -/

/-- No line of a file holds a newline. -/
theorem not_mem_lines_ofText (p : RegionShape) (t : Text) :
    (∀ l ∈ (ofText p t).directives, '\n' ∉ l) ∧ (∀ l ∈ (ofText p t).rest.ended, '\n' ∉ l) := by
  have hmem := Lines.not_mem_ended_ofText t
  rw [lines_ofText p t] at hmem
  exact ⟨fun l hl => hmem l (List.mem_append_left _ hl),
    fun l hl => hmem l (List.mem_append_right _ hl)⟩

/-- **The gap ends the region**: it is there exactly where a comment would follow. -/
theorem ends_gap {u : Text} (hu : ∀ c ∈ u.head?, Text.isBlank c = false) (e : LineEnding) :
    RegionShape.Ends (if u.head? = some '#' then [e.onLine []] else []) (Lines.ofText u).ended := by
  refine ⟨?_, ?_, ?_⟩
  · -- the gap is an empty line
    intro l hl
    split at hl
    · rw [List.mem_singleton.mp hl]
      exact e.isEmpty_onLine_nil
    · cases hl
  · -- the text begins with no blank, so its first line is not empty
    intro l hl
    obtain ⟨c, r, rfl, hc⟩ := head?_of_mem_head?_ended hl hu
    cases he : Line.isEmpty (c :: r) with
    | false => rfl
    | true =>
      have hall := isBlank_of_isEmpty he
      simp [Line.isBlank, hu c hc] at hall
  · -- without a gap the text begins with no comment
    intro hgap l hl
    obtain ⟨c, r, rfl, hc⟩ := head?_of_mem_head?_ended hl hu
    split at hgap
    · cases hgap
    · rename_i hne
      rw [hc] at hne
      exact decide_eq_false hne

theorem fits_layoutBefore {q : RegionShape} (hcore : q.IsCore core)
    (hplain : ∀ l ∈ core, '\n' ∉ l) : ((ofText p t).layoutBefore e core).Fits q := by
  have hbreak : '\n' ∉ e.onLine [] := LineEnding.not_mem_onLine List.not_mem_nil e
  have hleading : ((ofText p t).layoutBefore e core).region.leading = [] ∨
      ∃ l, Line.isEmpty l = true ∧ ((ofText p t).layoutBefore e core).region.leading = [l] := by
    by_cases hd : (ofText p t).directives.isEmpty = true
    · exact Or.inl (if_pos hd)
    · exact Or.inr ⟨_, e.isEmpty_onLine_nil, if_neg hd⟩
  have hends := ends_gap (fun _ hc => Text.isBlank_head_trimStart (t := (ofText p t).body) hc) e
  have hregion : ((ofText p t).layoutBefore e core).region.Fits q := by
    -- with nothing before it a region starts where it should
    refine ⟨?_, hleading, hcore, hends, ?_, ?_⟩
    · intro l hl
      cases hl
    · intro _ l hl
      cases hl
    · intro _ _ l hl
      cases hl
  refine ⟨(directives_ofText p t).1, hregion, ?_, Lines.not_mem_tail_ofText _⟩
  intro l hl
  rcases mem_lines_layoutBefore hl with hl | rfl | hl | hl
  · exact (not_mem_lines_ofText p t).1 l hl
  · exact hbreak
  · exact hplain l hl
  · exact Lines.not_mem_ended_ofText _ l hl

/-- No line that is written behind the body holds a newline. -/
theorem not_mem_lines_layoutAfter (p : RegionShape) (t : Text) (e : LineEnding)
    (hplain : ∀ l ∈ core, '\n' ∉ l) :
    ∀ l ∈ ((ofText p t).layoutAfter e core).lines, '\n' ∉ l := by
  intro l hl
  rcases mem_lines_layoutAfter hl with hl | rfl | hl | hl
  · exact (not_mem_lines_ofText p t).1 l hl
  · exact LineEnding.not_mem_onLine List.not_mem_nil e
  · exact hplain l hl
  · exact not_mem_trimmedLines e _ l hl

/-- What is written behind the body is read back line by line. -/
theorem ofText_text_layoutAfter (p : RegionShape) (t : Text) (e : LineEnding)
    (hplain : ∀ l ∈ core, '\n' ∉ l) : Lines.ofText ((ofText p t).layoutAfter e core).text =
      ⟨((ofText p t).layoutAfter e core).lines, []⟩ :=
  Lines.ofText_toText (s := ⟨((ofText p t).layoutAfter e core).lines, []⟩)
    (not_mem_lines_layoutAfter p t e hplain) List.not_mem_nil

theorem fits_layoutAfter {q : RegionShape} (hp : p.IsSingleLine)
    (hone : (ofText p t).regionCount ≤ 1) (htail : isHeader (Lines.ofText t).tail = false)
    (hcore : q.IsCore core) (hplain : ∀ l ∈ core, '\n' ∉ l) :
    ((ofText p t).layoutAfter e core).Fits q := by
  have hbody := ofText_body hp t
  have hnone : ∀ l ∈ trimmedLines e (ofText p t).body, isHeader l = false := by
    refine not_isHeader_trimmedLines ?_ ?_ e
    · rw [hbody]
      exact not_isHeader_bodyLines hp hone
    · rw [hbody]
      rw [lines_ofText p t] at htail
      exact htail
  have hregion : ((ofText p t).layoutAfter e core).region.Fits q := by
    -- with an empty line of its own a region starts where it should
    refine ⟨?_, Or.inr ⟨_, e.isEmpty_onLine_nil, rfl⟩, hcore, RegionShape.Ends.nil, ?_, ?_⟩
    · intro l hl
      exact hnone l ((List.dropWhile_suffix _).subset hl)
    · intro hl
      cases hl
    · intro hl
      cases hl
  refine ⟨?_, hregion, not_mem_lines_layoutAfter p t e hplain, List.not_mem_nil⟩
  intro l hl
  rcases List.mem_append.mp hl with hl | hl
  · exact (directives_ofText p t).1 l hl
  · exact List.all_eq_true.mp List.all_takeWhile l hl

/-- **A header that was left open** is a second one beside the block that is written behind it. -/
theorem two_le_headings_layoutAfter {q : RegionShape} (hp : p.IsSingleLine)
    (htail : isHeader (Lines.ofText t).tail = true) (hcore : q.IsCore core) (e : LineEnding) :
    2 ≤ headings false ((ofText p t).layoutAfter e core).lines := by
  have hbody : isHeader (Lines.ofText (ofText p t).body).tail = true := by
    rw [ofText_body hp]
    rw [lines_ofText p t] at htail
    exact htail
  obtain ⟨l, hl, hh⟩ := exists_header_trimmedLines hbody e
  have hfront : headings false ((ofText p t).directives ++ trimmedLines e (ofText p t).body) ≠ 0 := by
    intro hnone
    rw [headings_eq_zero_iff.mp hnone l (List.mem_append_right _ hl)] at hh
    cases hh
  have hback : headings false core ≠ 0 := by
    intro hnone
    obtain ⟨k, hk, hhk⟩ := hcore.header
    rw [headings_eq_zero_iff.mp hnone k hk] at hhk
    cases hhk
  rw [lines_layoutAfter, headings_append_cons (not_isComment_of_isEmpty e.isEmpty_onLine_nil)]
  omega

end SourceFile

/-- With another core a region has the first line that it had, or that of the core. -/
theorem Region.head?_withCore (r : Region) {core : List Line} (h : core ≠ []) :
    ({ r with core := core } : Region).allLines.head? = r.allLines.head? ∨
      ({ r with core := core } : Region).allLines.head? = core.head? := by
  obtain ⟨before, leading, old, trailing, after⟩ := r
  obtain ⟨c, cs, rfl⟩ := List.exists_cons_of_ne_nil h
  cases before with
  | cons b bs => exact Or.inl rfl
  | nil =>
    cases leading with
    | cons b bs => exact Or.inl rfl
    | nil => exact Or.inr rfl

/-- A region still fits with another core, if this one begins with the marker where there is one. -/
theorem Region.Fits.withCore {p : RegionShape} {r : Region} {core : List Line} (h : r.Fits p)
    (hcore : p.IsCore core)
    (hmarks : (∀ l ∈ core.head?, isHeader l = true) → ∀ l, p.marks l = true → isHeader l = true) :
    ({ r with core := core } : Region).Fits p := by
  refine ⟨h.before, h.leading, hcore, h.ends, h.start_empty, ?_⟩
  intro _ hhead l hl
  cases hm : p.marks l with
  | false => rfl
  | true =>
    have hheader := hmarks hhead l hm
    rw [h.before l (List.mem_of_getLast? hl)] at hheader
    cases hheader

/-- The same for a layout. -/
theorem Layout.Fits.withCore {p : RegionShape} {L : Layout} {core : List Line} (h : L.Fits p)
    (hcore : p.IsCore core) (hplain : ∀ l ∈ core, '\n' ∉ l)
    (hmarks : (∀ l ∈ core.head?, isHeader l = true) → ∀ l, p.marks l = true → isHeader l = true) :
    (L.withCore core).Fits p := by
  refine ⟨h.directive, Region.Fits.withCore h.region hcore hmarks, ?_, h.open_end⟩
  intro l hl
  rcases Layout.mem_lines_withCore hl with hl | hl
  · exact hplain l hl
  · exact h.plain l hl

theorem SourceFile.fits_withCore {p : RegionShape} {t : Text} {core : List Line}
    (hp : p.IsSingleLine) {r : Region} (h : (ofText p t).region = some r) (hcore : p.IsCore core)
    (hplain : ∀ l ∈ core, '\n' ∉ l)
    (hmarks : (∀ l ∈ core.head?, isHeader l = true) → ∀ l, p.marks l = true → isHeader l = true) :
    (((ofText p t).layout r).withCore core).Fits p :=
  (fits_layout hp h).1.withCore hcore hplain hmarks
end SchemaComment
