/-
  STRIPPING A FILE.

  Annotating looks for the region of a file behind its directives.  Stripping looks for it in the
  whole file, the directives among the lines that it goes through.

  1. **Program** — `strip`, and in it `RegionShape.locate` and `RegionShape.count`.
  2. **Specification** — `strip_text`: what stripping makes of a file that lies as a layout says.
     `strip_sees_region`: both ways of looking count alike, and they find the region in the same
     place exactly where it does not reach back.
  3. **The crux** — the lines above a region have a say only in where it starts.  A directive is
     neither a header nor an empty line, so it can only come in as the opening marker: the last one,
     right above the header (`Layout.reachesBack`).  Nothing keeps a marker from beginning as a
     directive does, and an empty marker begins every comment.
-/
import SchemaComment.Proofs.Annotated

namespace SchemaComment

open Line

/-! ## Stripping -/

section Strip

variable {o : Options} {path : String} {t u : Text}

/-- **When stripping gives a text**: the file has not opted out and has one region. -/
theorem strip_eq_some_iff :
    strip o path t = .ok (some u) ↔ optedOut t = false ∧ o.shape.count t ≤ 1 ∧
      ∃ r, o.shape.first? (Lines.ofText t).ended = some r ∧
        unlines (r.before ++ r.after) ++ (Lines.ofText t).tail = u := by
  unfold strip
  rw [RegionShape.locate_eq]
  cases hout : optedOut t with
  | true => simp
  | false =>
    by_cases hmany : 1 < o.shape.count t
    · simp [hmany, Nat.not_le.mpr hmany]
    · have hone : o.shape.count t ≤ 1 := by omega
      simp only [hmany, hone, Bool.false_eq_true, if_false, Except.ok.injEq, Option.map_eq_some_iff]
      simp

/-- **When stripping finds several regions.** -/
theorem strip_eq_severalRegions_iff {n : Nat} :
    strip o path t = .error (.severalRegions path n) ↔
      optedOut t = false ∧ 1 < n ∧ o.shape.count t = n := by
  unfold strip
  cases hout : optedOut t with
  | true => simp
  | false =>
    by_cases hmany : 1 < o.shape.count t
    · simp only [hmany, Bool.false_eq_true, if_false, if_true, Except.error.injEq,
        Fault.severalRegions.injEq, true_and]
      constructor
      · rintro rfl
        exact ⟨hmany, rfl⟩
      · exact fun h => h.2
    · simp only [hmany, Bool.false_eq_true, if_false, true_and]
      constructor
      · intro h
        cases h
      · rintro ⟨hn, rfl⟩
        exact absurd hn hmany

/-- A stripped text has the lines around the region. -/
theorem exists_region_of_strip (hw : o.wrapper.IsSingleLine) (h : strip o path t = .ok (some u)) :
    ∃ r : Region, r.Fits o.shape ∧ r.allLines = (Lines.ofText t).ended ∧
      o.shape.count t ≤ 1 ∧ Lines.ofText u = ⟨r.before ++ r.after, (Lines.ofText t).tail⟩ := by
  obtain ⟨-, hone, r, hr, rfl⟩ := strip_eq_some_iff.mp h
  obtain ⟨hall, hfits⟩ := (RegionShape.first?_eq_some_iff (Options.isSingleLine_shape hw)).mp hr
  refine ⟨r, hfits, hall, hone, ?_⟩
  refine Lines.ofText_toText (s := ⟨r.before ++ r.after, (Lines.ofText t).tail⟩) ?_
    (Lines.not_mem_tail_ofText t)
  intro l hl
  refine Lines.not_mem_ended_ofText t l ?_
  rw [← hall]
  exact Region.mem_allLines_of_around hl

/-- **A stripped text has no header**, and no open end where there was none. -/
theorem headings_stripped (hw : o.wrapper.IsSingleLine) (h : strip o path t = .ok (some u)) :
    headings false (Lines.ofText u).ended = 0 ∧ (Lines.ofText u).tail = (Lines.ofText t).tail := by
  obtain ⟨r, hfits, hall, hone, hlines⟩ := exists_region_of_strip hw h
  rw [RegionShape.count_eq (Options.isSingleLine_shape hw), ← hall] at hone
  rw [hlines]
  exact ⟨headings_eq_zero_iff.mpr (not_isHeader_around hfits hone), rfl⟩

end Strip

/-! ## Lines above a region -/

namespace Region

/-- Whether the region starts with its header, on the first line that was searched. -/
def startsWithHeader (r : Region) : Bool :=
  r.before.isEmpty && r.leading.isEmpty && r.core.head?.any isHeader

theorem startsWithHeader_iff {r : Region} :
    r.startsWithHeader = true ↔ r.before = [] ∧ r.leading = [] ∧ r.core.head?.any isHeader = true := by
  simp [startsWithHeader, and_assoc]

/-- **Directives above a region** leave it where it starts, unless the last of them can be its
    opening marker. -/
theorem Fits.behind {p : RegionShape} {r : Region} {ds : List Line} (h : r.Fits p)
    (hds : ∀ l ∈ ds, Line.isDirective l = true)
    (hstart : r.startsWithHeader = true → ∀ l ∈ ds.getLast?, p.marks l = false) :
    Region.Fits p { r with before := ds ++ r.before } := by
  -- the line above the region is the one that was there, or the last directive
  have hlast : ∀ l ∈ (ds ++ r.before).getLast?,
      l ∈ r.before.getLast? ∨ r.before = [] ∧ l ∈ ds.getLast? := by
    intro l hl
    rw [List.getLast?_append, Option.mem_def, Option.or_eq_some_iff, List.getLast?_eq_none_iff] at hl
    exact hl
  refine ⟨?_, h.leading, h.core, h.ends, ?_, ?_⟩
  · intro l hl
    rcases List.mem_append.mp hl with hl | hl
    · exact not_isHeader_of_isDirective (hds l hl)
    · exact h.before l hl
  · intro hlead l hl
    rcases hlast l hl with hl | ⟨-, hl⟩
    · exact h.start_empty hlead l hl
    · exact not_isEmpty_of_isDirective (hds l (List.mem_of_getLast? hl))
  · intro hlead hhead l hl
    rcases hlast l hl with hl | ⟨hbefore, hl⟩
    · exact h.start_marker hlead hhead l hl
    · have hcore : p.IsCore r.core := h.core
      obtain ⟨c, cs, hcs⟩ := List.exists_cons_of_ne_nil hcore.ne_nil
      have hc : isHeader c = true := hhead c (by simp [hcs])
      exact hstart (startsWithHeader_iff.mpr ⟨hbefore, hlead, by simp [hcs, hc]⟩) l hl

/-- A directive right above the header is the opening marker, if it begins as that does. -/
theorem Fits.taking {p : RegionShape} {r : Region} {ds : List Line} {m : Line} (h : r.Fits p)
    (hds : ∀ l ∈ ds ++ [m], Line.isDirective l = true) (hm : p.marks m = true)
    (hstart : r.startsWithHeader = true) :
    Region.Fits p { r with before := ds, core := m :: r.core } := by
  obtain ⟨-, hlead, hhead⟩ := startsWithHeader_iff.mp hstart
  have hcore : p.IsCore r.core := h.core
  obtain ⟨c, cs, hcs⟩ := List.exists_cons_of_ne_nil hcore.ne_nil
  have habove : ∀ l ∈ ds, Line.isDirective l = true := fun l hl => hds l (List.mem_append_left _ hl)
  refine ⟨fun l hl => not_isHeader_of_isDirective (habove l hl), Or.inl hlead, ?_, h.ends, ?_, ?_⟩
  · rw [hcs] at hhead ⊢
    exact .marked hm hhead fun l hl => hcore.comment l (by rw [hcs]; exact List.mem_cons_of_mem c hl)
  · intro _ l hl
    exact not_isEmpty_of_isDirective (habove l (List.mem_of_getLast? hl))
  · -- the region starts at its marker now, which is no header
    intro _ hheader
    have := hheader m rfl
    rw [not_isHeader_of_isDirective (hds m (by simp))] at this
    cases this

end Region

/-! ## The region of a whole file -/

namespace Layout

variable {p : RegionShape} {L : Layout}

/-- Whether the last directive reads as the opening marker of the region, which starts with its
    header right below it. -/
def reachesBack (p : RegionShape) (L : Layout) : Bool :=
  L.region.startsWithHeader && L.directives.getLast?.any p.marks

/-- The directives that a search of the whole file leaves before the region. -/
def keptDirectives (p : RegionShape) (L : Layout) : List Line :=
  if L.reachesBack p then L.directives.dropLast else L.directives

/-- The directive that a search of the whole file takes into the region, if it takes one. -/
def takenDirectives (p : RegionShape) (L : Layout) : List Line :=
  if L.reachesBack p then L.directives.getLast?.toList else []

/-- The region that a search of the whole file finds. -/
def wholeRegion (p : RegionShape) (L : Layout) : Region :=
  { L.region with
    before := L.keptDirectives p ++ L.region.before
    core := L.takenDirectives p ++ L.region.core }

/-- A region that does not reach back has the directives above it. -/
theorem wholeRegion_of_not_reachesBack (h : L.reachesBack p = false) :
    L.wholeRegion p = { L.region with before := L.directives ++ L.region.before } := by
  simp [wholeRegion, keptDirectives, takenDirectives, h]

/-- A region that reaches back has the last directive in front of its header. -/
theorem wholeRegion_of_reachesBack (h : L.reachesBack p = true) :
    L.region.startsWithHeader = true ∧ ∃ ds m, L.directives = ds ++ [m] ∧ p.marks m = true ∧
      L.wholeRegion p = { L.region with before := ds, core := m :: L.region.core } := by
  have hback := h
  simp only [reachesBack, Bool.and_eq_true, Option.any_eq_true] at hback
  obtain ⟨hstart, m, hlast, hm⟩ := hback
  obtain ⟨ds, hds⟩ := List.getLast?_eq_some_iff.mp hlast
  have hbefore := (Region.startsWithHeader_iff.mp hstart).1
  exact ⟨hstart, ds, m, hds, hm,
    by simp [wholeRegion, keptDirectives, takenDirectives, h, hds, hbefore]⟩

/-- **The region of the whole file fits** among all of its lines. -/
theorem fits_wholeRegion (h : L.Fits p) :
    (L.wholeRegion p).Fits p ∧ (L.wholeRegion p).allLines = L.lines := by
  cases hb : L.reachesBack p with
  | false =>
    have hstart : L.region.startsWithHeader = true →
        ∀ l ∈ L.directives.getLast?, p.marks l = false := by
      intro hs l hl
      rw [reachesBack, hs, Bool.true_and, Option.mem_def.mp hl] at hb
      exact hb
    rw [wholeRegion_of_not_reachesBack hb]
    exact ⟨h.region.behind h.directive hstart, by simp [Region.allLines, Region.lines, lines]⟩
  | true =>
    obtain ⟨hstart, ds, m, hds, hm, hwhole⟩ := wholeRegion_of_reachesBack hb
    obtain ⟨hbefore, hlead, -⟩ := Region.startsWithHeader_iff.mp hstart
    have hdirective := h.directive
    rw [hds] at hdirective
    rw [hwhole]
    exact ⟨h.region.taking hdirective hm hstart,
      by simp [Region.allLines, Region.lines, lines, hds, hbefore, hlead]⟩

/-- **What a search of the whole file finds.** -/
theorem locate_text (hp : p.IsSingleLine) (h : L.Fits p) :
    p.locate L.text = some (L.wholeRegion p) := by
  obtain ⟨hfits, hall⟩ := fits_wholeRegion h
  rw [RegionShape.locate_eq, ofText_text h]
  exact (RegionShape.first?_eq_some_iff hp).mpr ⟨hall, hfits⟩

/-- A region whose markers are all headers does not reach back. -/
theorem not_reachesBack_of_marks (h : L.Fits p)
    (hmarks : L.region.core.head?.any isHeader = true → ∀ l, p.marks l = true → isHeader l = true) :
    L.reachesBack p = false := by
  cases hb : L.reachesBack p with
  | false => rfl
  | true =>
    obtain ⟨hstart, ds, m, hds, hm, -⟩ := wholeRegion_of_reachesBack hb
    have hheader := hmarks (Region.startsWithHeader_iff.mp hstart).2.2 m hm
    rw [not_isHeader_of_isDirective (h.directive m (by simp [hds]))] at hheader
    cases hheader

end Layout

section Strip

variable {o : Options} {L : Layout}

/-- **What stripping makes of a file.** -/
theorem strip_text (path : String) (hp : o.shape.IsSingleLine) (h : L.Fits o.shape)
    (hout : optedOut L.text = false) :
    strip o path L.text =
      if headings false L.region.after = 0 then
        .ok (some (unlines (L.keptDirectives o.shape) ++
          (unlines (L.region.before ++ L.region.after) ++ L.tail)))
      else .error (.severalRegions path (headings false L.region.after + 1)) := by
  have hcount := Layout.count_text h hp
  split
  · rename_i hnone
    refine strip_eq_some_iff.mpr ⟨hout, by omega, _,
      (o.shape.locate_eq L.text).symm.trans (Layout.locate_text hp h), ?_⟩
    rw [Layout.ofText_text h]
    simp [Layout.wholeRegion, List.append_assoc]
  · rename_i hmore
    exact strip_eq_severalRegions_iff.mpr ⟨hout, by omega, hcount⟩

end Strip

/-! ## Two ways of looking -/

/-- A line and its break take up room. -/
theorem size_unlines_lt (ds : List Line) (m : Line) :
    Text.size (unlines ds) < Text.size (unlines (ds ++ [m])) := by
  have hbreak : Text.size ['\n'] = 1 := rfl
  rw [unlines_append, Text.size_append, unlines_cons, unlines_nil, Text.size_append, hbreak]
  omega

namespace SourceFile

variable {p : RegionShape} {f : SourceFile} {r : Region}

/-- Whether the last directive reads as the opening marker of the region. -/
def reachesBack (p : RegionShape) (f : SourceFile) : Bool :=
  f.region.any fun r => (f.layout r).reachesBack p

theorem reachesBack_of_region (h : f.region = some r) :
    f.reachesBack p = (f.layout r).reachesBack p := by
  simp [reachesBack, h]

/-- **Where the region of the whole file lies**: where it lies behind the directives, unless it
    reaches back. -/
theorem span_wholeRegion_iff (p : RegionShape) (h : f.region = some r) :
    some (((f.layout r).wholeRegion p).start, ((f.layout r).wholeRegion p).stop) = f.regionSpan ↔
      (f.layout r).reachesBack p = false := by
  have hspan : f.regionSpan =
      some (f.directiveText.size + r.start, f.directiveText.size + r.stop) := by
    simp [regionSpan, h]
  rw [hspan]
  cases hb : (f.layout r).reachesBack p with
  | false =>
    rw [Layout.wholeRegion_of_not_reachesBack hb]
    simp [layout, Region.start, Region.stop, Region.text, Region.lines, directiveText, Nat.add_assoc]
  | true =>
    obtain ⟨hstart, ds, m, hds, -, hwhole⟩ := Layout.wholeRegion_of_reachesBack hb
    have hdirectives : f.directives = ds ++ [m] := hds
    have hbefore : r.before = [] := (Region.startsWithHeader_iff.mp hstart).1
    -- the region starts earlier, by the directive that it takes
    have hlater : f.directiveText.size + r.start = Text.size (unlines (ds ++ [m])) := by
      simp [directiveText, hdirectives, Region.start, hbefore]
    have hlt := size_unlines_lt ds m
    rw [hwhole, hlater]
    simp only [Region.start, Option.some.injEq, Prod.mk.injEq, Bool.true_eq_false, iff_false, not_and]
    intro hsame
    omega

end SourceFile

/-- **What stripping makes of a file with a region**, told by how annotating takes it apart. -/
theorem strip_of_region {o : Options} {c : Text} (path : String) (hp : o.shape.IsSingleLine)
    {r : Region} (hr : (SourceFile.ofText o.shape c).region = some r) (hout : optedOut c = false) :
    let f := SourceFile.ofText o.shape c
    strip o path c =
      if f.regionCount ≤ 1 then
        .ok (some (unlines (if f.reachesBack o.shape then f.directives.dropLast else f.directives) ++
          f.body))
      else .error (.severalRegions path f.regionCount) := by
  intro f
  obtain ⟨hfits, htext, -⟩ := SourceFile.fits_layout hp hr
  have hcount : f.regionCount = headings false r.after + 1 := SourceFile.regionCount_of_region hp hr
  have hstrip := strip_text path hp hfits (by rw [htext]; exact hout)
  rw [htext] at hstrip
  have hkept : (f.layout r).keptDirectives o.shape =
      if f.reachesBack o.shape then f.directives.dropLast else f.directives := by
    rw [SourceFile.reachesBack_of_region hr]
    rfl
  have hbody : f.body = unlines (r.before ++ r.after) ++ f.rest.tail := by
    simp only [SourceFile.body, show f.region = some r from hr]
  rw [hstrip, hcount, ← hkept, hbody]
  by_cases hnone : headings false r.after = 0
  · exact (if_pos hnone).trans (if_pos (by omega)).symm
  · exact (if_neg hnone).trans (if_neg (by omega)).symm

/-- **Stripping and annotating see the same regions.**  They count as many, and they find the first
    in the same place exactly where it does not reach back.  Stripping keeps the directives, but
    for the one that the region takes in when it does. -/
theorem strip_sees_region {o : Options} {c : Text} (path : String)
    (hopen : ∀ m ∈ o.wrapper.opening, '\n' ∉ m) :
    let f := SourceFile.ofText o.shape c
    o.shape.count c = f.regionCount ∧
      ((o.shape.locate c).map (fun r => (r.start, r.stop)) = f.regionSpan ↔
        f.reachesBack o.shape = false) ∧
      ∀ s, strip o path c = .ok (some s) →
        s = unlines (if f.reachesBack o.shape then f.directives.dropLast else f.directives) ++
          f.body := by
  intro f
  have hp := Options.isSingleLine_shape_of_opening hopen
  have hcount : o.shape.count c = f.regionCount := SourceFile.count_eq_regionCount hp hp c
  refine ⟨hcount, ?_⟩
  cases hr : f.region with
  | none =>
    -- without a header behind the directives there is none in the whole file
    have hzero : f.regionCount = 0 := by
      have hnone := (SourceFile.region_eq_none_iff hp).mp hr
      exact (SourceFile.regionCount_ofText hp c).trans (headings_eq_zero hnone false)
    have hlocate : o.shape.locate c = none := by
      rw [RegionShape.locate_eq, RegionShape.first?_eq_none_iff hp, ← headings_eq_zero_iff,
        ← RegionShape.count_eq hp, hcount, hzero]
    refine ⟨by simp [hlocate, SourceFile.regionSpan, SourceFile.reachesBack, hr], fun s hs => ?_⟩
    obtain ⟨-, -, r, hfound, -⟩ := strip_eq_some_iff.mp hs
    rw [← RegionShape.locate_eq, hlocate] at hfound
    cases hfound
  | some r =>
    obtain ⟨hfits, htext, -⟩ := SourceFile.fits_layout hp hr
    have hlocate := Layout.locate_text hp hfits
    rw [htext] at hlocate
    refine ⟨?_, fun s hs => ?_⟩
    · rw [hlocate, SourceFile.reachesBack_of_region hr]
      exact SourceFile.span_wholeRegion_iff o.shape hr
    · obtain ⟨hout, -⟩ := strip_eq_some_iff.mp hs
      rw [strip_of_region path hp hr hout] at hs
      split at hs
      · cases hs
        rfl
      · cases hs

theorem strip_typedAnnotated : strip {} "user.rb" typedAnnotated = .ok (some typedText) :=
  strip_eq_some_iff.mpr ⟨by decide,
    by rw [RegionShape.count_eq isSingleLine_usual]; decide, _, rfl, by decide⟩

/-- Options with an empty opening marker. -/
def emptyMarker : Options := { wrapper := ⟨some [], none⟩ }

theorem isSingleLine_emptyMarker : emptyMarker.shape.IsSingleLine :=
  Options.isSingleLine_shape ⟨by decide, by decide⟩

/-- A file whose header stands right below a directive. -/
def directedText : Text := "# typed: true\n# == Schema Info\n#  id :integer\nclass User\nend\n".toList

/-- The same file without its directive and its schema comment. -/
def undirectedText : Text := "class User\nend\n".toList

theorem strip_directedText :
    strip emptyMarker "user.rb" directedText = .ok (some undirectedText) :=
  strip_eq_some_iff.mpr ⟨by decide,
    by rw [RegionShape.count_eq isSingleLine_emptyMarker]; decide, _, rfl, by decide⟩

/-- An empty marker takes the directive in, and stripping takes it out with the region. -/
theorem strip_sees_region_directedText :
    let f := SourceFile.ofText emptyMarker.shape directedText
    emptyMarker.shape.count directedText = 1 ∧
      (emptyMarker.shape.locate directedText).map (fun r => (r.start, r.stop)) ≠ f.regionSpan ∧
      f.body = undirectedText ∧ f.directives.length = 1 ∧
      strip emptyMarker "user.rb" directedText = .ok (some (unlines f.directives.dropLast ++ f.body)) := by
  intro f
  obtain ⟨hcount, hspan, hstrip⟩ := strip_sees_region (o := emptyMarker) (c := directedText)
    "user.rb" (by decide)
  have hback : f.reachesBack emptyMarker.shape = true := by decide
  have hone : f.regionCount = 1 :=
    (SourceFile.regionCount_ofText isSingleLine_emptyMarker _).trans (by decide)
  refine ⟨hcount.trans hone, ?_, by decide, by decide, ?_⟩
  · intro hsame
    rw [hspan.mp hsame] at hback
    cases hback
  · have hwhole := hstrip _ strip_directedText
    rw [if_pos hback] at hwhole
    rw [← hwhole]
    exact strip_directedText

/-- **Stripping may take a directive out.** -/
theorem not_strip_sees_region :
    ¬ ∀ (o : Options) (path : String) (c : Text), optedOut c = false →
      (∀ m ∈ o.wrapper.opening, '\n' ∉ m) →
      let f := SourceFile.ofText o.shape c
      o.shape.count c = f.regionCount ∧
        (o.shape.locate c).map (fun r => (r.start, r.stop)) = f.regionSpan ∧
        ∀ s, strip o path c = .ok (some s) → f.directiveText <+: s := by
  intro h
  obtain ⟨-, -, hkeeps⟩ := h emptyMarker "user.rb" directedText (by decide) (by decide)
  have hprefix := hkeeps undirectedText strip_directedText
  exact absurd hprefix (by decide)

end SchemaComment
