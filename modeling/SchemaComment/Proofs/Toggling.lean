/-
  MARKERS THAT CHANGE BETWEEN THE RUNS.

  A file without a schema comment is annotated between some markers, and annotated again between
  others.  Each run knows its own markers only.

  1. **Program** — two runs of `annotate` under different wrappers, at the same position.
  2. **Specification** — `annotate_toggled`: outside its region the file has the bare lines that it
     had at the beginning, and at the most one more, that of the first opening marker.  `orphans`
     tells when this one is left behind.
  3. **The crux** — a closing marker is one more comment line and is taken in with the block.  An
     opening marker is taken in if the second run knows it as its own, or if it reads as a header.
     Else the region is read back without it (`exists_reads_of_orphan`), and the line stays.
-/
import SchemaComment.Proofs.History
import SchemaComment.Proofs.Standing
import SchemaComment.Proofs.Undoing

namespace SchemaComment

open Line

/-! ## Outside a region -/

namespace RegionShape

/-- The text outside the region that a search of the whole text finds. -/
def outside (p : RegionShape) (t : Text) : Text :=
  match p.locate t with
  | none => t
  | some r => unlines (r.before ++ r.after) ++ (Lines.ofText t).tail

end RegionShape

namespace Layout

variable {p : RegionShape} {L : Layout}

/-- Where the region does not reach back, above and below it is all that is outside. -/
theorem outside_text (hp : p.IsSingleLine) (h : L.Fits p) (hback : L.reachesBack p = false) :
    p.outside L.text = L.above ++ L.below := by
  rw [RegionShape.outside, locate_text hp h, wholeRegion_of_not_reachesBack hback, ofText_text h]
  simp [above, below]

/-- The directives and the body of the text stand above and below the region. -/
theorem Reads.directiveText_append_body (hp : p.IsSingleLine) (h : L.Reads p) :
    (SourceFile.ofText p L.text).directiveText ++ (SourceFile.ofText p L.text).body =
      L.above ++ L.below := by
  rw [SourceFile.ofText_text hp h.fits h.first]
  simp [SourceFile.directiveText, SourceFile.body, above, below]

end Layout

namespace SourceFile

/-- Whether a block that is written at this position opens the file. -/
def opensWith (f : SourceFile) (pos : Position) : Bool := pos == .before && f.directives.isEmpty

/-- Whether the line of the opening marker `m`, written into the file at a position, is left behind
    under the shape `q`.  At the top of the file it may be a directive, and then it is not searched
    for a marker. -/
def orphans (f : SourceFile) (q : RegionShape) (pos : Position) (m : Text) : Bool :=
  let l := (LineEnding.detect f.raw).onLine (commented m)
  !isHeader l && (!q.marks l || (f.opensWith pos && Line.isDirective l))

/-- What stands above and below the region that was written is what the action left. -/
theorem Writes.above_append_below {f : SourceFile} {e : LineEnding} {core : List Line}
    {pos : Position} {a : Action} {L : Layout} (h : f.Writes e core pos a L) :
    L.above ++ L.below = f.remainder e pos a := by
  rw [← h.remainder_eq]
  simp [Layout.above, Layout.below]

/-- **The bare lines that an action leaves** are those of directives and body. -/
theorem bareLines_remainder (p : RegionShape) (c : Text) (e : LineEnding) (pos : Position)
    (a : Action) : Text.bareLines ((ofText p c).remainder e pos a) =
      Text.bareLines ((ofText p c).directiveText ++ (ofText p c).body) := by
  rw [Text.bareLines_eq, Text.bareLines_eq, sourceLines_remainder, sourceLines_directiveText_append]
  split
  · rw [List.map_append, List.map_append, Text.map_trimStart_modifyHead]
  · rfl

end SourceFile

/-! ## A line that is no marker any more -/

/-- Below a first line that is no header, a core begins with its header. -/
theorem RegionShape.IsCore.exists_cons {p : RegionShape} {m : Line} {ls : List Line}
    (h : p.IsCore (m :: ls)) (hm : isHeader m = false) :
    ∃ l cs, ls = l :: cs ∧ isHeader l = true ∧ ∀ k ∈ cs, isComment k = true := by
  cases h with
  | plain hh _ =>
    rw [hm] at hh
    cases hh
  | marked _ hh hcs => exact ⟨_, _, rfl, hh, hcs⟩

/-- A region whose marker is none under another shape begins below that line there, and the empty
    line above it is left out too. -/
theorem Region.Fits.leaving {p q : RegionShape} {r : Region} {m : Line} {ls : List Line}
    (h : r.Fits p) (hcore : r.core = m :: ls) (hm : isHeader m = false) (hq : q.marks m = false) :
    Region.Fits q ⟨r.before ++ r.leading ++ [m], [], ls, r.trailing, r.after⟩ := by
  have hold : p.IsCore (m :: ls) := hcore ▸ h.core
  obtain ⟨l, cs, rfl, hl, hcs⟩ := hold.exists_cons hm
  refine ⟨?_, Or.inl rfl, .plain hl hcs, h.ends, ?_, ?_⟩
  · intro k hk
    rcases List.mem_append.mp hk with hk | hk
    · rcases List.mem_append.mp hk with hk | hk
      · exact h.before k hk
      · rcases h.leading with hlead | ⟨e, he, hlead⟩
        · rw [hlead] at hk
          cases hk
        · rw [hlead] at hk
          obtain rfl := List.mem_singleton.mp hk
          exact not_isHeader_of_isEmpty he
    · obtain rfl := List.mem_singleton.mp hk
      exact hm
  · intro _ k hk
    obtain rfl : m = k := by simpa using hk
    exact not_isEmpty_of_isComment (hold.comment m List.mem_cons_self)
  · intro _ _ k hk
    obtain rfl : m = k := by simpa using hk
    exact hq

/-- A marker at the top of a file that is a directive is read back as one. -/
theorem Layout.Fits.directed {p q : RegionShape} {L : Layout} {m : Line} {ls : List Line}
    (h : L.Fits p) (hds : L.directives = []) (hbefore : L.region.before = [])
    (hlead : L.region.leading = []) (hcore : L.region.core = m :: ls)
    (hm : Line.isDirective m = true) :
    ({ L with directives := [m], region := { L.region with core := ls } } : Layout).Reads q ∧
      ({ L with directives := [m], region := { L.region with core := ls } } : Layout).text =
        L.text := by
  have hregion : L.region.Fits p := h.region
  have hold : p.IsCore (m :: ls) := hcore ▸ hregion.core
  obtain ⟨l, cs, rfl, hl, hcs⟩ := hold.exists_cons (not_isHeader_of_isDirective hm)
  have hlines : ({ L with directives := [m], region := { L.region with core := l :: cs } } :
      Layout).lines = L.lines := by
    simp [Layout.lines, Region.allLines, Region.lines, hds, hbefore, hlead, hcore]
  -- with nothing before it a region starts where it should
  have hnew : Region.Fits q { L.region with core := l :: cs } :=
    ⟨hregion.before, hregion.leading, .plain hl hcs, hregion.ends, by simp [hbefore],
      by simp [hbefore]⟩
  refine ⟨⟨⟨?_, hnew, ?_, h.open_end⟩, ?_⟩, ?_⟩
  · intro k hk
    obtain rfl := List.mem_singleton.mp hk
    exact hm
  · rw [hlines]
    exact h.plain
  · intro k hk
    obtain rfl : l = k := by simpa [Region.allLines, Region.lines, hbefore, hlead] using hk
    exact not_isDirective_of_isHeader hl
  · rw [Layout.text, Layout.text, hlines]

section

variable {o o₁ o₂ : Options} {path : String} {c t₁ t₂ b₁ b₂ block : Text} {k : FileKind}
  {a : Action} {L : Layout} {q : RegionShape}

/-- Outside the region of an annotated file are the bare lines of directives and body. -/
theorem Annotation.bareLines_outside (h : Annotation o c block k a L)
    (hw : o.wrapper.IsSingleLine) :
    Text.bareLines (o.shape.outside L.text) =
      Text.bareLines ((SourceFile.ofText o.shape c).directiveText ++
        (SourceFile.ofText o.shape c).body) := by
  rw [Layout.outside_text (Options.isSingleLine_shape hw) h.fits h.not_reachesBack,
    h.writes.above_append_below, SourceFile.bareLines_remainder]

/-! ## The first block under the second markers -/

/-- Between markers of which none is an orphan a block is a core, and where it opens the file it does
    not open with a directive. -/
theorem Wrapper.isCore_written_of_not_orphans {f : SourceFile} {w : Wrapper} {pos : Position}
    (hb : Rendered block) (hkept : ∀ m ∈ w.opening, f.orphans q pos m = false) :
    q.IsCore (w.written (LineEnding.detect f.raw) block) ∧ (f.opensWith pos = true →
      ∀ l ∈ (w.written (LineEnding.detect f.raw) block).head?, Line.isDirective l = false) := by
  cases ho : w.opening with
  | none => exact ⟨isCore_written (Or.inl ho) hb _, fun _ =>
      not_isDirective_head_written (by simp [ho]) hb _⟩
  | some m =>
    obtain ⟨h, cs, hrest, hh, hcs⟩ :=
      written_of_no_opening (w := { w with opening := none }) rfl hb (LineEnding.detect f.raw)
    have hm := hkept m ho
    rw [SourceFile.orphans] at hm
    rw [written_of_opening ho, hrest]
    cases hheader : isHeader ((LineEnding.detect f.raw).onLine (commented m)) with
    | true =>
      -- the marker line is a header, and the block is comment lines below it
      refine ⟨.plain hheader fun l hl => ?_, fun _ l hl => ?_⟩
      · rcases List.mem_cons.mp hl with rfl | hl
        · exact isComment_of_isHeader hh
        · exact hcs l hl
      · obtain rfl := Option.some.inj hl
        exact not_isDirective_of_isHeader hheader
    | false =>
      simp only [hheader, Bool.not_false, Bool.true_and, Bool.or_eq_false_iff,
        Bool.not_eq_false'] at hm
      obtain ⟨hmarks, hplain⟩ := hm
      refine ⟨.marked hmarks hh hcs, fun htop l hl => ?_⟩
      obtain rfl := Option.some.inj hl
      simpa [htop] using hplain

/-- **A marker that is no orphan** is read back where it was written. -/
theorem Annotation.reads_of_not_orphans (h : Annotation o c block k .regenerate L)
    (hw : o.wrapper.IsSingleLine) (hb : Rendered block)
    (hc : isHeader (Lines.ofText c).tail = false)
    (hkept : ∀ m ∈ o.wrapper.opening,
      (SourceFile.ofText o.shape c).orphans q (o.positionFor k) m = false) : L.Reads q := by
  obtain ⟨hcore, hfirst⟩ := Wrapper.isCore_written_of_not_orphans hb hkept
  refine ⟨h.fits_of_isCore hw hc hcore, ?_⟩
  refine h.writes.not_isDirective_of_regenerate hcore.ne_nil fun hpos hds => hfirst ?_
  simp [SourceFile.opensWith, hpos, hds]

/-- **An orphan** stands above the region that is read back, and with it the empty line above. -/
theorem Annotation.exists_reads_of_orphan (h : Annotation o c block k .regenerate L) {m : Text}
    (ho : o.wrapper.opening = some m)
    (hm : (SourceFile.ofText o.shape c).orphans q (o.positionFor k) m = true) :
    ∃ L' : Layout, L'.Reads q ∧ L'.text = L.text ∧ L'.below = L.below ∧
      L'.above = L.above ++
        unlines (L.region.leading ++ [(LineEnding.detect c).onLine (commented m)]) := by
  have hraw : (SourceFile.ofText o.shape c).raw = c := rfl
  obtain ⟨ls, hcore⟩ :
      ∃ ls, L.region.core = (LineEnding.detect c).onLine (commented m) :: ls :=
    ⟨_, h.writes.core_eq.trans (Wrapper.written_of_opening ho _)⟩
  simp only [SourceFile.orphans, hraw, Bool.and_eq_true, Bool.not_eq_true', Bool.or_eq_true] at hm
  generalize (LineEnding.detect c).onLine (commented m) = l at hcore hm ⊢
  obtain ⟨hheader, hleft⟩ := hm
  by_cases htop : (SourceFile.ofText o.shape c).opensWith (o.positionFor k) = true ∧
      Line.isDirective l = true
  · -- the line is the one directive of the file
    obtain ⟨htop, hl⟩ := htop
    obtain ⟨hpos, hds⟩ : o.positionFor k = .before ∧
        (SourceFile.ofText o.shape c).directives = [] := by
      simpa [SourceFile.opensWith] using htop
    have hlayout := h.eq_layoutBefore hpos
    have hfront : L.directives = [] ∧ L.region.before = [] ∧ L.region.leading = [] := by
      rw [hlayout]
      simp [SourceFile.layoutBefore, hds]
    obtain ⟨hdirectives, hbefore, hlead⟩ := hfront
    obtain ⟨hreads, htext⟩ := h.fits.directed hdirectives hbefore hlead hcore hl
    refine ⟨_, hreads, htext, rfl, ?_⟩
    simp [Layout.above, hdirectives, hbefore, hlead]
  · -- the line is searched, and is no marker
    have hq : q.marks l = false := by
      rcases hleft with hq | hbad
      · exact hq
      · exact absurd hbad htop
    have hregion := h.fits.region.leaving hcore hheader hq
    have hall : Region.allLines ⟨L.region.before ++ L.region.leading ++ [l], [], ls,
        L.region.trailing, L.region.after⟩ = L.region.allLines := by
      simp [Region.allLines, Region.lines, hcore]
    obtain ⟨hfits, htext⟩ := h.fits.switch hregion hall
    have hne : o.wrapper.written (LineEnding.detect c) block ≠ [] := by
      rw [← h.writes.core_eq, hcore]
      exact List.cons_ne_nil _ _
    have hfirst : ∀ j ∈ L.region.allLines.head?, Line.isDirective j = false := by
      refine h.writes.not_isDirective_of_regenerate hne fun hpos hds j hj => ?_
      rw [← h.writes.core_eq, hcore] at hj
      obtain rfl := Option.some.inj hj
      rw [not_and, Bool.not_eq_true] at htop
      exact htop (by simp [SourceFile.opensWith, hpos, hds])
    refine ⟨_, ⟨hfits, ?_⟩, htext, rfl, ?_⟩
    · rw [hall]
      exact hfirst
    · simp [Layout.above]

/-- The bare lines of a text below an orphan: its own comes first, the empty line above is blank. -/
theorem Annotation.bareLines_orphan (h : Annotation o c block k a L) (hw : o.wrapper.IsSingleLine)
    {m : Text} (ho : o.wrapper.opening = some m) (t : Text) :
    Text.bareLines
        (unlines (L.region.leading ++ [(LineEnding.detect c).onLine (commented m)]) ++ t) =
      Text.trim (commented m) :: Text.bareLines t := by
  have hregion : L.region.Fits o.shape := h.fits.region
  have hopening := hw.opening m ho
  have hmarker : '\n' ∉ (LineEnding.detect c).onLine (commented m) :=
    LineEnding.not_mem_onLine (by simp [commented, hopening]) _
  have hsolid : Line.isBlank ((LineEnding.detect c).onLine (commented m)) = false :=
    not_isBlank_of_isComment (LineEnding.isComment_onLine rfl _)
  rcases hregion.leading with hlead | ⟨e, he, hlead⟩
  · rw [hlead, Text.bareLines_unlines_append (by simpa using hmarker), Text.bareLines,
      Text.solidLines_unlines (by simpa using hmarker)]
    simp [hsolid, LineEnding.trim_onLine]
  · have hblank := isBlank_of_isEmpty he
    have hempty : '\n' ∉ e := by
      rcases isEmpty_iff.mp he with rfl | rfl <;> decide
    have hplain : ∀ l ∈ [e] ++ [(LineEnding.detect c).onLine (commented m)], '\n' ∉ l := by
      simp [hempty, hmarker]
    rw [hlead, Text.bareLines_unlines_append hplain, Text.bareLines, Text.solidLines_unlines hplain]
    simp [hblank, hsolid, LineEnding.trim_onLine]

/-- **The first run under the second markers**: directives and body have the bare lines of the file
    at the beginning, and that of an orphan. -/
theorem Annotation.mem_bareLines_around (h : Annotation o c block k .regenerate L)
    (hw : o.wrapper.IsSingleLine) (hq : q.IsSingleLine) (hb : Rendered block)
    (hc : isHeader (Lines.ofText c).tail = false)
    (hnone : (SourceFile.ofText o.shape c).region = none) {l : Line} :
    l ∈ Text.bareLines ((SourceFile.ofText q L.text).directiveText ++
        (SourceFile.ofText q L.text).body) ↔
      l ∈ Text.bareLines c ∨ ∃ m ∈ o.wrapper.opening,
        (SourceFile.ofText o.shape c).orphans q (o.positionFor k) m = true ∧
          l = Text.trim (commented m) := by
  have haround : Text.bareLines (L.above ++ L.below) = Text.bareLines c := by
    rw [h.writes.above_append_below, SourceFile.bareLines_remainder,
      ← SourceFile.raw_eq_of_no_region hnone]
  by_cases horphan : ∃ m ∈ o.wrapper.opening,
      (SourceFile.ofText o.shape c).orphans q (o.positionFor k) m = true
  · obtain ⟨m, ho, hm⟩ := horphan
    obtain ⟨L', hreads, htext, hbelow, habove⟩ := h.exists_reads_of_orphan ho hm
    have hplain : ∀ j ∈ L.directives ++ L.region.before, '\n' ∉ j := by
      intro j hj
      refine h.fits.plain j ?_
      rw [Layout.lines, Region.allLines, ← List.append_assoc, ← List.append_assoc]
      exact List.mem_append_left _ (List.mem_append_left _ hj)
    rw [Layout.above, Text.bareLines_unlines_append hplain] at haround
    rw [← htext, hreads.directiveText_append_body hq, habove, hbelow, List.append_assoc,
      Layout.above, Text.bareLines_unlines_append hplain, h.bareLines_orphan hw ho, ← haround]
    have hone : (∃ m' ∈ o.wrapper.opening,
        (SourceFile.ofText o.shape c).orphans q (o.positionFor k) m' = true ∧
          l = Text.trim (commented m')) ↔ l = Text.trim (commented m) := by
      constructor
      · rintro ⟨m', ho', -, hl⟩
        obtain rfl := Option.some.inj (ho'.symm.trans ho)
        exact hl
      · intro hl
        exact ⟨m, ho, hm, hl⟩
    rw [hone, List.mem_append, List.mem_append, List.mem_cons, or_assoc]
    exact or_congr_right or_comm
  · have hreads := h.reads_of_not_orphans hw hb hc fun m ho => by
      simpa using fun hm => horphan ⟨m, ho, hm⟩
    rw [hreads.directiveText_append_body hq, haround]
    refine ⟨Or.inl, ?_⟩
    rintro (hl | ⟨m, ho, hm, -⟩)
    · exact hl
    · exact absurd ⟨m, ho, hm⟩ horphan

/-! ## The second run -/

/-- **Annotating under other markers** leaves the bare lines of the file outside the region, and
    with them that of the first opening marker where it is an orphan.  So no line is left behind
    exactly where it is none, or the file has such a line anyway. -/
theorem annotate_toggled (hpos : o₁.positionFor k = o₂.positionFor k)
    (hw₁ : o₁.wrapper.IsSingleLine) (hw₂ : o₂.wrapper.IsSingleLine) (hb₁ : Rendered b₁)
    (hb₂ : Rendered b₂) (hc : isHeader (Lines.ofText c).tail = false)
    (hnone : (SourceFile.ofText o₁.shape c).hasRegion = false)
    (h₁ : annotate o₁ path c b₁ k = .ok (some t₁)) (h₂ : annotate o₂ path t₁ b₂ k = .ok (some t₂)) :
    let orphaned := fun m =>
      (SourceFile.ofText o₁.shape c).orphans o₂.shape (o₁.positionFor k) m = true
    let left := Text.bareLines (o₂.shape.outside t₂)
    (∀ l, l ∈ left ↔ l ∈ Text.bareLines c ∨
        ∃ m ∈ o₁.wrapper.opening, orphaned m ∧ l = Text.trim (commented m)) ∧
      ((∀ l ∈ left, l ∈ Text.bareLines c) ↔
        ∀ m ∈ o₁.wrapper.opening, orphaned m → Text.trim (commented m) ∈ Text.bareLines c) := by
  intro orphaned left
  obtain ⟨a₁, L₁, hL₁, rfl⟩ := exists_annotation hw₁ hb₁ hc h₁
  obtain rfl := (SourceFile.eq_regenerate_iff_of_force hL₁.chosen).mpr (Or.inl hnone)
  have hclosed : o₂.positionFor k = .after → isHeader (Lines.ofText L₁.text).tail = false := by
    intro hafter
    rw [← hpos] at hafter
    rw [Layout.ofText_text hL₁.fits, hL₁.eq_layoutAfter hafter]
    rfl
  obtain ⟨a₂, L₂, hL₂, rfl⟩ := exists_annotation_at hw₂ hb₂ hclosed h₂
  have hlines : ∀ l, l ∈ left ↔ l ∈ Text.bareLines c ∨
      ∃ m ∈ o₁.wrapper.opening, orphaned m ∧ l = Text.trim (commented m) := by
    intro l
    have hleft : left = _ := hL₂.bareLines_outside hw₂
    rw [hleft]
    exact hL₁.mem_bareLines_around hw₁ (Options.isSingleLine_shape hw₂) hb₁ hc
      (by simpa [SourceFile.hasRegion] using hnone)
  refine ⟨hlines, ?_, ?_⟩
  · intro h m hm horphan
    exact h _ ((hlines _).mpr (Or.inr ⟨m, hm, horphan, rfl⟩))
  · intro h l hl
    rcases (hlines l).mp hl with hl | ⟨m, hm, horphan, rfl⟩
    · exact hl
    · exact h m hm horphan

/-- Options under which a block stands between two markers. -/
def wrappedOptions : Options := { wrapper := ⟨some "START".toList, some "END".toList⟩ }

/-- The file with its block between these markers. -/
def wrappedText : Text :=
  unlines ["# START".toList] ++ columnBlock "integer" ++
    unlines (["# END", "class User", "end"].map String.toList)

/-- Options whose marker the first one begins with. -/
def shortenedOptions : Options := { wrapper := ⟨some "ST".toList, none⟩ }

/-- The file with its block under that marker. -/
def shortenedText : Text :=
  unlines ["# ST".toList] ++ columnBlock "bigint" ++ undirectedText

theorem annotate_undirectedText :
    annotate wrappedOptions "user.rb" undirectedText (columnBlock "integer") .model =
      .ok (some wrappedText) := by
  have hone : (SourceFile.ofText wrappedOptions.shape undirectedText).regionCount ≤ 1 := by
    rw [SourceFile.regionCount_ofText (Options.isSingleLine_shape ⟨by decide, by decide⟩)]
    decide
  exact annotate_eq_some_iff.mpr
    ⟨by decide, hone, rfl, by decide, .regenerate, by decide, by decide⟩

theorem regionCount_wrappedText {p : RegionShape} (hp : p.IsSingleLine) :
    (SourceFile.ofText p wrappedText).regionCount ≤ 1 := by
  have hone : headings false (Lines.ofText wrappedText).ended ≤ 1 := by decide
  rw [← SourceFile.count_eq_regionCount hp hp, RegionShape.count_eq hp]
  exact hone

/-- A shorter marker takes the old one in, and both lines are gone. -/
theorem annotate_toggled_wrappedText :
    annotate shortenedOptions "user.rb" wrappedText (columnBlock "bigint") .model =
        .ok (some shortenedText) ∧
      ∀ l ∈ Text.bareLines (shortenedOptions.shape.outside shortenedText),
        l ∈ Text.bareLines undirectedText := by
  have hw : shortenedOptions.wrapper.IsSingleLine := ⟨by decide, by decide⟩
  have hone := regionCount_wrappedText (Options.isSingleLine_shape hw)
  have hagain : annotate shortenedOptions "user.rb" wrappedText (columnBlock "bigint") .model =
      .ok (some shortenedText) :=
    annotate_eq_some_iff.mpr
      ⟨by decide, hone, rfl, by decide, .substitute, by decide, by decide⟩
  have hpos : wrappedOptions.positionFor .model = shortenedOptions.positionFor .model := rfl
  obtain ⟨-, hnone⟩ := annotate_toggled hpos ⟨by decide, by decide⟩ hw (by decide) (by decide)
    (by decide) (by decide) annotate_undirectedText hagain
  exact ⟨hagain, hnone.mpr (by decide)⟩

/-- **A marker that is switched off stays behind**: the second run does not know it. -/
theorem not_annotate_toggled :
    ¬ ∀ (o₁ o₂ : Options) (path : String) (c t₁ t₂ b₁ b₂ : Text) (k : FileKind),
      o₁.positionFor k = o₂.positionFor k → o₁.wrapper.IsSingleLine → o₂.wrapper.IsSingleLine →
      Rendered b₁ → Rendered b₂ → isHeader (Lines.ofText c).tail = false →
      (SourceFile.ofText o₁.shape c).hasRegion = false →
      annotate o₁ path c b₁ k = .ok (some t₁) → annotate o₂ path t₁ b₂ k = .ok (some t₂) →
      ∀ l ∈ Text.bareLines (o₂.shape.outside t₂), l ∈ Text.bareLines c := by
  intro h
  have hagain : annotate {} "user.rb" wrappedText (columnBlock "bigint") .model =
      .ok (some (markedText "bigint")) :=
    annotate_eq_some_iff.mpr ⟨by decide, regionCount_wrappedText isSingleLine_usual, rfl, by decide,
      .substitute, by decide, by decide⟩
  have hstays : "# START".toList ∈
      Text.bareLines (({} : Options).shape.outside (markedText "bigint")) := by
    decide
  have hsource := h wrappedOptions {} "user.rb" undirectedText wrappedText (markedText "bigint")
    (columnBlock "integer") (columnBlock "bigint") .model rfl ⟨by decide, by decide⟩
    Wrapper.isPlain_empty.toIsSingleLine (by decide) (by decide) (by decide) (by decide)
    annotate_undirectedText hagain _ hstays
  exact absurd hsource (by decide)

end

end SchemaComment
