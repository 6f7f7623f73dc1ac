/-
  WHAT A FILE REMEMBERS.

  A file is annotated, and annotated again with another block and other markers.  The first block
  leaves no trace: it is as if the second one had come first.

  1. **Program** — two runs of `annotate`, beside a single run with the arguments of the second.
  2. **Specification** — `annotate_history`: where all three give a text, the two runs and the one
     run give the same.
  3. **The crux** — an opening marker may come into use between the runs.  Then a line that stood
     before the region becomes its marker, and an empty line above that belongs to it as well.
     Where the region starts now depends on the lines before it alone (`exists_fits_marked`), and
     these are the same in the file and in what the first run made of it.
-/
import SchemaComment.Proofs.Idempotence

namespace SchemaComment

open Line

/-! ## An opening marker that comes into use -/

namespace Region.Fits

variable {p q : RegionShape} {before leading core trailing after : List Line}

/-- Without an opening marker the core begins with its header. -/
theorem exists_cons_of_no_opening (h : Region.Fits p ⟨before, leading, core, trailing, after⟩)
    (hp : p.opening = none) :
    ∃ l ls, core = l :: ls ∧ isHeader l = true ∧ ∀ k ∈ ls, isComment k = true := by
  have hcore : p.IsCore core := h.core
  cases hcore with
  | @plain l ls hh hcs => exact ⟨l, ls, rfl, hh, hcs⟩
  | marked hm _ _ =>
    rw [RegionShape.not_marks hp] at hm
    cases hm

/-- A region that does not start at a marker fits under any shape. -/
theorem of_no_opening (h : Region.Fits p ⟨before, leading, core, trailing, after⟩)
    (hp : p.opening = none) (hq : leading = [] → ∀ l ∈ before.getLast?, q.marks l = false) :
    Region.Fits q ⟨before, leading, core, trailing, after⟩ := by
  obtain ⟨l, ls, rfl, hh, hcs⟩ := h.exists_cons_of_no_opening hp
  exact ⟨h.before, h.leading, .plain hh hcs, h.ends, h.start_empty, fun hlead _ => hq hlead⟩

/-- The line above a region is taken in as its marker, and with it an empty line above that. -/
theorem of_marks {above lead : List Line} {m : Line}
    (h : Region.Fits p ⟨above ++ lead ++ [m], [], core, trailing, after⟩) (hp : p.opening = none)
    (hm : q.marks m = true) (hlead : lead = [] ∨ ∃ e, Line.isEmpty e = true ∧ lead = [e])
    (hstart : lead = [] → ∀ l ∈ above.getLast?, Line.isEmpty l = false) :
    Region.Fits q ⟨above, lead, m :: core, trailing, after⟩ := by
  obtain ⟨l, ls, rfl, hh, hcs⟩ := h.exists_cons_of_no_opening hp
  have hbefore : ∀ k ∈ above ++ lead ++ [m], isHeader k = false := h.before
  refine ⟨?_, hlead, .marked hm hh hcs, h.ends, hstart, ?_⟩
  · intro k hk
    exact hbefore k (List.mem_append_left _ (List.mem_append_left _ hk))
  · -- the marker is no header, or the search had found it
    intro _ hhead
    have hheader := hhead m rfl
    rw [hbefore m (by simp)] at hheader
    cases hheader

end Region.Fits

/-- How a region moves its start once an opening marker is in use.  It stays, or the line above becomes
    its marker and takes an empty line above that along. -/
inductive RegionShape.Widens (q : RegionShape) :
    List Line → List Line → List Line → List Line → List Line → Prop
  | stays (before leading : List Line) : Widens q before leading before leading []
  | marker {above lead : List Line} {m : Line} (hm : q.marks m = true)
      (hlead : lead = [] ∨ ∃ e, Line.isEmpty e = true ∧ lead = [e]) :
      Widens q (above ++ lead ++ [m]) [] above lead [m]

/-- The lines in front of the core are the same ones as before. -/
theorem RegionShape.Widens.lines_eq {q : RegionShape} {before leading above lead pre : List Line}
    (h : q.Widens before leading above lead pre) : above ++ lead ++ pre = before ++ leading := by
  cases h <;> simp

/-- **Where a region starts** once an opening marker is in use follows from the lines before it. -/
theorem exists_fits_marked {p : RegionShape} (q : RegionShape) (hp : p.opening = none)
    (before leading : List Line) :
    ∃ above lead pre, q.Widens before leading above lead pre ∧
      ∀ core trailing after, Region.Fits p ⟨before, leading, core, trailing, after⟩ →
        Region.Fits q ⟨above, lead, pre ++ core, trailing, after⟩ := by
  have hstays : (leading = [] → ∀ l ∈ before.getLast?, q.marks l = false) →
      ∃ above lead pre, q.Widens before leading above lead pre ∧
        ∀ core trailing after, Region.Fits p ⟨before, leading, core, trailing, after⟩ →
          Region.Fits q ⟨above, lead, pre ++ core, trailing, after⟩ := fun hq =>
    ⟨before, leading, [], .stays before leading, fun _ _ _ h => h.of_no_opening hp hq⟩
  cases leading with
  | cons e es => exact hstays fun h => by cases h
  | nil =>
    cases hlast : before.getLast? with
    | none => exact hstays fun _ l hl => by rw [hlast] at hl; cases hl
    | some m =>
      cases hm : q.marks m with
      | false =>
        refine hstays fun _ l hl => ?_
        rw [hlast] at hl
        obtain rfl := Option.some.inj hl
        exact hm
      | true =>
        obtain ⟨bs, rfl⟩ := List.getLast?_eq_some_iff.mp hlast
        cases he : bs.getLast?.any Line.isEmpty with
        | false =>
          have hwidens := @RegionShape.Widens.marker q bs [] m hm (Or.inl rfl)
          refine ⟨bs, [], [m], by simpa using hwidens, fun core trailing after h => ?_⟩
          refine Region.Fits.of_marks (by simpa using h) hp hm (Or.inl rfl) fun _ l hl => ?_
          rw [Option.mem_def.mp hl] at he
          exact he
        | true =>
          obtain ⟨e, hbs, hempty⟩ := (Option.any_eq_true _ _).mp he
          obtain ⟨cs, rfl⟩ := List.getLast?_eq_some_iff.mp hbs
          have hlead : [e] = [] ∨ ∃ k, Line.isEmpty k = true ∧ [e] = [k] := Or.inr ⟨e, hempty, rfl⟩
          refine ⟨cs, [e], [m], .marker hm hlead, fun core trailing after h => ?_⟩
          exact Region.Fits.of_marks h hp hm hlead fun h => by cases h

/-- The same where the opening marker stays. -/
theorem exists_fits_switched {p q : RegionShape} (hpq : p.opening = none ∨ p = q)
    (before leading : List Line) :
    ∃ above lead pre, above ++ lead ++ pre = before ++ leading ∧
      ∀ core trailing after, Region.Fits p ⟨before, leading, core, trailing, after⟩ →
        Region.Fits q ⟨above, lead, pre ++ core, trailing, after⟩ := by
  rcases hpq with hp | rfl
  · obtain ⟨above, lead, pre, hwidens, hfits⟩ := exists_fits_marked q hp before leading
    exact ⟨above, lead, pre, hwidens.lines_eq, hfits⟩
  · exact ⟨before, leading, [], by simp, fun _ _ _ h => h⟩

/-- Where there is no region, the shape takes no part in how a text is taken apart. -/
theorem SourceFile.ofText_eq_of_no_region {p q : RegionShape} (hp : p.IsSingleLine)
    (hq : q.IsSingleLine) {t : Text} (h : (SourceFile.ofText p t).region = none) :
    SourceFile.ofText q t = SourceFile.ofText p t := by
  have hnone : q.located? (Lines.ofText t).afterDirectives.ended = none :=
    (region_eq_none_iff hq).mpr ((region_eq_none_iff hp).mp h)
  have hp' : p.located? (Lines.ofText t).afterDirectives.ended = none := h
  simp only [ofText, hnone, hp', RegionShape.length_all hp, RegionShape.length_all hq]

/-! ## Two runs and one -/

section

variable {o o₁ o₂ : Options} {path : String} {c t₁ t₂ t b₁ b₂ : Text} {k : FileKind} {a : Action}
  {L L₁ : Layout}

/-- A file without a region, under two sets of options: what is written differs in the core. -/
theorem Annotation.eq_withCore_of_no_region (hL₁ : Annotation o₁ c b₁ k .regenerate L₁)
    (hL : Annotation o₂ c b₂ k .regenerate L) (hw₁ : o₁.wrapper.IsSingleLine)
    (hw₂ : o₂.wrapper.IsSingleLine) (hpos : o₁.positionFor k = o₂.positionFor k)
    (hnone : (SourceFile.ofText o₁.shape c).region = none) :
    L = L₁.withCore (o₂.wrapper.written (LineEnding.detect c) b₂) := by
  have hsame := SourceFile.ofText_eq_of_no_region (Options.isSingleLine_shape hw₁)
    (Options.isSingleLine_shape hw₂) hnone
  have hwrites := hL.writes
  rw [hsame, ← hpos] at hwrites
  exact hwrites.unique (hL₁.writes.withCore _)

/-- A file with a region, unless it is forced: what is written differs from it in the core. -/
theorem Annotation.eq_withCore_of_region (hL : Annotation o c b₁ k a L) (hforce : o.force = false)
    {r : Region} (hr : (SourceFile.ofText o.shape c).region = some r) :
    L = ((SourceFile.ofText o.shape c).layout r).withCore
      (o.wrapper.written (LineEnding.detect c) b₁) := by
  have hchosen := hL.chosen
  rw [hforce] at hchosen
  cases a with
  | regenerate =>
    rw [SourceFile.no_region_of_regenerate hchosen] at hr
    cases hr
  | substitute => exact hL.writes.unique (.inPlace hr)

/-- Two runs and one over a file that has a region. -/
theorem annotate_history_of_region (hforce₁ : o₁.force = false) (hforce₂ : o₂.force = false)
    (hw₁ : o₁.wrapper.IsPlain) (hw₂ : o₂.wrapper.IsPlain)
    (hopen : o₁.wrapper.opening = none ∨ o₁.wrapper.opening = o₂.wrapper.opening)
    (hb₁ : Rendered b₁) (hb₂ : Rendered b₂) {r : Region}
    (hr : (SourceFile.ofText o₁.shape c).region = some r) (hL₁ : Annotation o₁ c b₁ k a L₁)
    (h₂ : annotate o₂ path L₁.text b₂ k = .ok (some t₂))
    (h : annotate o₂ path c b₂ k = .ok (some t)) : t = t₂ := by
  have hp₁ := Options.isSingleLine_shape hw₁.toIsSingleLine
  have hp₂ := Options.isSingleLine_shape hw₂.toIsSingleLine
  have hfits := hL₁.fits
  have hfirst := hL₁.not_isDirective hw₁ hb₁
  have hending := hL₁.detect_eq hforce₁ hw₁ hb₁
  rw [hL₁.eq_withCore_of_region hforce₁ hr] at hfits hfirst hending h₂
  have hshape : o₁.shape.opening = none ∨ o₁.shape = o₂.shape := by
    rcases hopen with hopen | hopen
    · exact Or.inl hopen
    · exact Or.inr (by rw [Options.shape, hopen, Options.shape])
  obtain ⟨above, lead, pre, hlines, hmove⟩ := exists_fits_switched hshape r.before r.leading
  have hall : ∀ core, Region.allLines ⟨above, lead, pre ++ core, r.trailing, r.after⟩ =
      Region.allLines { r with core := core } := by
    intro core
    simp only [Region.allLines, Region.lines, ← List.append_assoc, hlines]
  -- the text between the runs, as the second options have it
  obtain ⟨hbetween, htext⟩ := hfits.switch (hmove _ _ _ hfits.region) (hall _)
  rw [← htext] at h₂ hending
  have hfirst' : ∀ l ∈ Region.allLines ⟨above, lead,
      pre ++ o₁.wrapper.written (LineEnding.detect c) b₁, r.trailing, r.after⟩ |>.head?,
      Line.isDirective l = false := by
    rw [hall]
    exact hfirst
  have htwo := annotate_layout hforce₂ hw₂.toIsSingleLine hb₂ hbetween hfirst' h₂
  rw [hending] at htwo
  -- the text at the beginning, as the second options have it
  obtain ⟨hold, -, hrest⟩ := SourceFile.fits_layout hp₁ hr
  have hregion : (SourceFile.ofText o₂.shape c).region =
      some ⟨above, lead, pre ++ r.core, r.trailing, r.after⟩ :=
    (RegionShape.located?_eq _ _).trans <| (RegionShape.first?_eq_some_iff hp₂).mpr
      ⟨(hall r.core).trans hrest, hmove _ _ _ hold.region⟩
  rw [annotate_again hforce₂ hw₂.toIsSingleLine hb₂ hregion h, htwo]
  rfl

/-- **Annotating leaves no trace of the block before.** -/
theorem annotate_history (hforce₁ : o₁.force = false) (hforce₂ : o₂.force = false)
    (hpos : o₁.positionFor k = o₂.positionFor k) (hw₁ : o₁.wrapper.IsPlain)
    (hw₂ : o₂.wrapper.IsPlain)
    (hopen : o₁.wrapper.opening = none ∨ o₁.wrapper.opening = o₂.wrapper.opening)
    (hb₁ : Rendered b₁) (hb₂ : Rendered b₂) (hc : isHeader (Lines.ofText c).tail = false)
    (h₁ : annotate o₁ path c b₁ k = .ok (some t₁)) (h₂ : annotate o₂ path t₁ b₂ k = .ok (some t₂))
    (h : annotate o₂ path c b₂ k = .ok (some t)) : t = t₂ := by
  obtain ⟨a₁, L₁, hL₁, rfl⟩ := exists_annotation hw₁.toIsSingleLine hb₁ hc h₁
  cases hr : (SourceFile.ofText o₁.shape c).region with
  | some r => exact annotate_history_of_region hforce₁ hforce₂ hw₁ hw₂ hopen hb₁ hb₂ hr hL₁ h₂ h
  | none =>
    obtain ⟨a, L, hL, rfl⟩ := exists_annotation hw₂.toIsSingleLine hb₂ hc h
    have hsame := SourceFile.ofText_eq_of_no_region (Options.isSingleLine_shape hw₁.toIsSingleLine)
      (Options.isSingleLine_shape hw₂.toIsSingleLine) hr
    have hchosen₁ := hL₁.chosen
    have hchosen := hL.chosen
    rw [hforce₁] at hchosen₁
    rw [hforce₂, hsame] at hchosen
    obtain rfl := (SourceFile.eq_regenerate_iff hchosen₁).mpr hr
    obtain rfl := (SourceFile.eq_regenerate_iff hchosen).mpr hr
    -- it fits under an opening marker too that came into use since
    have hfits := hL₁.fits_of_isCore hw₁.toIsSingleLine hc
      (Wrapper.isCore_written (p := o₂.shape) hopen hb₁ (LineEnding.detect c))
    rw [hL₁.eq_withCore_of_no_region hL hw₁.toIsSingleLine hw₂.toIsSingleLine hpos hr,
      annotate_layout hforce₂ hw₂.toIsSingleLine hb₂ hfits (hL₁.not_isDirective hw₁ hb₁) h₂,
      hL₁.detect_eq hforce₁ hw₁ hb₁]

end

/-! ## A marker that stood there -/

/-- A file whose old block stands below a line that may be a marker. -/
def markedText (type : String) : Text :=
  "# START\n".toList ++ columnBlock type ++ "class User\nend\n".toList

/-- Options under which that line is the opening marker. -/
def markedOptions : Options := { wrapper := ⟨some "START".toList, none⟩ }

theorem regionCount_markedText {p : RegionShape} (hp : p.IsSingleLine) :
    ∀ type ∈ ["integer", "bigint"], (SourceFile.ofText p (markedText type)).regionCount ≤ 1 := by
  have hone : ∀ type ∈ ["integer", "bigint"],
      headings false (Lines.ofText (markedText type)).ended ≤ 1 := by decide
  intro type htype
  rw [← SourceFile.count_eq_regionCount hp hp, RegionShape.count_eq hp]
  exact hone type htype

/-- The file with a directive as these options have it: written anew, between empty line and body. -/
def typedMarked : Text :=
  "# typed: true\r\n\r\n# START\r\n".toList ++ LineEnding.apply .crlf (columnBlock "uuid") ++
    "class User\r\nend\r\n".toList

theorem isSingleLine_markedOptions : markedOptions.shape.IsSingleLine :=
  Options.isSingleLine_shape ⟨by decide, by decide⟩

theorem annotate_typedText_markedOptions :
    annotate markedOptions "user.rb" typedText (columnBlock "uuid") .model =
      .ok (some typedMarked) := by
  have hone : (SourceFile.ofText markedOptions.shape typedText).regionCount ≤ 1 := by
    rw [SourceFile.regionCount_ofText isSingleLine_markedOptions]
    decide
  exact annotate_eq_some_iff.mpr ⟨by decide, hone, rfl, by decide, .regenerate, by decide, by decide⟩

theorem annotate_typedAnnotated_markedOptions :
    annotate markedOptions "user.rb" typedAnnotated (columnBlock "uuid") .model =
      .ok (some typedMarked) := by
  have hone : (SourceFile.ofText markedOptions.shape typedAnnotated).regionCount ≤ 1 := by
    rw [SourceFile.regionCount_ofText isSingleLine_markedOptions]
    decide
  exact annotate_eq_some_iff.mpr ⟨by decide, hone, rfl, by decide, .substitute, by decide, by decide⟩

/-- Written anew and then given another block and a marker, a file is as if it were written anew with
    these.  And taken in as the marker, a line is still there once, whatever block came between. -/
theorem annotate_history_markedText :
    (annotate {} "user.rb" typedText shortBlock .model = .ok (some typedAnnotated) ∧
      ∃ t, annotate markedOptions "user.rb" typedText (columnBlock "uuid") .model = .ok (some t) ∧
        annotate markedOptions "user.rb" typedAnnotated (columnBlock "uuid") .model =
          .ok (some t)) ∧
      annotate {} "user.rb" (markedText "integer") (columnBlock "bigint") .model =
        .ok (some (markedText "bigint")) ∧
      ∃ t, annotate markedOptions "user.rb" (markedText "integer") (columnBlock "uuid") .model =
          .ok (some t) ∧
        annotate markedOptions "user.rb" (markedText "bigint") (columnBlock "uuid") .model =
          .ok (some t) := by
  have hmarked := isSingleLine_markedOptions
  have hanew := annotate_history (by rfl) (by rfl) (by rfl) Wrapper.isPlain_empty (by decide)
    (Or.inl rfl) rendered_shortBlock (by decide) (by decide) annotate_typedText
    annotate_typedAnnotated_markedOptions annotate_typedText_markedOptions
  have h₁ : annotate {} "user.rb" (markedText "integer") (columnBlock "bigint") .model =
      .ok (some (markedText "bigint")) :=
    annotate_eq_some_iff.mpr ⟨by decide, regionCount_markedText isSingleLine_usual _ (by simp), rfl,
      by decide, .substitute, by decide, by decide⟩
  have h₂ : annotate markedOptions "user.rb" (markedText "bigint") (columnBlock "uuid") .model =
      .ok (some (markedText "uuid")) :=
    annotate_eq_some_iff.mpr ⟨by decide, regionCount_markedText hmarked _ (by simp), rfl, by decide,
      .substitute, by decide, by decide⟩
  have h : annotate markedOptions "user.rb" (markedText "integer") (columnBlock "uuid") .model =
      .ok (some (markedText "uuid")) :=
    annotate_eq_some_iff.mpr ⟨by decide, regionCount_markedText hmarked _ (by simp), rfl, by decide,
      .substitute, by decide, by decide⟩
  have hsame := annotate_history (by rfl) (by rfl) (by rfl) Wrapper.isPlain_empty (by decide)
    (Or.inl rfl) (by decide) (by decide) (by decide) h₁ h₂ h
  exact ⟨⟨annotate_typedText, _, annotate_typedText_markedOptions,
    hanew ▸ annotate_typedAnnotated_markedOptions⟩, h₁, _, h, hsame ▸ h₂⟩

end SchemaComment
