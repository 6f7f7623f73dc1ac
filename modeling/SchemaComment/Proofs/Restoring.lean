/-
  WHAT WAS STRIPPED, ANNOTATED AGAIN.

  A file without a schema comment is annotated, stripped, and annotated again with the same
  arguments.

  1. **Program** — `annotate`, `strip` on what it gave, and `annotate` on what that left.
  2. **Specification** — `annotate_stripped_iff`: the third run always writes.  It gives what the
     first one gave exactly where the stripped file has the directives and the line ending of the
     file at the beginning.
  3. **The crux** — what is written follows from the directives, the line ending and the trimmed body
     (`regenerate_congr`), and stripping leaves the trimmed body as it was.  But it takes the blank
     lines around the region out: a directive of the body may then stand right below the directives
     and be one of them from there on, and the first line may be another one.
-/
import SchemaComment.Proofs.Settling
import SchemaComment.Proofs.Undoing
import SchemaComment.Proofs.Keeping
import SchemaComment.Proofs.OptedOut

namespace SchemaComment

open Line

variable {o : Options} {path : String} {c t s block : Text} {k : FileKind} {a : Action}
  {L L' : Layout}

/-! ## A stripped file -/

/-- A stripped file has no region. -/
theorem region_stripped (hw : o.wrapper.IsSingleLine) (h : strip o path t = .ok (some s)) :
    (SourceFile.ofText o.shape s).region = none ∧
      (SourceFile.ofText o.shape s).regionCount = 0 := by
  have hp := Options.isSingleLine_shape hw
  obtain ⟨hnone, -⟩ := headings_stripped hw h
  have hcount : (SourceFile.ofText o.shape s).regionCount = 0 := by
    rw [← SourceFile.count_eq_regionCount hp hp, RegionShape.count_eq hp, hnone]
  refine ⟨?_, hcount⟩
  rw [SourceFile.regionCount_ofText hp] at hcount
  exact (SourceFile.region_eq_none_iff hp).mpr (headings_eq_zero_iff.mp hcount)

/-! ## What is written anew -/

namespace Annotation

/-- The text tells the layout. -/
theorem layout_eq {c' block' : Text} {k' : FileKind} {a' : Action} (h : Annotation o c block k a L)
    (h' : Annotation o c' block' k' a' L') (hw : o.wrapper.IsPlain) (hb : Rendered block)
    (hb' : Rendered block') (htext : L.text = L'.text) : L = L' := by
  have hback := h.readBack hw hb
  rw [htext, h'.readBack hw hb'] at hback
  simp only [SourceFile.mk.injEq, Lines.mk.injEq, Option.some.injEq] at hback
  obtain ⟨-, hds, ⟨-, htail⟩, hregion, -⟩ := hback
  obtain ⟨ds, r, tail⟩ := L
  obtain ⟨ds', r', tail'⟩ := L'
  cases hds
  cases htail
  cases hregion
  rfl

end Annotation

/-- The written lines tell the line ending. -/
theorem Wrapper.written_injective {w : Wrapper} {b : Text} (hw : w.IsPlain) (hb : Rendered b)
    {e e' : LineEnding} (h : w.written e b = w.written e' b) : e = e' := by
  obtain ⟨l, ls, hl⟩ := List.exists_cons_of_ne_nil
    (Wrapper.isCore_written (p := { opening := w.opening }) (Or.inr rfl) hb e).ne_nil
  have hshows := endsInReturn_written hw hb e l (by rw [hl]; rfl)
  have hshows' := endsInReturn_written hw hb e' l (by rw [← h, hl]; rfl)
  rw [hshows] at hshows'
  cases e <;> cases e' <;> simp_all

/-- **A text that annotating gives a file without a region**, if stripping makes something of it. -/
theorem exists_annotation_of_strip (hforce : o.force = false) (hw : o.wrapper.IsSingleLine)
    (hb : Rendered block) (hnone : (SourceFile.ofText o.shape c).region = none)
    (ht : annotate o path c block k = .ok (some t)) (hs : strip o path t = .ok (some s)) :
    ∃ L, Annotation o c block k .regenerate L ∧ L.text = t ∧
      s = (SourceFile.ofText o.shape c).remainder (LineEnding.detect c) (o.positionFor k)
        .regenerate := by
  obtain ⟨hout, hone, -⟩ := strip_eq_some_iff.mp hs
  obtain ⟨-, hbefore, -, -, a, ha, hta⟩ := annotate_eq_some_iff.mp ht
  obtain rfl := (SourceFile.eq_regenerate_iff (hforce ▸ ha)).mpr hnone
  -- behind the body, a header that was left open would have made two regions
  have hclosed : o.positionFor k = .after → isHeader (Lines.ofText c).tail = false := by
    intro hpos
    cases htail : isHeader (Lines.ofText c).tail with
    | false => rfl
    | true =>
      have htwo := two_le_count_textAfter hw hb htail
      rw [← hpos, hta] at htwo
      omega
  obtain ⟨L, hL, htext⟩ := exists_annotation_of_chosen hw hb hclosed hbefore ha
  rw [hta] at htext
  refine ⟨L, hL, htext, ?_⟩
  rw [← htext] at hs hout
  rw [hL.strip_text path hw hout] at hs
  split at hs
  · cases hs
  · exact (Option.some.inj (Except.ok.inj hs)).symm

/-! ## The third run -/

/-- **A stripped file is written anew.** -/
theorem exists_annotation_stripped (hfrozen : o.frozen = false) (hw : o.wrapper.IsSingleLine)
    (hb : Rendered block)
    (hclosed : o.positionFor k = .after → (Lines.ofText s).tail = [])
    (hs : strip o path t = .ok (some s)) :
    ∃ L, Annotation o s block k .regenerate L ∧ annotate o path s block k = .ok (some L.text) := by
  have hp := Options.isSingleLine_shape hw
  obtain ⟨hnone, hzero⟩ := region_stripped hw hs
  have hout : optedOut s = false := optedOut_stripped hs
  have hregion : (SourceFile.ofText o.shape s).hasRegion = false := by
    rw [SourceFile.hasRegion, hnone]
    rfl
  have haction : (SourceFile.ofText o.shape s).action? o.force (o.wrapper.wrap block) =
      some .regenerate := SourceFile.action?_eq_regenerate _ hout (Or.inl hregion)
  obtain ⟨L, hL, htext⟩ := exists_annotation_of_chosen (k := k) hw hb
    (fun hpos => by rw [hclosed hpos]; rfl) (by omega) haction
  refine ⟨L, hL, annotate_eq_some_iff.mpr ⟨hout, by omega, hfrozen, ?_, _, haction, htext.symm⟩⟩
  -- the new text has a region, and the stripped one has none
  intro hsame
  have hcount := Layout.count_text hL.fits hp
  rw [hsame, SourceFile.count_eq_regionCount hp hp, hzero] at hcount
  omega

namespace SourceFile

variable {p : RegionShape} {f : SourceFile}

/-- Trimmed lines of a body without a region open with no directive, or are one. -/
theorem takeWhile_or_dropWhile_trimmedLines (hp : p.IsSingleLine)
    (hnone : (ofText p c).region = none) (e : LineEnding) :
    (trimmedLines e (ofText p c).body).takeWhile Line.isDirective = [] ∨
      (trimmedLines e (ofText p c).body).dropWhile Line.isDirective = [] := by
  have hlines : (Lines.ofText (ofText p c).body).ended = (ofText p c).rest.ended := by
    rw [ofText_body hp]
    simp [bodyLines, hnone]
  have hpre := Lines.ended_of_append_left (Text.trimEnd (ofText p c).body)
    (Text.blankEnd (ofText p c).body)
  rw [Text.trimEnd_append_blankEnd, hlines] at hpre
  rw [trimmedLines]
  cases hls : (Lines.ofText (Text.trimEnd (ofText p c).body)).ended with
  | cons l ls =>
    -- the first line is the first one behind the directives of the file
    rw [hls] at hpre
    obtain ⟨rest, hrest⟩ := hpre
    have hl : Line.isDirective l = false := (directives_ofText p c).2 l (by rw [← hrest]; rfl)
    exact Or.inl (List.takeWhile_cons_of_neg (by simp [hl]))
  | nil =>
    cases hd : Line.isDirective
        ((Lines.ofText (Text.trimEnd (ofText p c).body)).tail ++ e.onLine []) with
    | false => exact Or.inl (List.takeWhile_cons_of_neg (by simp [hd]))
    | true => exact Or.inr (List.dropWhile_cons_of_pos hd)

end SourceFile

/-- **A file that was stripped of a block behind its body** may have one directive more. -/
theorem ofText_stripped_after (hp : o.shape.IsSingleLine)
    (hs : s = (SourceFile.ofText o.shape c).remainder (LineEnding.detect c) .after .regenerate) :
    let front := trimmedLines (LineEnding.detect c) (SourceFile.ofText o.shape c).body
    (SourceFile.ofText o.shape s).directives =
        (SourceFile.ofText o.shape c).directives ++ front.takeWhile Line.isDirective ∧
      (SourceFile.ofText o.shape s).rest = ⟨front.dropWhile Line.isDirective, []⟩ := by
  intro front
  have htext : s = unlines ((SourceFile.ofText o.shape c).directives ++ front) := by
    rw [hs, unlines_append, unlines_trimmedLines, SourceFile.remainder, List.append_assoc]
    rfl
  have hplain : ∀ l ∈ (SourceFile.ofText o.shape c).directives ++ front, '\n' ∉ l := by
    intro l hl
    rcases List.mem_append.mp hl with hl | hl
    · exact (SourceFile.not_mem_lines_ofText o.shape c).1 l hl
    · exact not_mem_trimmedLines _ _ l hl
  have hdirectives : ∀ l ∈ (SourceFile.ofText o.shape c).directives ++
      front.takeWhile Line.isDirective, Line.isDirective l = true := by
    intro l hl
    rcases List.mem_append.mp hl with hl | hl
    · exact (SourceFile.directives_ofText o.shape c).1 l hl
    · exact List.all_eq_true.mp List.all_takeWhile l hl
  have hlines := Lines.ofText_unlines hplain
  rw [← htext, ← List.takeWhile_append_dropWhile (p := Line.isDirective) (l := front),
    ← List.append_assoc] at hlines
  rw [SourceFile.ofText_eq hp hlines hdirectives fun _ hl => not_of_mem_head?_dropWhile hl]
  exact ⟨rfl, rfl⟩

/-- What a stripped file is made of, where the block stood before the body. -/
theorem trimStart_body_stripped (hnone : (SourceFile.ofText o.shape s).region = none)
    (hs : s = (SourceFile.ofText o.shape c).remainder (LineEnding.detect c) .before .regenerate)
    (hds : (SourceFile.ofText o.shape s).directives = (SourceFile.ofText o.shape c).directives) :
    Text.trimStart (SourceFile.ofText o.shape s).body =
      Text.trimStart (SourceFile.ofText o.shape c).body := by
  have hraw := SourceFile.raw_eq_of_no_region hnone
  rw [SourceFile.directiveText, hds] at hraw
  conv at hraw => lhs; rw [hs]
  have hbody : Text.trimStart (SourceFile.ofText o.shape c).body =
      (SourceFile.ofText o.shape s).body := List.append_cancel_left hraw
  rw [← hbody, Text.trimStart_trimStart]

/-- The same where it stood behind the body. -/
theorem trimEnd_body_stripped (hnone : (SourceFile.ofText o.shape s).region = none)
    (hs : s = (SourceFile.ofText o.shape c).remainder (LineEnding.detect c) .after .regenerate)
    (hds : (SourceFile.ofText o.shape s).directives = (SourceFile.ofText o.shape c).directives) :
    Text.trimEnd (SourceFile.ofText o.shape s).body =
      Text.trimEnd (SourceFile.ofText o.shape c).body := by
  have hraw := SourceFile.raw_eq_of_no_region hnone
  rw [SourceFile.directiveText, hds] at hraw
  conv at hraw => lhs; rw [hs]
  rw [SourceFile.remainder, List.append_assoc] at hraw
  have hbody : Text.trimEnd (SourceFile.ofText o.shape c).body ++ (LineEnding.detect c).text =
      (SourceFile.ofText o.shape s).body := List.append_cancel_left hraw
  rw [← hbody, Text.trimEnd_append_of_isBlank fun c hc => LineEnding.isBlank_of_mem_text _ hc,
    Text.trimEnd_trimEnd]

/-- **Where the third run gives what the first one gave**, the stripped file has the directives and
    the line ending of the file at the beginning. -/
theorem directives_eq_of_restored (hw : o.wrapper.IsPlain) (hb : Rendered block)
    (hnone : (SourceFile.ofText o.shape c).region = none)
    (hnone' : (SourceFile.ofText o.shape s).region = none)
    (hs : s = (SourceFile.ofText o.shape c).remainder (LineEnding.detect c) (o.positionFor k)
      .regenerate)
    (hL : Annotation o c block k .regenerate L) (hL' : Annotation o s block k .regenerate L) :
    (SourceFile.ofText o.shape s).directives = (SourceFile.ofText o.shape c).directives ∧
      LineEnding.detect s = LineEnding.detect c := by
  have hp := Options.isSingleLine_shape hw.toIsSingleLine
  refine ⟨?_, Wrapper.written_injective hw hb (hL'.writes.core_eq.symm.trans hL.writes.core_eq)⟩
  cases hpos : o.positionFor k with
  | before =>
    have hds : L.directives = _ := congrArg Layout.directives (hL.eq_layoutBefore hpos)
    have hds' : L.directives = _ := congrArg Layout.directives (hL'.eq_layoutBefore hpos)
    exact hds'.symm.trans hds
  | after =>
    rw [hpos] at hs
    obtain ⟨hds, hrest⟩ := ofText_stripped_after hp hs
    rcases SourceFile.takeWhile_or_dropWhile_trimmedLines hp hnone (LineEnding.detect c) with
      hstays | hgone
    · rw [hds, hstays, List.append_nil]
    · -- nothing would stand before the block then, and an empty line does
      have hbefore : L.region.before = _ :=
        congrArg (fun L => L.region.before) (hL.eq_layoutAfter hpos)
      have hbefore' : L.region.before = _ :=
        congrArg (fun L => L.region.before) (hL'.eq_layoutAfter hpos)
      rw [hgone] at hrest
      have hbody : (SourceFile.ofText o.shape s).body = [] := by
        simp [SourceFile.body, hnone', hrest, Lines.toText]
      have hempty : Line.isDirective ((LineEnding.detect s).onLine []) = false :=
        not_isDirective_of_isEmpty (LineEnding.isEmpty_onLine_nil _)
      have hfront : trimmedLines (LineEnding.detect s) [] = [(LineEnding.detect s).onLine []] := rfl
      simp only [SourceFile.layoutAfter, hgone] at hbefore
      simp only [SourceFile.layoutAfter, hbody, hfront, hbefore] at hbefore'
      rw [List.dropWhile_cons_of_neg (by simp [hempty])] at hbefore'
      cases hbefore'

/-- **Stripping and annotating again** writes, and it gives the annotated file of before exactly
    where stripping brought back the directives and the line ending. -/
theorem annotate_stripped_iff (hforce : o.force = false) (hfrozen : o.frozen = false)
    (hw : o.wrapper.IsPlain) (hb : Rendered block)
    (hnone : (SourceFile.ofText o.shape c).hasRegion = false)
    (ht : annotate o path c block k = .ok (some t)) (hs : strip o path t = .ok (some s)) :
    (∃ u, annotate o path s block k = .ok (some u)) ∧
      (annotate o path s block k = .ok (some t) ↔
        (Lines.ofText s).directives = (Lines.ofText c).directives ∧
          LineEnding.detect s = LineEnding.detect c) := by
  have hsingle := hw.toIsSingleLine
  have hnone : (SourceFile.ofText o.shape c).region = none := by
    simpa [SourceFile.hasRegion] using hnone
  obtain ⟨L, hL, rfl, hremainder⟩ := exists_annotation_of_strip hforce hsingle hb hnone ht hs
  obtain ⟨hnone', -⟩ := region_stripped hsingle hs
  have hclosed : o.positionFor k = .after → (Lines.ofText s).tail = [] := by
    intro hpos
    obtain ⟨-, htail⟩ := headings_stripped hsingle hs
    rw [htail, Layout.ofText_text hL.fits, hL.eq_layoutAfter hpos]
    rfl
  obtain ⟨L', hL', hagain⟩ := exists_annotation_stripped hfrozen hsingle hb hclosed hs
  refine ⟨⟨_, hagain⟩, ?_, ?_⟩
  · intro hsame
    have htext : L'.text = L.text := Option.some.inj (Except.ok.inj (hagain.symm.trans hsame))
    obtain rfl := hL'.layout_eq hL hw hb hb htext
    exact directives_eq_of_restored hw hb hnone hnone' hremainder hL hL'
  · rintro ⟨hds, hending⟩
    rw [hagain, hL'.text_eq hsingle hb, hL.text_eq hsingle hb]
    refine congrArg (fun u => Except.ok (some u)) (SourceFile.regenerate_congr hds hending ?_ _)
    cases hpos : o.positionFor k with
    | before => exact trimStart_body_stripped hnone' (hpos ▸ hremainder) hds
    | after => exact trimEnd_body_stripped hnone' (hpos ▸ hremainder) hds

/-- The file with blank lines around its body, without those at its end. -/
def strippedText : Text :=
  unlines (["# typed: true", "", "class A", "  b  ", "end"].map String.toList)

theorem strip_spacedAnnotated :
    strip afterOptions "a.rb" spacedAnnotated = .ok (some strippedText) := by
  have hone : afterOptions.shape.count spacedAnnotated ≤ 1 := by
    rw [RegionShape.count_eq (p := afterOptions.shape) isSingleLine_usual]
    decide
  exact strip_eq_some_iff.mpr ⟨by decide, hone, _, rfl, by decide⟩

/-- Stripping takes the blank lines at its end, and the block comes back all the same. -/
theorem annotate_stripped_spacedText :
    annotate afterOptions "a.rb" strippedText shortBlock .model = .ok (some spacedAnnotated) := by
  obtain ⟨-, hrestored⟩ := annotate_stripped_iff rfl rfl Wrapper.isPlain_empty rendered_shortBlock
    (by decide) annotate_spacedText strip_spacedAnnotated
  exact hrestored.mpr ⟨by decide, by decide⟩

/-- A file of one directive that no newline ends. -/
def openDirective : Text := "# typed: true".toList

/-- **Blank lines may pile up**: once the directive has its newline, one more line break is put
    between it and the block. -/
theorem not_annotate_stripped :
    ¬ ∀ (o : Options) (path : String) (c t s block : Text) (k : FileKind), o.wrapper = {} →
      o.force = false → o.frozen = false → Rendered block →
      (SourceFile.ofText o.shape c).hasRegion = false →
      annotate o path c block k = .ok (some t) → strip o path t = .ok (some s) →
      annotate o path s block k = .ok (some t) := by
  intro h
  have hp : afterOptions.shape.IsSingleLine := isSingleLine_usual
  have hone : (SourceFile.ofText afterOptions.shape openDirective).regionCount ≤ 1 := by
    rw [SourceFile.regionCount_ofText hp]
    decide
  have hfirst : annotate afterOptions "a.rb" openDirective shortBlock .model =
      .ok (some (openDirective ++ ['\n', '\n'] ++ shortBlock)) :=
    annotate_eq_some_iff.mpr ⟨by decide, hone, rfl, by decide, .regenerate, by decide, by decide⟩
  have hcount : afterOptions.shape.count (openDirective ++ ['\n', '\n'] ++ shortBlock) ≤ 1 := by
    rw [RegionShape.count_eq hp]
    decide
  have hstrip : strip afterOptions "a.rb" (openDirective ++ ['\n', '\n'] ++ shortBlock) =
      .ok (some (openDirective ++ ['\n'])) :=
    strip_eq_some_iff.mpr ⟨by decide, hcount, _, rfl, by decide⟩
  have hthird := h afterOptions "a.rb" openDirective _ _ shortBlock .model rfl rfl rfl
    rendered_shortBlock (by decide) hfirst hstrip
  -- the third run writes another text
  obtain ⟨-, -, -, -, a, ha, htext⟩ := annotate_eq_some_iff.mp hthird
  have hanew : (SourceFile.ofText afterOptions.shape (openDirective ++ ['\n'])).action? false
      (Wrapper.wrap {} shortBlock) = some .regenerate := by decide
  obtain rfl : a = .regenerate := Option.some.inj (ha.symm.trans hanew)
  exact absurd htext (by decide)

end SchemaComment
