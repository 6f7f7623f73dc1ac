/-
  WHAT ANNOTATING LEAVES OF A FILE.

  A file is annotated and taken apart again.  What was written is found as its region, and what the
  file had besides is found as directives and body.

  1. **Program** — `SourceFile.remainder`: the text that an action leaves around its block.
  2. **Specification** — `decompose_annotated`: the region is the block as it was written, between
     the blank lines of the region; directives and body are the remainder.
  3. **The crux** — directives and body are compared as one text.  Written behind the body, a block
     may leave more directives than there were, as the lines of an old region no longer stand
     between.
-/
import SchemaComment.Proofs.Annotated

namespace SchemaComment

open Line

namespace SourceFile

variable {f : SourceFile} {p : RegionShape} {e : LineEnding} {core : List Line} {pos : Position}
  {a : Action} {L : Layout}

/-- The directives and the body that an action leaves. -/
def remainder (f : SourceFile) (e : LineEnding) : Position → Action → Text
  | _, .substitute => f.directiveText ++ f.body
  | .before, .regenerate => f.directiveText ++ Text.trimStart f.body
  | .after, .regenerate => f.directiveText ++ Text.trimEnd f.body ++ e.text

/-- What stands around the region that was written. -/
theorem Writes.remainder_eq (h : f.Writes e core pos a L) :
    unlines L.directives ++ (unlines (L.region.before ++ L.region.after) ++ L.tail) =
      f.remainder e pos a := by
  cases h with
  | before =>
    have hwhole := Lines.toText_ofText (Text.trimStart f.body)
    rw [Lines.toText] at hwhole
    simp only [layoutBefore, List.nil_append, remainder, directiveText]
    rw [hwhole]
  | after =>
    have hfront := unlines_trimmedLines e f.body
    rw [← List.takeWhile_append_dropWhile (p := Line.isDirective) (l := trimmedLines e f.body),
      unlines_append] at hfront
    simp only [layoutAfter, List.append_nil, unlines_append, remainder, directiveText,
      List.append_assoc]
    rw [hfront]
  | @inPlace pos r hr => simp [Layout.withCore, layout, remainder, directiveText, body, hr]

/-- In the stead of an old region the blank lines of that one stay. -/
theorem Writes.blanks_eq (h : f.Writes e core pos .substitute L) :
    unlines L.region.leading = f.leadingText ∧ unlines L.region.trailing = f.trailingText := by
  cases h with
  | @inPlace pos r hr => simp [Layout.withCore, layout, leadingText, trailingText, hr]

end SourceFile

section Decompose

variable {o : Options} {path : String} {c t block : Text} {k : FileKind}

/-- **Taking apart undoes annotating.**  The annotated file has its region where the block was
    written, and around it what the action left.  It has this one region only, but for a header of
    the body that was bared. -/
theorem decompose_annotated (hw : o.wrapper.IsPlain) (hb : Rendered block)
    (hc : isHeader (Lines.ofText c).tail = false)
    (h : annotate o path c block k = .ok (some t)) :
    let e := LineEnding.detect c
    let f := SourceFile.ofText o.shape c
    let g := SourceFile.ofText o.shape t
    ∃ a, f.action? o.force (o.wrapper.wrap block) = some a ∧
      g.regionCount = (if f.baresHeader a (o.positionFor k) then 2 else 1) ∧
      g.hasRegion = true ∧
      g.regionText = g.leadingText ++ e.apply (o.wrapper.wrap block) ++ g.trailingText ∧
      g.directiveText ++ g.body = f.remainder e (o.positionFor k) a ∧
      (a = .substitute → g.leadingText = f.leadingText ∧ g.trailingText = f.trailingText) := by
  intro e f g
  obtain ⟨a, L, hL, rfl⟩ := exists_annotation hw.toIsSingleLine hb hc h
  have hg : g = _ := hL.readBack hw hb
  refine ⟨a, hL.chosen, ?_, ?_, ?_, ?_, ?_⟩
  · rw [hg]
  · rw [hg]
    rfl
  · have hcore : L.region.core = o.wrapper.written e block := hL.writes.core_eq
    have hwritten : e.apply (o.wrapper.wrap block) = unlines L.region.core := by
      rw [Wrapper.apply_wrap hw.toIsSingleLine hb, hcore]
    rw [hwritten, hg]
    simp [SourceFile.regionText, SourceFile.leadingText, SourceFile.trailingText, Region.text,
      Region.lines]
  · rw [hg]
    exact hL.writes.remainder_eq
  · rintro rfl
    rw [hg]
    exact hL.writes.blanks_eq

/-- The file with a directive has one region then, below an empty line, and the directive and the
    body are as before. -/
theorem decompose_annotated_typedText :
    let g := SourceFile.ofText ({} : Options).shape typedAnnotated
    g.regionCount = 1 ∧
      g.regionText = g.leadingText ++ LineEnding.apply .crlf shortBlock ++ g.trailingText ∧
      g.directiveText ++ g.body = typedText := by
  obtain ⟨a, ha, hcount, -, htext, hrest, -⟩ := decompose_annotated Wrapper.isPlain_empty
    rendered_shortBlock (by decide) annotate_typedText
  have hanew : (SourceFile.ofText ({} : Options).shape typedText).action? false
      (Wrapper.wrap {} shortBlock) = some .regenerate := by decide
  obtain rfl : a = .regenerate := Option.some.inj (ha.symm.trans hanew)
  exact ⟨hcount.trans (by decide), htext, hrest.trans (by decide)⟩

/-- **Annotating may leave two regions**, one of them from the body. -/
theorem not_decompose_annotated :
    ¬ ∀ (o : Options) (path : String) (c t block : Text) (k : FileKind),
      (SourceFile.ofText o.shape c).regionCount ≤ 1 → o.wrapper.IsPlain → Rendered block →
      isHeader (Lines.ofText c).tail = false → annotate o path c block k = .ok (some t) →
      (SourceFile.ofText o.shape t).regionCount = 1 := by
  intro h
  have hone := h {} "user.rb" hiddenText baredText shortBlock .model regionCount_hiddenText
    Wrapper.isPlain_empty rendered_shortBlock (by decide) annotate_hiddenText
  have htwo := regionCount_baredText
  omega

end Decompose

end SchemaComment
