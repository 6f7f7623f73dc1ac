/-
  MOVING A SCHEMA COMMENT.

  Under `force` a file that has a schema comment gets its block where the options put it now.  That
  takes the old comment out and writes a new one in a single step.

  1. **Program** — `annotate` under `force`, beside `strip` followed by `annotate`.
  2. **Specification** — `annotate_forced_eq_stripped`: both ways give the same text, and the single
     step says nothing where that is the text it began with.
  3. **The crux** — the two steps take the file apart twice.  What is written follows from the
     directives, the trimmed body and the line ending (`SourceFile.regenerate_congr`), and the
     stripped file has the same three: its directives end where they did as long as the body does not
     open with one (`SourceFile.ofText_remainder`), and without carriage returns there is only one
     line ending.
-/
import SchemaComment.Proofs.Restoring
import SchemaComment.Proofs.Breaks
import SchemaComment.Proofs.Standing

namespace SchemaComment

open Line

/-- Without carriage returns a text is in `lf`. -/
theorem LineEnding.detect_of_not_mem {t : Text} (h : '\r' ∉ t) : detect t = .lf := by
  have hwhole : Whole .lf (apply .lf t) := whole_apply fun _ => h
  exact hwhole.uniform.detect_eq fun he => by cases he

namespace SourceFile

variable {p : RegionShape} {f : SourceFile} {c wrapped : Text}

/-- Directives and body of a file with one region, taken apart as a file of their own. -/
theorem ofText_remainder (hp : p.IsSingleLine) (hone : (ofText p c).regionCount ≤ 1)
    (hbody : (Lines.ofText (ofText p c).body).directives = []) :
    let f := ofText p c
    ofText p (f.directiveText ++ f.body) =
      ⟨f.directiveText ++ f.body, f.directives, ⟨f.bodyLines, f.rest.tail⟩, none, 0⟩ := by
  intro f
  have hread : Lines.ofText (f.directiveText ++ f.body) =
      ⟨f.directives ++ f.bodyLines, f.rest.tail⟩ := by
    have hwhole := Lines.ofText_unlines_append (not_mem_lines_ofText p c).1 f.body
    rw [ofText_body hp] at hwhole
    exact hwhole
  have hfirst : ∀ l ∈ f.bodyLines.head?, Line.isDirective l = false := by
    rw [ofText_body hp, Lines.directives] at hbody
    intro l hl
    cases hd : Line.isDirective l with
    | false => rfl
    | true =>
      obtain ⟨ls, hls⟩ := List.head?_eq_some_iff.mp hl
      have hlines : (ofText p c).bodyLines = l :: ls := hls
      simp [hlines, hd] at hbody
  have hnone := not_isHeader_bodyLines hp hone
  have hregion : p.first? f.bodyLines = none := (RegionShape.first?_eq_none_iff hp).mpr hnone
  rw [ofText_eq hp hread (directives_ofText p c).1 hfirst, hregion, headings_eq_zero hnone]

/-- Directives and body hold no character that the file does not. -/
theorem remainder_subset {r : Region} (hr : (ofText p c).region = some r) :
    (ofText p c).directiveText ++ (ofText p c).body ⊆ c := by
  intro d hd
  rw [raw_eq_of_region hr]
  simp only [body, hr, unlines_append, List.mem_append] at hd ⊢
  rcases hd with hd | (hd | hd) | hd <;> simp [hd]

/-- **A block does not vanish among blanks**: what is written anew is not the file without it. -/
theorem textAfter_regenerate_ne (hraw : f.raw = f.directiveText ++ f.body)
    (hsolid : ∃ d ∈ (LineEnding.detect f.raw).apply wrapped, Text.isBlank d = false)
    (pos : Position) : f.textAfter .regenerate wrapped pos ≠ f.raw := by
  obtain ⟨d, hd, hsolid⟩ := hsolid
  intro hsame
  have hblank : Text.isBlank d = true := by
    cases pos with
    | before =>
      have hbody := Text.takeWhile_append_trimStart f.body
      conv at hsame => rhs; rw [hraw, ← hbody]
      -- the block would have to be among the blanks in front of the body
      simp only [textAfter, regenerate, ← List.append_assoc, List.append_cancel_right_eq] at hsame
      simp only [List.append_assoc, List.append_cancel_left_eq] at hsame
      have hfront : (f.body.takeWhile Text.isBlank).all Text.isBlank = true := List.all_takeWhile
      refine List.all_eq_true.mp hfront d ?_
      rw [← hsame]
      simp [hd]
    | after =>
      have hbody := Text.trimEnd_append_blankEnd f.body
      conv at hsame => rhs; rw [hraw, ← hbody]
      simp only [textAfter, regenerate, List.append_assoc, List.append_cancel_left_eq] at hsame
      refine Text.isBlank_of_mem_blankEnd (t := f.body) ?_
      rw [← hsame]
      simp [hd]
  rw [hsolid] at hblank
  cases hblank

end SourceFile

/-- A rendered block is not all blank, in any line ending. -/
theorem Wrapper.exists_solid {w : Wrapper} {b : Text} (hw : w.IsSingleLine) (hb : Rendered b)
    (e : LineEnding) : ∃ d ∈ e.apply (w.wrap b), Text.isBlank d = false := by
  have hcore := isCore_written (p := { opening := w.opening }) (Or.inr rfl) hb e
  obtain ⟨l, hl, hh⟩ := hcore.header
  obtain ⟨r, rfl⟩ := isComment_iff.mp (isComment_of_isHeader hh)
  rw [apply_wrap hw hb]
  exact ⟨'#', List.mem_flatMap.mpr ⟨_, hl, by simp⟩, Text.isBlank_hash⟩

section

variable {o : Options} {c block : Text}

/-- **Moving a schema comment is taking it out and annotating again.**  Forced annotating gives the
    text that the two steps give, and nothing where that is the text of the file. -/
theorem annotate_forced_eq_stripped (path : String) (k : FileKind) (hforce : o.force = true)
    (hfrozen : o.frozen = false) (hw : o.wrapper.IsSingleLine) (hb : Rendered block)
    (hreturn : '\r' ∉ c) (hout : optedOut c = false)
    (hone : (SourceFile.ofText o.shape c).regionCount = 1)
    (hmarks : ∀ l ∈ (SourceFile.ofText o.shape c).directives, o.shape.marks l = false)
    (hbody : (Lines.ofText (SourceFile.ofText o.shape c).body).directives = []) :
    ∃ s t, strip o path c = .ok (some s) ∧
      (∀ force, annotate { o with force := force } path s block k = .ok (some t)) ∧
      annotate o path c block k = .ok (if t = c then none else some t) := by
  let f := SourceFile.ofText o.shape c
  have hp := Options.isSingleLine_shape hw
  obtain ⟨r, hr⟩ : ∃ r, f.region = some r := by
    refine Option.ne_none_iff_exists'.mp fun hnone => ?_
    have hzero := headings_eq_zero ((SourceFile.region_eq_none_iff hp).mp hnone) false
    rw [← SourceFile.regionCount_ofText hp] at hzero
    omega
  have hstrip : strip o path c = .ok (some (f.directiveText ++ f.body)) := by
    rw [strip_of_region path hp hr hout, if_pos hone.le, SourceFile.not_reachesBack_of_marks hmarks]
    rfl
  have hending : LineEnding.detect (f.directiveText ++ f.body) = LineEnding.detect c := by
    rw [LineEnding.detect_of_not_mem hreturn,
      LineEnding.detect_of_not_mem fun h => hreturn (SourceFile.remainder_subset hr h)]
  let g := SourceFile.ofText o.shape (f.directiveText ++ f.body)
  have hg : g = ⟨f.directiveText ++ f.body, f.directives, ⟨f.bodyLines, f.rest.tail⟩, none, 0⟩ :=
    SourceFile.ofText_remainder hp hone.le hbody
  have hsamebody : g.body = f.body := by
    rw [hg, SourceFile.body_eq f]
    rfl
  -- taken apart again, the stripped file is written as the file itself is
  have htext : g.textAfter .regenerate (o.wrapper.wrap block) (o.positionFor k) =
      f.textAfter .regenerate (o.wrapper.wrap block) (o.positionFor k) := by
    refine SourceFile.regenerate_congr (by rw [hg]) hending ?_ _
    cases o.positionFor k <;> rw [hsamebody]
  refine ⟨_, _, hstrip, fun force => ?_, (annotate_of_forced path hforce hfrozen hout hone.le rfl).2⟩
  have haction : g.action? force (o.wrapper.wrap block) = some .regenerate := by
    refine SourceFile.action?_eq_regenerate _ (optedOut_stripped hstrip) (Or.inl ?_)
    rw [hg]
    rfl
  have hzero : g.regionCount = 0 := by rw [hg]
  refine annotate_eq_some_iff.mpr ⟨optedOut_stripped hstrip, hzero.le.trans (Nat.zero_le 1),
    hfrozen, ?_, .regenerate, haction, htext⟩
  rw [← htext]
  refine SourceFile.textAfter_regenerate_ne ?_ (Wrapper.exists_solid hw hb _) _
  rw [hsamebody, hg]
  rfl

/-- The block behind the body goes before it in two steps or in one. -/
theorem annotate_forced_eq_stripped_spacedText :
    strip { force := true } "a.rb" spacedAnnotated = .ok (some strippedText) ∧
      annotate {} "a.rb" strippedText shortBlock .model = .ok (some raisedText) ∧
      annotate { force := true } "a.rb" spacedAnnotated shortBlock .model = .ok (some raisedText) := by
  have hone : (SourceFile.ofText ({ force := true } : Options).shape spacedAnnotated).regionCount =
      1 := by
    rw [SourceFile.regionCount_ofText (p := ({ force := true } : Options).shape) isSingleLine_usual]
    decide
  obtain ⟨s, t, hs, ht, hforced⟩ := annotate_forced_eq_stripped (o := { force := true })
    "a.rb" .model rfl rfl Wrapper.isPlain_empty.toIsSingleLine rendered_shortBlock (by decide)
    (by decide) hone (by decide) (by decide)
  obtain rfl : s = strippedText :=
    Option.some.inj (Except.ok.inj (hs.symm.trans strip_spacedAnnotated))
  obtain ⟨-, -, -, -, a, ha, htext⟩ := annotate_eq_some_iff.mp (ht false)
  have hanew : (SourceFile.ofText ({} : Options).shape strippedText).action? false
      (Wrapper.wrap {} shortBlock) = some .regenerate := by decide
  obtain rfl : a = .regenerate := Option.some.inj (ha.symm.trans hanew)
  obtain rfl : t = raisedText := htext.symm.trans (by decide)
  rw [if_neg (by decide)] at hforced
  exact ⟨hs, ht false, hforced⟩

end

end SchemaComment
