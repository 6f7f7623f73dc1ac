/-
  A FILE IN THE OTHER LINE ENDING.

  A checkout may give every line of a file a carriage return.  The file is then taken apart at the
  same lines, and stripping it gives what stripping gave before, in the other line ending.

  1. **Program** — `SourceFile.ofText` and `strip`, on a text and on the same text in the other line
     ending (`Text.toCrlf`).
  2. **Specification** — `SourceFile.ofText_toCrlf`: every piece of the file gets its returns, and the
     number of regions stays.  `strip_toCrlf` says so of the pieces as texts and of what is left when
     the region is cut out.
  3. **The crux** — a recogniser asks a line for its beginning, or whether there is anything in it, and
     the return of a line is no part of either.  So a return behind each line is a change that none of
     them sees (`Unseen`), and a region that fits goes on fitting under such a change
     (`Region.Fits.map`).  As there is one region that fits, it is the one that the search finds.
-/
import SchemaComment.Proofs.Breaks
import SchemaComment.Proofs.Converted
import SchemaComment.Proofs.OptedOut

namespace SchemaComment

open Line

/-! ## A change that no recogniser sees -/

/-- Every line of the region changed. -/
def Region.map (g : Line → Line) (r : Region) : Region :=
  ⟨r.before.map g, r.leading.map g, r.core.map g, r.trailing.map g, r.after.map g⟩

@[simp] theorem Region.leading_map (g : Line → Line) (r : Region) :
    (r.map g).leading = r.leading.map g := rfl

@[simp] theorem Region.trailing_map (g : Line → Line) (r : Region) :
    (r.map g).trailing = r.trailing.map g := rfl

@[simp] theorem Region.lines_map (g : Line → Line) (r : Region) : (r.map g).lines = r.lines.map g := by
  simp [map, lines]

@[simp] theorem Region.allLines_map (g : Line → Line) (r : Region) :
    (r.map g).allLines = r.allLines.map g := by
  simp [map, allLines, lines]

/-- A change of these lines after which each of them reads as it did. -/
structure Unseen (p : RegionShape) (g : Line → Line) (ls : List Line) : Prop where
  header : ∀ l ∈ ls, isHeader (g l) = isHeader l
  comment : ∀ l ∈ ls, isComment (g l) = isComment l
  empty : ∀ l ∈ ls, Line.isEmpty (g l) = Line.isEmpty l
  marks : ∀ l ∈ ls, p.marks (g l) = p.marks l

section Change

variable {p : RegionShape} {g : Line → Line} {ls : List Line}

theorem Unseen.mono {ks : List Line} (h : Unseen p g ls) (hks : ks ⊆ ls) : Unseen p g ks :=
  ⟨fun l hl => h.header l (hks hl), fun l hl => h.comment l (hks hl), fun l hl => h.empty l (hks hl),
    fun l hl => h.marks l (hks hl)⟩

/-- A core stays one. -/
theorem RegionShape.IsCore.map {core : List Line} (h : p.IsCore core) (hg : Unseen p g core) :
    p.IsCore (core.map g) := by
  cases h with
  | @plain k cs hh hcs =>
    refine .plain ((hg.header k (by simp)).trans hh) fun l hl => ?_
    obtain ⟨c, hc, rfl⟩ := List.mem_map.mp hl
    exact (hg.comment c (by simp [hc])).trans (hcs c hc)
  | @marked m k cs hm hh hcs =>
    refine .marked ((hg.marks m (by simp)).trans hm) ((hg.header k (by simp)).trans hh) fun l hl => ?_
    obtain ⟨c, hc, rfl⟩ := List.mem_map.mp hl
    exact (hg.comment c (by simp [hc])).trans (hcs c hc)

/-- The end of a region stays one. -/
theorem RegionShape.Ends.map {es after : List Line} (h : Ends es after)
    (hg : Unseen p g (es ++ after)) : Ends (es.map g) (after.map g) := by
  have hhead : ∀ l ∈ (after.map g).head?, ∃ a ∈ after.head?, g a = l ∧ a ∈ es ++ after := by
    intro l hl
    rw [List.head?_map] at hl
    obtain ⟨a, ha, rfl⟩ := Option.map_eq_some_iff.mp hl
    exact ⟨a, ha, rfl, List.mem_append_right _ (List.mem_of_mem_head? ha)⟩
  refine ⟨?_, ?_, ?_⟩
  · intro l hl
    obtain ⟨e, he, rfl⟩ := List.mem_map.mp hl
    exact (hg.empty e (List.mem_append_left _ he)).trans (h.empty e he)
  · intro l hl
    obtain ⟨a, ha, rfl, hmem⟩ := hhead l hl
    exact (hg.empty a hmem).trans (h.solid a ha)
  · intro hes l hl
    obtain ⟨a, ha, rfl, hmem⟩ := hhead l hl
    exact (hg.comment a hmem).trans (h.apart (List.map_eq_nil_iff.mp hes) a ha)

/-- **A region that fits goes on fitting.** -/
theorem Region.Fits.map {r : Region} (h : r.Fits p) (hg : Unseen p g r.allLines) :
    (r.map g).Fits p := by
  obtain ⟨before, leading, core, trailing, after⟩ := r
  have hbefore : Unseen p g before := hg.mono fun l hl => by simp [allLines, hl]
  have hleading : Unseen p g leading := hg.mono fun l hl => by simp [allLines, lines, hl]
  have hcore : Unseen p g core := hg.mono fun l hl => by simp [allLines, lines, hl]
  have hends : Unseen p g (trailing ++ after) := hg.mono fun l hl => by
    rcases List.mem_append.mp hl with hl | hl <;> simp [allLines, lines, hl]
  have hlast : ∀ l ∈ (before.map g).getLast?, ∃ b ∈ before.getLast?, g b = l ∧ b ∈ before := by
    intro l hl
    rw [List.getLast?_map] at hl
    obtain ⟨b, hb, rfl⟩ := Option.map_eq_some_iff.mp hl
    exact ⟨b, hb, rfl, List.mem_of_getLast? hb⟩
  refine ⟨?_, ?_, RegionShape.IsCore.map h.core hcore, RegionShape.Ends.map h.ends hends, ?_, ?_⟩
  · intro l hl
    obtain ⟨b, hb, rfl⟩ := List.mem_map.mp hl
    exact (hbefore.header b hb).trans (h.before b hb)
  · rcases h.leading with hnil | ⟨e, he, hone⟩
    · obtain rfl : leading = [] := hnil
      exact Or.inl rfl
    · obtain rfl : leading = [e] := hone
      exact Or.inr ⟨g e, (hleading.empty e (by simp)).trans he, rfl⟩
  · intro hlead l hl
    obtain ⟨b, hb, rfl, hmem⟩ := hlast l hl
    exact (hbefore.empty b hmem).trans (h.start_empty (List.map_eq_nil_iff.mp hlead) b hb)
  · intro hlead hheader l hl
    obtain ⟨b, hb, rfl, hmem⟩ := hlast l hl
    refine (hbefore.marks b hmem).trans (h.start_marker (List.map_eq_nil_iff.mp hlead) ?_ b hb)
    -- the first line of the core is a header under the change, and so without it
    intro c hc
    have hchanged : g c ∈ (core.map g).head? := by
      rw [List.head?_map]
      exact Option.map_eq_some_iff.mpr ⟨c, hc, rfl⟩
    exact (hcore.header c (List.mem_of_mem_head? hc)).symm.trans (hheader (g c) hchanged)

/-- **A search of changed lines** finds the region that it finds in the lines as they were. -/
theorem RegionShape.first?_map (hp : p.IsSingleLine) (hg : Unseen p g ls) :
    p.first? (ls.map g) = (p.first? ls).map (Region.map g) := by
  cases h : p.first? ls with
  | none =>
    refine (first?_eq_none_iff hp).mpr fun l hl => ?_
    obtain ⟨k, hk, rfl⟩ := List.mem_map.mp hl
    exact (hg.header k hk).trans ((first?_eq_none_iff hp).mp h k hk)
  | some r =>
    obtain ⟨rfl, hfits⟩ := (first?_eq_some_iff hp).mp h
    exact (first?_eq_some_iff hp).mpr ⟨Region.allLines_map g r, hfits.map hg⟩

/-- There are as many headings among the changed lines. -/
theorem headings_map (hg : Unseen p g ls) (inside : Bool) :
    headings inside (ls.map g) = headings inside ls := by
  induction ls generalizing inside with
  | nil => rfl
  | cons l ls ih =>
    have hls := ih (hg.mono (List.subset_cons_self l ls))
    rw [List.map_cons, headings, headings, hg.header l (by simp), hg.comment l (by simp), hls, hls]

/-- A run is taken off changed lines where it is taken off the lines as they were. -/
theorem takeWhile_dropWhile_map {α : Type} {q : α → Bool} {g : α → α} {as : List α}
    (h : ∀ a ∈ as, q (g a) = q a) :
    (as.map g).takeWhile q = (as.takeWhile q).map g ∧
      (as.map g).dropWhile q = (as.dropWhile q).map g := by
  induction as with
  | nil => exact ⟨rfl, rfl⟩
  | cons a as ih =>
    have hrest := ih fun b hb => h b (List.mem_cons_of_mem a hb)
    have ha := h a (by simp)
    cases hq : q a <;> simp [ha, hq, hrest]

end Change

/-! ## A carriage return behind each line -/

namespace Line

theorem isHeader_append_return (l : Line) : isHeader (l ++ ['\r']) = isHeader l :=
  isHeader_append_blank (by simp [Text.isBlank_return])

/-- A line that does not end in a return is as empty with one. -/
theorem isEmpty_append_return {l : Line} (h : endsInReturn l = false) :
    isEmpty (l ++ ['\r']) = isEmpty l := by
  have hne : l ≠ ['\r'] := by
    rintro rfl
    cases h
  rw [Bool.eq_iff_iff, isEmpty_iff, isEmpty_iff]
  simp [hne]

end Line

/-- A marker without a return does not read the one behind a line. -/
theorem RegionShape.marks_append_return {p : RegionShape} (h : ∀ m ∈ p.opening, '\r' ∉ m) (l : Line) :
    p.marks (l ++ ['\r']) = p.marks l := by
  rw [Bool.eq_iff_iff, marks_iff, marks_iff]
  refine exists_congr fun m => and_congr_right fun hm => ?_
  rw [List.prefix_concat_iff, or_iff_right]
  intro hall
  have hmem : '\r' ∈ commented m := by
    rw [hall]
    simp
  simp only [commented, List.mem_cons] at hmem
  rcases hmem with hmem | hmem | hmem
  · cases hmem
  · cases hmem
  · exact h m hm hmem

/-- **A return behind each line** is seen by no recogniser. -/
theorem unseen_append_return {p : RegionShape} {ls : List Line} (hopen : ∀ m ∈ p.opening, '\r' ∉ m)
    (hls : ∀ l ∈ ls, endsInReturn l = false) : Unseen p (· ++ ['\r']) ls :=
  ⟨fun l _ => isHeader_append_return l, fun l _ => isComment_append_return l,
    fun l hl => isEmpty_append_return (hls l hl), fun l _ => RegionShape.marks_append_return hopen l⟩

/-- **A text has opted out** under either line ending, or under none. -/
theorem optedOut_toCrlf (t : Text) : optedOut t.toCrlf = optedOut t := by
  have hline : optedOut ∘ (· ++ ['\r']) = optedOut := funext optedOut_append_return
  rw [optedOut_eq_any, Lines.ofText_toCrlf, List.any_map, hline, ← optedOut_eq_any]

/-! ## The pieces of a file -/

namespace SourceFile

variable {p : RegionShape} {c : Text}

/-- The file with a return behind each line of it. -/
def withReturns (f : SourceFile) : SourceFile where
  raw := f.raw.toCrlf
  directives := f.directives.map (· ++ ['\r'])
  rest := ⟨f.rest.ended.map (· ++ ['\r']), f.rest.tail⟩
  region := f.region.map (Region.map (· ++ ['\r']))
  regionCount := f.regionCount

/-- **A file is taken apart at the same lines** under the other line ending. -/
theorem ofText_toCrlf (hp : p.IsSingleLine) (hopen : ∀ m ∈ p.opening, '\r' ∉ m)
    (hc : LineEnding.Uniform .lf c) : ofText p c.toCrlf = (ofText p c).withReturns := by
  have hlines := hc.endsInReturn_eq_false
  have hdirective : ∀ l ∈ (Lines.ofText c).ended, Line.isDirective (l ++ ['\r']) = Line.isDirective l :=
    fun l hl => LineEnding.isDirective_append_onLine_nil (hlines l hl) .crlf
  obtain ⟨htake, hdrop⟩ := takeWhile_dropWhile_map hdirective
  have hrest : Unseen p (· ++ ['\r']) ((Lines.ofText c).ended.dropWhile Line.isDirective) :=
    unseen_append_return hopen fun l hl => hlines l ((List.dropWhile_suffix _).subset hl)
  simp only [ofText, withReturns, Lines.directives, Lines.afterDirectives, Lines.ofText_toCrlf, htake,
    hdrop, RegionShape.located?_eq, RegionShape.first?_map hp hrest, RegionShape.length_all hp, headings_map hrest]

/-- The lines of the body get their returns. -/
theorem bodyLines_withReturns (f : SourceFile) :
    f.withReturns.bodyLines = f.bodyLines.map (· ++ ['\r']) := by
  cases h : f.region <;> simp [bodyLines, withReturns, Region.map, h]

/-- **The texts of the pieces** get their returns. -/
theorem texts_withReturns (hp : p.IsSingleLine) (c : Text) :
    let f := ofText p c
    f.withReturns.directiveText = f.directiveText.toCrlf ∧ f.withReturns.body = f.body.toCrlf ∧
      f.withReturns.regionText = f.regionText.toCrlf ∧
      f.withReturns.leadingText = f.leadingText.toCrlf ∧
      f.withReturns.trailingText = f.trailingText.toCrlf := by
  intro f
  have hplain : ∀ l ∈ f.directives ++ f.rest.ended, '\n' ∉ l := by
    have hended := Lines.not_mem_ended_ofText c
    rwa [lines_ofText p c] at hended
  have htail : '\n' ∉ f.rest.tail := by
    have hopen := Lines.not_mem_tail_ofText c
    rwa [lines_ofText p c] at hopen
  have hdirectives := Text.toCrlf_unlines fun l hl => hplain l (List.mem_append_left _ hl)
  have hbody := Text.toCrlf_unlines_append
    (fun l hl => hplain l (List.mem_append_right _ (mem_rest_of_mem_bodyLines hp hl))) htail
  refine ⟨hdirectives.symm, ?_, ?_⟩
  · rw [body_eq, body_eq, hbody, bodyLines_withReturns]
    rfl
  · cases hr : f.region with
    | none => simp [withReturns, regionText, leadingText, trailingText, hr, Text.toCrlf]
    | some r =>
      have hall := allLines_of_region hr
      have hpieces : ∀ ls ⊆ r.lines, (unlines ls).toCrlf = unlines (ls.map (· ++ ['\r'])) := by
        intro ls hls
        refine Text.toCrlf_unlines fun l hl => hplain l (List.mem_append_right _ ?_)
        rw [show f.rest.ended = r.allLines from hall.symm]
        simp [Region.allLines, hls hl]
      have hlines := hpieces r.lines (List.Subset.refl _)
      have hleading := hpieces r.leading fun l hl => by simp [Region.lines, hl]
      have htrailing := hpieces r.trailing fun l hl => by simp [Region.lines, hl]
      simp [withReturns, regionText, leadingText, trailingText, hr, Region.text, hlines, hleading,
        htrailing]

end SourceFile

/-! ## Stripping -/

section Strip

variable {o : Options} {c : Text}

/-- A search of the whole text finds the same lines, and as many regions. -/
theorem RegionShape.locate_toCrlf {p : RegionShape} (hp : p.IsSingleLine)
    (hopen : ∀ m ∈ p.opening, '\r' ∉ m) (hc : LineEnding.Uniform .lf c) :
    p.locate c.toCrlf = (p.locate c).map (Region.map (· ++ ['\r'])) ∧
      p.count c.toCrlf = p.count c := by
  have hunseen : Unseen p (· ++ ['\r']) (Lines.ofText c).ended :=
    unseen_append_return hopen (hc.endsInReturn_eq_false)
  rw [locate_eq, locate_eq, count_eq hp, count_eq hp, Lines.ofText_toCrlf]
  exact ⟨first?_map hp hunseen, headings_map hunseen false⟩

/-- **What stripping leaves** under the other line ending is what it left before. -/
theorem strip_of_uniform (path : String) (hp : o.shape.IsSingleLine)
    (hopen : ∀ m ∈ o.wrapper.opening, '\r' ∉ m) (hc : LineEnding.Uniform .lf c) :
    strip o path c.toCrlf = (strip o path c).map (Option.map Text.toCrlf) := by
  obtain ⟨hlocate, hcount⟩ := RegionShape.locate_toCrlf hp hopen hc
  rw [strip, strip, optedOut_toCrlf, hlocate, hcount, Lines.ofText_toCrlf]
  split
  · rfl
  · split
    · rfl
    · cases hr : o.shape.locate c with
      | none => rfl
      | some r =>
        have hplain : ∀ l ∈ r.before ++ r.after, '\n' ∉ l := by
          intro l hl
          refine Lines.not_mem_ended_ofText c l ?_
          rw [← (RegionShape.lines_of_first? ((o.shape.locate_eq c).symm.trans hr)).1]
          exact Region.mem_allLines_of_around hl
        have hleft := Text.toCrlf_unlines_append hplain (Lines.not_mem_tail_ofText c)
        rw [List.map_append] at hleft
        exact congrArg (fun s => Except.ok (some s)) hleft.symm

/-- **A file in the other line ending**, and without a carriage return before that, is taken apart as
    it was: it has a region when it had one, as many, and has opted out when it had, and each piece
    of it is the piece that it was in the other line ending.  So is what stripping leaves; where
    stripping leaves the file alone or finds several regions, it does so again. -/
theorem strip_toCrlf {o : Options} {c : Text} (path : String)
    (hopen : ∀ m ∈ o.wrapper.opening, '\n' ∉ m ∧ '\r' ∉ m) (hc : '\r' ∉ c) :
    let f := SourceFile.ofText o.shape c
    let g := SourceFile.ofText o.shape c.toCrlf
    (g.hasRegion = f.hasRegion ∧ g.regionCount = f.regionCount ∧ g.isOptedOut = f.isOptedOut) ∧
      (g.directiveText = f.directiveText.toCrlf ∧ g.body = f.body.toCrlf ∧
        g.regionText = f.regionText.toCrlf ∧ g.leadingText = f.leadingText.toCrlf ∧
        g.trailingText = f.trailingText.toCrlf) ∧
      strip o path c.toCrlf = (strip o path c).map (Option.map Text.toCrlf) := by
  intro f g
  have hp := Options.isSingleLine_shape_of_opening fun m hm => (hopen m hm).1
  have hreturn : ∀ m ∈ o.wrapper.opening, '\r' ∉ m := fun m hm => (hopen m hm).2
  have huniform : LineEnding.Uniform .lf c := LineEnding.uniform_lf_of_not_mem hc
  have hg : g = f.withReturns := SourceFile.ofText_toCrlf hp hreturn huniform
  rw [hg]
  refine ⟨⟨?_, rfl, optedOut_toCrlf c⟩, SourceFile.texts_withReturns hp c,
    strip_of_uniform path hp hreturn huniform⟩
  simp [SourceFile.hasRegion, SourceFile.withReturns]

end Strip

/-- Options under which a schema comment opens with a marker. -/
def openedOptions : Options := { wrapper := ⟨some "START".toList, none⟩ }

/-- A file with a directive, and with such a comment between empty lines. -/
def openedText : Text :=
  "# typed: true\n\n# START\n# == Schema Info\n#  id :integer\n\nclass User\nend\n".toList

theorem strip_openedText :
    strip openedOptions "user.rb" openedText =
      .ok (some "# typed: true\nclass User\nend\n".toList) := by
  have hp := Options.isSingleLine_shape_of_opening (o := openedOptions) (by decide)
  exact strip_eq_some_iff.mpr ⟨by decide, by rw [RegionShape.count_eq hp]; decide, _, rfl, by decide⟩

theorem strip_toCrlf_openedText :
    let g := SourceFile.ofText openedOptions.shape openedText.toCrlf
    g.hasRegion = true ∧ g.directiveText = "# typed: true\r\n".toList ∧
      g.regionText = "\r\n# START\r\n# == Schema Info\r\n#  id :integer\r\n\r\n".toList ∧
      strip openedOptions "user.rb" openedText.toCrlf =
        .ok (some "# typed: true\r\nclass User\r\nend\r\n".toList) := by
  intro g
  obtain ⟨⟨hhas, -⟩, ⟨hdirectives, -, hregion, -⟩, hstrip⟩ :=
    strip_toCrlf (o := openedOptions) (c := openedText) "user.rb" (by decide) (by decide)
  refine ⟨hhas.trans (by decide), hdirectives.trans (by decide), hregion.trans (by decide), ?_⟩
  rw [hstrip, strip_openedText]
  decide

end SchemaComment
