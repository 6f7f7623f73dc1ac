/-
  WHERE A SCHEMA COMMENT STANDS.

  Once a file is annotated, later runs with other blocks and other positions leave its schema comment
  where it is.  Only a forced run takes it elsewhere.

  1. **Program** — any number of runs of `annotate`, none of them forced, and then one that is.
  2. **Specification** — `Stands p t above below`: the region of `t` lies between these two texts.
     `annotate_stands` says that the texts are the same after every run.  Before the body the one
     above is the directives, behind the body the one below is empty.  A forced run puts the block
     behind the directives, or at the end of the file unless a header was left open there.  It gives
     no text where the first run bared a header: then it is refused.
  3. **The crux** — the invariant is a layout that is read back as it lies (`Layout.Reads`).  A run
     that is not forced gives it another core and nothing else (`Step.exists_withCore`), and the core
     is no part of what stands above and below.
-/
import SchemaComment.Proofs.Idempotence
import SchemaComment.Proofs.Session
import SchemaComment.Proofs.Settling
import SchemaComment.Proofs.Keeping

namespace SchemaComment

open Line

/-! ## A place in a text -/

/-- The schema comment of `t` stands between the texts `above` and `below`. -/
structure Stands (p : RegionShape) (t above below : Text) : Prop where
  region : (SourceFile.ofText p t).hasRegion = true
  text : above ++ (SourceFile.ofText p t).regionText ++ below = t
  span : (SourceFile.ofText p t).regionSpan =
    some (above.size, above.size + (SourceFile.ofText p t).regionText.size)

/-- Only the empty text has no size. -/
theorem Text.size_eq_zero {t : Text} : t.size = 0 ↔ t = [] := by
  cases t with
  | nil => simp
  | cons c t =>
    have := c.utf8Size_pos
    simp only [size, reduceCtorEq, iff_false]
    omega

/-- **With several regions the first one is not at the end.** -/
theorem not_stands_end {p : RegionShape} {t : Text} (hp : p.IsSingleLine)
    (hmany : 2 ≤ p.count t) (above : Text) : ¬ Stands p t above [] := by
  intro h
  obtain ⟨r, hr⟩ := Option.isSome_iff_exists.mp h.region
  have hregion : (SourceFile.ofText p t).regionText = r.text := by
    simp [SourceFile.regionText, hr]
  have hspan := h.span
  simp only [SourceFile.regionSpan, hr, Option.map_some, Option.some.injEq, Prod.mk.injEq,
    Region.start] at hspan
  -- the text below takes up no room, so no line follows the region
  have hsize := congrArg Text.size (h.text.trans (SourceFile.raw_eq_of_region hr))
  have hbelow := congrArg Text.size h.text
  simp only [Text.size_append, Text.size_nil, hregion] at hsize hbelow
  have hafter : Text.size (unlines r.after) = 0 := by omega
  rw [Text.size_eq_zero, unlines_eq_nil] at hafter
  have hcount := SourceFile.regionCount_of_region hp hr
  rw [hafter, headings, ← SourceFile.count_eq_regionCount hp hp] at hcount
  omega

namespace Layout

variable {p : RegionShape} {L : Layout}

/-- Whether the text of the layout is taken apart into the layout. -/
structure Reads (p : RegionShape) (L : Layout) : Prop where
  fits : L.Fits p
  first : ∀ l ∈ L.region.allLines.head?, Line.isDirective l = false

/-- The text above the region. -/
def above (L : Layout) : Text := unlines (L.directives ++ L.region.before)

/-- The text below the region. -/
def below (L : Layout) : Text := unlines L.region.after ++ L.tail

/-- **The region of a layout stands where the layout has it.** -/
theorem Reads.stands (hp : p.IsSingleLine) (h : L.Reads p) : Stands p L.text L.above L.below := by
  have hback := SourceFile.ofText_text hp h.fits h.first
  refine ⟨by rw [hback]; rfl, ?_, ?_⟩
  · rw [hback]
    simp [SourceFile.regionText, Region.text, text, lines, above, below, Region.allLines]
  · rw [hback]
    simp [SourceFile.regionSpan, SourceFile.regionText, SourceFile.directiveText, above, Region.start,
      Region.stop, Nat.add_assoc]

/-- **How many regions there are**: this one, and one more for each header below it. -/
theorem Reads.regionCount_eq (hp : p.IsSingleLine) (h : L.Reads p) :
    (SourceFile.ofText p L.text).regionCount = headings false L.region.after + 1 := by
  rw [SourceFile.ofText_text hp h.fits h.first]

/-- The directives of the text are those of the layout. -/
theorem Reads.directiveText_eq (hp : p.IsSingleLine) (h : L.Reads p) :
    directiveText L.text = unlines L.directives := by
  have hback := SourceFile.ofText_text hp h.fits h.first
  exact congrArg SourceFile.directiveText hback

end Layout

/-! ## What a run writes -/

section

variable {o : Options} {path : String} {c t block : Text} {k : FileKind} {a : Action} {L : Layout}

/-- An opening marker that is no directive keeps what is written apart from the directives. -/
theorem Annotation.reads (h : Annotation o c block k a L) (hw : o.wrapper.IsSingleLine)
    (hmarker : ∀ m ∈ o.wrapper.opening, Line.isDirective (commented m) = false)
    (hb : Rendered block) : L.Reads o.shape :=
  ⟨h.fits, h.writes.not_isDirective (Options.isSingleLine_shape hw)
    (Wrapper.isCore_written (Or.inr rfl) hb _) (Wrapper.not_isDirective_head_written hmarker hb _)⟩

/-- The layout is still read back when another block stands in it. -/
theorem Layout.Reads.withCore (h : L.Reads o.shape) (hw : o.wrapper.IsSingleLine)
    (hmarker : ∀ m ∈ o.wrapper.opening, Line.isDirective (commented m) = false)
    (hb : Rendered block) (e : LineEnding) :
    (L.withCore (o.wrapper.written e block)).Reads o.shape := by
  have hcore := Wrapper.isCore_written (p := o.shape) (Or.inr rfl) hb e
  refine ⟨h.fits.withCore hcore (Wrapper.not_mem_written hw e) fun hhead l hm =>
    Wrapper.isHeader_of_marks rfl hhead hm, ?_⟩
  intro l hl
  rcases L.region.head?_withCore hcore.ne_nil with hsame | hcomes
  · exact h.first l (hsame ▸ hl)
  · exact Wrapper.not_isDirective_head_written hmarker hb e l (hcomes ▸ hl)

/-- **What a forced run gives**, if it gives something and the file has not opted out. -/
theorem eq_textAfter_of_annotated {u : Text} (hforce : o.force = true) (hout : optedOut c = false)
    (h : annotated o path block k c = .ok u) :
    (SourceFile.ofText o.shape c).regionCount ≤ 1 ∧
      (SourceFile.ofText o.shape c).action? o.force (o.wrapper.wrap block) = some .regenerate ∧
      u = (SourceFile.ofText o.shape c).textAfter .regenerate (o.wrapper.wrap block)
        (o.positionFor k) := by
  have haction : (SourceFile.ofText o.shape c).action? o.force (o.wrapper.wrap block) =
      some .regenerate := SourceFile.action?_eq_regenerate _ hout (Or.inr hforce)
  rw [annotated] at h
  cases hrun : annotate o path c block k with
  | error e =>
    rw [hrun] at h
    cases h
  | ok new =>
    rw [hrun] at h
    obtain rfl : new.getD c = u := Except.ok.inj h
    cases new with
    | none =>
      rcases annotate_eq_none_iff.mp hrun with hopted | ⟨hone, hsame⟩
      · rw [hout] at hopted
        cases hopted
      · exact ⟨hone, haction, (hsame _ haction).symm⟩
    | some u =>
      obtain ⟨-, hone, -, -, a, ha, htext⟩ := annotate_eq_some_iff.mp hrun
      obtain rfl : a = .regenerate := Option.some.inj (ha.symm.trans haction)
      exact ⟨hone, haction, htext.symm⟩

end

/-! ## Many runs -/

namespace Step

/-- A run that brings a block into the file between these markers, and is not forced. -/
def Reannotates (w : Wrapper) : Step → Prop
  | .annotate o block _ => o.force = false ∧ o.wrapper = w ∧ Rendered block
  | .strip _ => False

/-- **One run** gives a layout another core at the most. -/
theorem exists_withCore {o : Options} {s : Step} {L : Layout} (hs : s.Reannotates o.wrapper)
    (hw : o.wrapper.IsSingleLine)
    (hmarker : ∀ m ∈ o.wrapper.opening, Line.isDirective (commented m) = false)
    (hL : L.Reads o.shape) :
    ∃ core, s.next L.text = (L.withCore core).text ∧ (L.withCore core).Reads o.shape := by
  rcases next_cases s L.text with hsame | hrun
  · exact ⟨L.region.core, hsame, hL⟩
  · cases s with
    | strip _ => cases hs
    | annotate o' block k =>
      obtain ⟨hforce, hwrapper, hb⟩ := hs
      have hshape : o'.shape = o.shape := by rw [Options.shape, hwrapper, Options.shape]
      have hwritten := annotate_layout hforce (hwrapper ▸ hw) hb (hshape ▸ hL.fits) hL.first hrun
      rw [hwrapper] at hwritten
      exact ⟨_, hwritten, hL.withCore hw hmarker hb _⟩

/-- **Many runs** do the same. -/
theorem exists_withCore_foldl {o : Options} {steps : List Step} {L : Layout}
    (hs : ∀ s ∈ steps, s.Reannotates o.wrapper) (hw : o.wrapper.IsSingleLine)
    (hmarker : ∀ m ∈ o.wrapper.opening, Line.isDirective (commented m) = false)
    (hL : L.Reads o.shape) :
    ∃ core, steps.foldl (fun t s => s.next t) L.text = (L.withCore core).text ∧
      (L.withCore core).Reads o.shape := by
  induction steps generalizing L with
  | nil => exact ⟨L.region.core, rfl, hL⟩
  | cons s ss ih =>
    obtain ⟨core, htext, hreads⟩ := exists_withCore (hs s List.mem_cons_self) hw hmarker hL
    -- the layout with its new core is what the rest of the runs start from
    obtain ⟨core', htext', hreads'⟩ := ih (fun s' h' => hs s' (List.mem_cons_of_mem s h')) hreads
    exact ⟨core', by rw [List.foldl_cons, htext, htext']; rfl, hreads'⟩

end Step

/-! ## A forced run -/

section

variable {o : Options} {path : String} {c t u block : Text} {k : FileKind} {L : Layout}

/-- **A forced run before the body** puts the block right behind the directives. -/
theorem stands_of_forced_before (hforce : o.force = true) (hw : o.wrapper.IsSingleLine)
    (hmarker : ∀ m ∈ o.wrapper.opening, Line.isDirective (commented m) = false)
    (hb : Rendered block) (hout : optedOut t = false) (hpos : o.positionFor k = .before)
    (h : annotated o path block k t = .ok u) : ∃ below, Stands o.shape u (directiveText u) below := by
  have hp := Options.isSingleLine_shape hw
  obtain ⟨hone, haction, rfl⟩ := eq_textAfter_of_annotated hforce hout h
  obtain ⟨L, hL, htext⟩ := exists_annotation_of_chosen (k := k) hw hb
    (fun hafter => by rw [hpos] at hafter; cases hafter) hone haction
  have hreads := hL.reads hw hmarker hb
  have habove : L.above = directiveText L.text := by
    rw [hreads.directiveText_eq hp, Layout.above, hL.eq_layoutBefore hpos]
    simp [SourceFile.layoutBefore]
  rw [← htext, ← habove]
  exact ⟨_, hreads.stands hp⟩

/-- **A forced run behind the body** puts the block at the end, unless a header was left open. -/
theorem stands_of_forced_after (hforce : o.force = true) (hw : o.wrapper.IsSingleLine)
    (hmarker : ∀ m ∈ o.wrapper.opening, Line.isDirective (commented m) = false)
    (hb : Rendered block) (hout : optedOut t = false) (hpos : o.positionFor k = .after)
    (h : annotated o path block k t = .ok u) :
    (∃ above, Stands o.shape u above []) ↔ isHeader (Lines.ofText t).tail = false := by
  have hp := Options.isSingleLine_shape hw
  obtain ⟨hone, haction, rfl⟩ := eq_textAfter_of_annotated hforce hout h
  cases htail : isHeader (Lines.ofText t).tail with
  | true =>
    have htwo := two_le_count_textAfter hw hb htail
    rw [← hpos] at htwo
    simpa using not_stands_end hp htwo
  | false =>
    obtain ⟨L, hL, htext⟩ := exists_annotation_of_chosen (k := k) hw hb (fun _ => htail) hone haction
    have hstands := (hL.reads hw hmarker hb).stands hp
    have hbelow : L.below = [] := by
      rw [Layout.below, hL.eq_layoutAfter hpos]
      rfl
    rw [hbelow, htext] at hstands
    simpa using ⟨_, hstands⟩

/-- **When a forced run gives a text.**  What was written anew has one region, and is written anew
    again whatever block stands in it by now.  If the writing bared a header it has two, and is
    refused. -/
theorem Annotation.forced_run {o' : Options} {core : List Line}
    (h : Annotation o c block k .regenerate L) (hw : o.wrapper.IsSingleLine)
    (hshape : o'.shape = o.shape) (hreads : (L.withCore core).Reads o.shape)
    (hforce : o'.force = true) (hout : optedOut (L.withCore core).text = false) (path : String)
    (block' : Text) (k' : FileKind) :
    if o.positionFor k = .before ∧ (SourceFile.ofText o.shape c).hidesHeader = true
      then annotated o' path block' k' (L.withCore core).text = .error (.severalRegions path 2)
      else o'.frozen = false → ∃ v, annotated o' path block' k' (L.withCore core).text = .ok v := by
  have hp := Options.isSingleLine_shape hw
  -- another core leaves the lines behind the region as they are
  have hcount : (SourceFile.ofText o'.shape (L.withCore core).text).regionCount =
      if (SourceFile.ofText o.shape c).baresHeader .regenerate (o.positionFor k) then 2 else 1 := by
    rw [hshape, hreads.regionCount_eq hp]
    show headings false L.region.after + 1 = _
    rw [h.writes.headings_after hp h.one]
    split <;> rfl
  split
  · rename_i hbares
    have htwo : (SourceFile.ofText o'.shape (L.withCore core).text).regionCount = 2 := by
      rw [hcount, if_pos (by simpa [SourceFile.baresHeader] using hbares)]
    rw [annotated_of_several hout (by omega), htwo]
  · rename_i hbares
    intro hfrozen
    have hone : (SourceFile.ofText o'.shape (L.withCore core).text).regionCount = 1 := by
      rw [hcount, if_neg (by simpa [SourceFile.baresHeader] using hbares)]
    exact ⟨_, (annotated_of_forced path block' k' hforce hfrozen hout hone.le).2⟩

/-- Whether the body ends in the middle of a header, once its front is trimmed. -/
def SourceFile.hidesOpenHeader (f : SourceFile) : Bool :=
  isHeader (Lines.ofText (Text.trimStart f.body)).tail

/-- **Where a header is left open** in what was written anew: it is the end of the body, which was
    trimmed in front. -/
theorem Annotation.isHeader_tail_iff (h : Annotation o c block k .regenerate L) :
    isHeader L.tail = true ↔ o.positionFor k = .before ∧
      (SourceFile.ofText o.shape c).hidesOpenHeader = true := by
  cases hpos : o.positionFor k with
  | before =>
    rw [h.eq_layoutBefore hpos]
    simp [SourceFile.layoutBefore, SourceFile.hidesOpenHeader]
  | after =>
    rw [h.eq_layoutAfter hpos]
    simp [SourceFile.layoutAfter, isHeader, commented]

/-- **Where a forced run puts the block** in what was written anew, whatever block stands in it by
    now. -/
theorem Annotation.stands_of_forced {o' : Options} {core : List Line} {block' v : Text}
    {k' : FileKind} (h : Annotation o c block k .regenerate L) (hw : o.wrapper.IsSingleLine)
    (hmarker : ∀ m ∈ o.wrapper.opening, Line.isDirective (commented m) = false)
    (hwrapper : o'.wrapper = o.wrapper) (hreads : (L.withCore core).Reads o.shape)
    (hforce : o'.force = true) (hb' : Rendered block')
    (hout : optedOut (L.withCore core).text = false)
    (hv : annotated o' path block' k' (L.withCore core).text = .ok v) :
    (o'.positionFor k' = .before → ∃ below, Stands o.shape v (directiveText v) below) ∧
      (o'.positionFor k' = .after → ((∃ above, Stands o.shape v above []) ↔
        ¬ (o.positionFor k = .before ∧
          (SourceFile.ofText o.shape c).hidesOpenHeader = true))) := by
  have hshape : o'.shape = o.shape := by rw [Options.shape, hwrapper, Options.shape]
  have hw' : o'.wrapper.IsSingleLine := hwrapper ▸ hw
  have hmarker' : ∀ m ∈ o'.wrapper.opening, Line.isDirective (commented m) = false :=
    hwrapper ▸ hmarker
  constructor
  · intro hpos
    rw [← hshape]
    exact stands_of_forced_before hforce hw' hmarker' hb' hout hpos hv
  · intro hpos
    -- another core leaves the open end as it is
    have htail : (Lines.ofText (L.withCore core).text).tail = L.tail := by
      rw [Layout.ofText_text hreads.fits]
      rfl
    have hend := stands_of_forced_after hforce hw' hmarker' hb' hout hpos hv
    rw [hshape] at hend
    rw [hend, htail, ← Bool.not_eq_true, h.isHeader_tail_iff]

/-- **A schema comment stays where it is until a run is forced.**  A forced run is refused where the
    first run bared a header, and gives a text everywhere else. -/
theorem annotate_stands (hw : o.wrapper.IsSingleLine)
    (hmarker : ∀ m ∈ o.wrapper.opening, Line.isDirective (commented m) = false)
    (hb : Rendered block) (hc : isHeader (Lines.ofText c).tail = false)
    (hnone : (SourceFile.ofText o.shape c).hasRegion = false)
    (h : annotate o path c block k = .ok (some t)) :
    ∃ above below, ∀ steps : List Step, (∀ s ∈ steps, s.Reannotates o.wrapper) →
      let u := steps.foldl (fun t s => s.next t) t
      Stands o.shape u above below ∧ (o.positionFor k = .before → above = directiveText u) ∧
        (o.positionFor k = .after → below = []) ∧
        ∀ (o' : Options) (path' : String) (block' : Text) (k' : FileKind),
          o'.force = true → o'.wrapper = o.wrapper → Rendered block' → optedOut u = false →
          (if o.positionFor k = .before ∧ (SourceFile.ofText o.shape c).hidesHeader = true
            then annotated o' path' block' k' u = .error (.severalRegions path' 2)
            else o'.frozen = false → ∃ v, annotated o' path' block' k' u = .ok v) ∧
          ∀ v, annotated o' path' block' k' u = .ok v →
            (o'.positionFor k' = .before → ∃ below', Stands o.shape v (directiveText v) below') ∧
            (o'.positionFor k' = .after → ((∃ above', Stands o.shape v above' []) ↔
              ¬ (o.positionFor k = .before ∧
                (SourceFile.ofText o.shape c).hidesOpenHeader = true))) := by
  have hp := Options.isSingleLine_shape hw
  obtain ⟨a, L, hL, rfl⟩ := exists_annotation hw hb hc h
  obtain rfl := (SourceFile.eq_regenerate_iff_of_force hL.chosen).mpr (Or.inl hnone)
  refine ⟨L.above, L.below, fun steps hsteps => ?_⟩
  obtain ⟨core, htext, hreads⟩ := Step.exists_withCore_foldl hsteps hw hmarker
    (hL.reads hw hmarker hb)
  intro u
  have hu : u = (L.withCore core).text := htext
  refine ⟨by rw [hu]; exact hreads.stands hp, fun hpos => ?_, fun hpos => ?_, ?_⟩
  · rw [hu, hreads.directiveText_eq hp, Layout.above, hL.eq_layoutBefore hpos]
    simp [Layout.withCore, SourceFile.layoutBefore]
  · rw [Layout.below, hL.eq_layoutAfter hpos]
    rfl
  · intro o' path' block' k' hforce hwrapper hb' hout
    have hshape : o'.shape = o.shape := by rw [Options.shape, hwrapper, Options.shape]
    rw [hu] at hout ⊢
    exact ⟨hL.forced_run hw hshape hreads hforce hout path' block' k', fun v hv =>
      hL.stands_of_forced hw hmarker hwrapper hreads hforce hb' hout hv⟩

/-- The file with blank lines around its body, another block behind it. -/
def respacedText : Text :=
  unlines (["# typed: true", "", "class A", "  b  ", "end", ""].map String.toList) ++
    columnBlock "bigint"

/-- The same file with a block before its body. -/
def raisedText : Text :=
  unlines ["# typed: true".toList, []] ++ shortBlock ++
    unlines (["class A", "  b  ", "end"].map String.toList)

theorem regionCount_spacedAnnotated :
    (SourceFile.ofText ({} : Options).shape spacedAnnotated).regionCount ≤ 1 := by
  rw [SourceFile.regionCount_ofText isSingleLine_usual]
  decide

theorem regionCount_respacedText :
    (SourceFile.ofText ({} : Options).shape respacedText).regionCount ≤ 1 := by
  rw [SourceFile.regionCount_ofText isSingleLine_usual]
  decide

/-- The block stays at the end, whatever the position is by then, and a forced run takes it behind
    the directive. -/
theorem annotate_stands_spacedText :
    (∃ above, Stands afterOptions.shape spacedAnnotated above [] ∧
      Stands afterOptions.shape respacedText above []) ∧
      ∃ below, Stands afterOptions.shape raisedText (unlines ["# typed: true".toList]) below := by
  obtain ⟨above, below, hall⟩ := annotate_stands (o := afterOptions)
    Wrapper.isPlain_empty.toIsSingleLine (by simp [afterOptions]) rendered_shortBlock (by decide)
    (by decide) annotate_spacedText
  have hagain : annotate {} "a.rb" spacedAnnotated (columnBlock "bigint") .model =
      .ok (some respacedText) := annotate_eq_some_iff.mpr
    ⟨by decide, regionCount_spacedAnnotated, rfl, by decide, .substitute, by decide, by decide⟩
  have hstep : (Step.annotate {} (columnBlock "bigint") .model).next spacedAnnotated = respacedText :=
    Step.next_eq hagain
  have hsteps : ∀ s ∈ [Step.annotate {} (columnBlock "bigint") .model],
      s.Reannotates afterOptions.wrapper := by
    intro s hs
    obtain rfl := List.mem_singleton.mp hs
    exact ⟨rfl, rfl, by decide⟩
  obtain ⟨hfirst, -, hend, -⟩ := hall [] (by simp)
  obtain ⟨hsecond, -, -, hlater⟩ := hall _ hsteps
  obtain rfl : below = [] := hend rfl
  rw [List.foldl_cons, List.foldl_nil, hstep] at hsecond hlater
  obtain ⟨hruns, hlater⟩ := hlater { force := true } "a.rb" shortBlock .model rfl rfl
    rendered_shortBlock (by decide)
  rw [if_neg (by decide)] at hruns
  obtain ⟨v, hforced⟩ := hruns rfl
  -- the text that the forced run gives is written out
  obtain rfl : v = raisedText := Except.ok.inj (hforced.symm.trans
    ((annotated_of_forced (o := { force := true }) "a.rb" shortBlock .model rfl rfl (by decide)
      regionCount_respacedText).2.trans (congrArg Except.ok (by decide))))
  obtain ⟨hbefore, -⟩ := hlater raisedText hforced
  have hdirective : directiveText raisedText = unlines ["# typed: true".toList] := by decide
  exact ⟨⟨above, hfirst, hsecond⟩, hdirective ▸ hbefore rfl⟩

/-- A file that is an indented header without a line break. -/
def openHeader : Text := "  # == Schema Info".toList

/-- The same file with its block before it. -/
def openAnnotated : Text := shortBlock ++ ['\n'] ++ "# == Schema Info".toList

/-- The same file when the block was put behind it by force: there are two regions. -/
def closedAnnotated : Text := unlines ["# == Schema Info".toList, []] ++ shortBlock

/-- **A forced run may leave its block in second place**: the line that was left open is a header by
    then. -/
theorem not_annotate_stands :
    ¬ ∀ (o o' : Options) (path : String) (c t v block block' : Text) (k k' : FileKind)
      (steps : List Step), o.force = false → o.wrapper.IsSingleLine →
      (∀ m ∈ o.wrapper.opening, Line.isDirective (commented m) = false) → Rendered block →
      isHeader (Lines.ofText c).tail = false → (SourceFile.ofText o.shape c).hasRegion = false →
      annotate o path c block k = .ok (some t) → (∀ s ∈ steps, s.Reannotates o.wrapper) →
      o'.force = true → o'.wrapper = o.wrapper → Rendered block' →
      annotate o' path (steps.foldl (fun t s => s.next t) t) block' k' = .ok (some v) →
      o'.positionFor k' = .after → ∃ above, Stands o.shape v above [] := by
  intro h
  have hone : ({} : Options).shape.count openHeader ≤ 1 ∧
      ({} : Options).shape.count openAnnotated ≤ 1 := by
    rw [RegionShape.count_eq isSingleLine_usual, RegionShape.count_eq isSingleLine_usual]
    decide
  rw [SourceFile.count_eq_regionCount isSingleLine_usual isSingleLine_usual,
    SourceFile.count_eq_regionCount isSingleLine_usual isSingleLine_usual] at hone
  have hfirst : annotate {} "a.rb" openHeader shortBlock .model = .ok (some openAnnotated) :=
    annotate_eq_some_iff.mpr ⟨by decide, hone.1, rfl, by decide, .regenerate, by decide, by decide⟩
  have hforced : annotate forcedAfter "a.rb" openAnnotated shortBlock .model =
      .ok (some closedAnnotated) :=
    annotate_eq_some_iff.mpr ⟨by decide, hone.2, rfl, by decide, .regenerate, by decide, by decide⟩
  obtain ⟨above, hstands⟩ := h {} forcedAfter "a.rb" openHeader openAnnotated closedAnnotated
    shortBlock shortBlock .model .model [] rfl Wrapper.isPlain_empty.toIsSingleLine (by simp)
    rendered_shortBlock (by decide) (by decide) hfirst (by simp) rfl rfl rendered_shortBlock hforced
    rfl
  refine not_stands_end isSingleLine_usual ?_ above hstands
  rw [RegionShape.count_eq isSingleLine_usual]
  decide

end

end SchemaComment
