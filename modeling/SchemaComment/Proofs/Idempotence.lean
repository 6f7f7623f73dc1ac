/-
  ANNOTATING TWICE.

  1. **Program** — `annotate` with the same arguments on a text and on what it gave for that text.
  2. **Specification** — `annotate_twice`: the second time there is nothing to write, unless the
     first time bared a header of the body.  Then there are two regions, and unless the text has
     opted out by then, that is the answer.
  3. **The crux** — a file that has a region is only ever written in the stead of that region
     (`annotate_again`).  So all that could change the second time is the core, and it is the same
     as the line ending is (`Annotation.detect_eq`).
-/
import SchemaComment.Proofs.Annotated

namespace SchemaComment

open Line

variable {o : Options} {path : String} {c t block : Text} {k : FileKind}

/-- **A file with a region** gets a new core and nothing else, unless it is forced. -/
theorem annotate_again (hforce : o.force = false) (hw : o.wrapper.IsSingleLine)
    (hb : Rendered block) {r : Region} (hr : (SourceFile.ofText o.shape c).region = some r)
    (h : annotate o path c block k = .ok (some t)) :
    t = (((SourceFile.ofText o.shape c).layout r).withCore
      (o.wrapper.written (LineEnding.detect c) block)).text := by
  obtain ⟨-, -, -, -, a, ha, rfl⟩ := annotate_eq_some_iff.mp h
  rw [hforce] at ha
  cases a with
  | regenerate =>
    rw [SourceFile.no_region_of_regenerate ha] at hr
    cases hr
  | substitute =>
    have hcore := Wrapper.apply_wrap hw hb (LineEnding.detect c)
    rw [SourceFile.text_withCore hr, ← hcore]
    rfl

/-- The same for a layout that fits. -/
theorem annotate_layout {L : Layout} (hforce : o.force = false) (hw : o.wrapper.IsSingleLine)
    (hb : Rendered block) (hfits : L.Fits o.shape)
    (hfirst : ∀ l ∈ L.region.allLines.head?, Line.isDirective l = false)
    (h : annotate o path L.text block k = .ok (some t)) :
    t = (L.withCore (o.wrapper.written (LineEnding.detect L.text) block)).text := by
  have hback := SourceFile.ofText_text (Options.isSingleLine_shape hw) hfits hfirst
  have hregion : (SourceFile.ofText o.shape L.text).region = some L.region := by rw [hback]
  have hagain := annotate_again hforce hw hb hregion h
  rw [hback] at hagain
  exact hagain

/-- A second time gives no second text: it would be the first one again. -/
theorem annotate_layout_ne_some {a : Action} {L : Layout} (hL : Annotation o c block k a L)
    (hforce : o.force = false) (hw : o.wrapper.IsPlain) (hb : Rendered block) (u : Text) :
    annotate o path L.text block k ≠ .ok (some u) := by
  intro hu
  have hagain := annotate_layout hforce hw.toIsSingleLine hb hL.fits (hL.not_isDirective hw hb) hu
  rw [hL.detect_eq hforce hw hb, ← hL.writes.core_eq] at hagain
  obtain ⟨-, -, -, hne, -⟩ := annotate_eq_some_iff.mp hu
  exact hne hagain

/-- Unless it is forced, a header is bared only in a file without a region. -/
theorem Annotation.baresHeader_iff {a : Action} {L : Layout} (hL : Annotation o c block k a L)
    (hforce : o.force = false) :
    (SourceFile.ofText o.shape c).baresHeader a (o.positionFor k) = true ↔
      (SourceFile.ofText o.shape c).region = none ∧ o.positionFor k = .before ∧
        (SourceFile.ofText o.shape c).hidesHeader = true := by
  have hchosen := hL.chosen
  rw [hforce] at hchosen
  simp [SourceFile.baresHeader, SourceFile.eq_regenerate_iff hchosen, and_assoc]

/-- A second time gives nothing, where the first bared no header or the text has opted out by
    then. -/
theorem annotate_layout_eq_none {a : Action} {L : Layout} (hL : Annotation o c block k a L)
    (hforce : o.force = false) (hfrozen : o.frozen = false) (hw : o.wrapper.IsPlain)
    (hb : Rendered block)
    (h : (SourceFile.ofText o.shape c).baresHeader a (o.positionFor k) = false ∨
      optedOut L.text = true) :
    annotate o path L.text block k = .ok none := by
  rcases annotate_cases hfrozen (c := L.text) with hnone | ⟨u, hu⟩ | ⟨n, hn⟩
  · exact hnone
  · exact absurd hu (annotate_layout_ne_some hL hforce hw hb u)
  · obtain ⟨hout, hmany, hcount⟩ := annotate_eq_severalRegions_iff.mp hn
    rcases h with hbares | hopted
    · rw [hL.readBack hw hb, hbares] at hcount
      -- there is one region, and several were found
      have hone : 1 = n := hcount
      omega
    · rw [hopted] at hout
      cases hout

/-- **Annotating twice.** -/
theorem annotate_twice (hforce : o.force = false) (hw : o.wrapper.IsPlain) (hb : Rendered block)
    (hc : isHeader (Lines.ofText c).tail = false)
    (h : annotate o path c block k = .ok (some t)) :
    annotate o path t block k =
      if (SourceFile.ofText o.shape c).region = none ∧ o.positionFor k = .before ∧
          (SourceFile.ofText o.shape c).hidesHeader = true ∧ optedOut t = false
      then .error (.severalRegions path 2) else .ok none := by
  obtain ⟨-, -, hfrozen, -⟩ := annotate_eq_some_iff.mp h
  obtain ⟨a, L, hL, rfl⟩ := exists_annotation hw.toIsSingleLine hb hc h
  have hbares := hL.baresHeader_iff hforce
  split
  · rename_i hbad
    obtain ⟨hnone, hpos, hhides, hout⟩ := hbad
    refine annotate_eq_severalRegions_iff.mpr ⟨hout, by omega, ?_⟩
    rw [hL.readBack hw hb, hbares.mpr ⟨hnone, hpos, hhides⟩]
    rfl
  · rename_i hgood
    refine annotate_layout_eq_none hL hforce hfrozen hw hb ?_
    cases hbare : (SourceFile.ofText o.shape c).baresHeader a (o.positionFor k) with
    | false => exact Or.inl rfl
    | true =>
      obtain ⟨hnone, hpos, hhides⟩ := hbares.mp hbare
      right
      cases hout : optedOut L.text with
      | true => rfl
      | false => exact absurd ⟨hnone, hpos, hhides, hout⟩ hgood

/-- The file with a directive is not written a second time. -/
theorem annotate_twice_typedText :
    annotate {} "user.rb" typedAnnotated shortBlock .model = .ok none := by
  have htwice := annotate_twice rfl Wrapper.isPlain_empty rendered_shortBlock (by decide)
    annotate_typedText
  rwa [if_neg (by decide)] at htwice

/-- **Annotating twice may fail**: the file with an indented header is refused. -/
theorem not_annotate_twice :
    ¬ ∀ (o : Options) (path : String) (c t block : Text) (k : FileKind), o.force = false →
      o.frozen = false → o.wrapper.IsPlain → Rendered block →
      isHeader (Lines.ofText c).tail = false →
      annotate o path c block k = .ok (some t) → annotate o path t block k = .ok none := by
  intro h
  have htwice := h {} "user.rb" hiddenText baredText shortBlock .model rfl rfl
    Wrapper.isPlain_empty rendered_shortBlock (by decide) annotate_hiddenText
  have hseveral : annotate {} "user.rb" baredText shortBlock .model =
      .error (.severalRegions "user.rb" 2) :=
    annotate_eq_severalRegions_iff.mpr ⟨by decide, by decide, regionCount_baredText⟩
  rw [hseveral] at htwice
  cases htwice

end SchemaComment
