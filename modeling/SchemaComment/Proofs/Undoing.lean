/-
  STRIPPING UNDOES ANNOTATING.

  A file is annotated and then stripped under the same options.

  1. **Program** — `annotate`, and `strip` on what it gave.
  2. **Specification** — `strip_annotated`: a file without a region comes back with the seam of its
     body trimmed, and one with a region as stripping leaves the file itself.  The one other answer
     is that of a file whose body hid a header: there are two regions then.
  3. **The crux** — stripping searches the whole file, and what was written is the region of the
     whole file too (`Annotation.not_reachesBack`).  It begins with the opening marker wherever one
     is in use, so no directive can come in as that.  The old region of a file may begin with its
     header, and then a directive can.
-/
import SchemaComment.Proofs.RoundTrip
import SchemaComment.Proofs.Stripping

namespace SchemaComment

open Line

variable {o : Options} {path : String} {c t block : Text} {k : FileKind} {a : Action} {L : Layout}

/-- What was written does not reach back into the directives. -/
theorem Annotation.not_reachesBack (h : Annotation o c block k a L) :
    L.reachesBack o.shape = false := by
  refine Layout.not_reachesBack_of_marks h.fits fun hhead l hm => ?_
  refine Wrapper.isHeader_of_marks (w := o.wrapper) (b := block) rfl (e := LineEnding.detect c) ?_ hm
  intro m hm
  rw [h.writes.core_eq, Option.mem_def.mp hm] at hhead
  exact hhead

/-- **Stripping what was annotated** leaves what the action left, unless a header was bared. -/
theorem Annotation.strip_text (path : String) (h : Annotation o c block k a L)
    (hw : o.wrapper.IsSingleLine) (hout : optedOut L.text = false) :
    strip o path L.text =
      if (SourceFile.ofText o.shape c).baresHeader a (o.positionFor k) then
        .error (.severalRegions path 2)
      else .ok (some
        ((SourceFile.ofText o.shape c).remainder (LineEnding.detect c) (o.positionFor k) a)) := by
  have hp := Options.isSingleLine_shape hw
  have hkept : L.keptDirectives o.shape = L.directives := by
    rw [Layout.keptDirectives, h.not_reachesBack]
    rfl
  rw [SchemaComment.strip_text path hp h.fits hout, h.writes.headings_after hp h.one, hkept,
    h.writes.remainder_eq]
  split <;> rfl

/-- Where no directive can be the opening marker, a region does not reach back. -/
theorem SourceFile.not_reachesBack_of_marks {p : RegionShape} {f : SourceFile}
    (h : ∀ l ∈ f.directives, p.marks l = false) : f.reachesBack p = false := by
  cases hr : f.region with
  | none => simp [reachesBack, hr]
  | some r =>
    rw [reachesBack_of_region hr]
    cases hb : (f.layout r).reachesBack p with
    | false => rfl
    | true =>
      obtain ⟨-, ds, m, hds, hm, -⟩ := Layout.wholeRegion_of_reachesBack hb
      have hdirectives : f.directives = ds ++ [m] := hds
      rw [h m (by simp [hdirectives])] at hm
      cases hm

/-- **Stripping undoes annotating.**  A file that had no region has what it had before, trimmed
    where the block stood.  One that had a region has lost it, as if it had never been annotated. -/
theorem strip_annotated (hforce : o.force = false) (hw : o.wrapper.IsSingleLine)
    (hb : Rendered block) (hc : isHeader (Lines.ofText c).tail = false)
    (h : annotate o path c block k = .ok (some t)) (hout : optedOut t = false) :
    let f := SourceFile.ofText o.shape c
    (f.hasRegion = false →
      strip o path t =
        if o.positionFor k = .before ∧ f.hidesHeader = true then .error (.severalRegions path 2)
        else .ok (some (match o.positionFor k with
          | .before => f.directiveText ++ Text.trimStart f.rest.toText
          | .after =>
            f.directiveText ++ Text.trimEnd f.rest.toText ++ (LineEnding.detect c).text))) ∧
      (f.hasRegion = true → strip o path t = .ok (some (f.directiveText ++ f.body))) ∧
      (f.hasRegion = true → (∀ l ∈ f.directives, o.shape.marks l = false) →
        strip o path c = strip o path t) := by
  intro f
  obtain ⟨hopen, hone, -⟩ := annotate_eq_some_iff.mp h
  obtain ⟨a, L, hL, rfl⟩ := exists_annotation hw hb hc h
  have hstrip := hL.strip_text path hw hout
  have hchosen : f.action? false (o.wrapper.wrap block) = some a := hforce ▸ hL.chosen
  have hregion : f.hasRegion = true →
      strip o path L.text = .ok (some (f.directiveText ++ f.body)) := by
    intro hr
    obtain ⟨r, hr⟩ := Option.isSome_iff_exists.mp hr
    cases a with
    | regenerate =>
      rw [SourceFile.no_region_of_regenerate hchosen] at hr
      cases hr
    | substitute => exact hstrip
  refine ⟨fun hr => ?_, hregion, fun hr hmarks => ?_⟩
  · have hnone : f.region = none := by simpa [SourceFile.hasRegion] using hr
    obtain rfl := (SourceFile.eq_regenerate_iff hchosen).mpr hnone
    have hbody : f.body = f.rest.toText := by simp [SourceFile.body, hnone]
    rw [hstrip]
    cases hpos : o.positionFor k with
    | before => simp [SourceFile.baresHeader, SourceFile.remainder, hbody, f]
    | after => simp [SourceFile.baresHeader, SourceFile.remainder, hbody, f]
  · obtain ⟨r, hsome⟩ := Option.isSome_iff_exists.mp hr
    have hback := SourceFile.not_reachesBack_of_marks hmarks
    rw [hregion hr, strip_of_region path (Options.isSingleLine_shape hw) hsome hopen, if_pos hone, hback]
    rfl

/-- The file with a directive is as it was. -/
theorem strip_annotated_typedText : strip {} "user.rb" typedAnnotated = .ok (some typedText) := by
  obtain ⟨hnone, -, -⟩ := strip_annotated rfl Wrapper.isPlain_empty.toIsSingleLine
    rendered_shortBlock (by decide) annotate_typedText (by decide)
  rw [hnone (by decide), if_neg (by decide)]
  exact congrArg (fun s => Except.ok (some s)) (by decide)

/-- **Stripping may fail to undo annotating**: the file with an indented header has two regions by
    then. -/
theorem not_strip_annotated :
    ¬ ∀ (o : Options) (path : String) (c t block : Text) (k : FileKind), o.force = false →
      o.frozen = false → o.wrapper.IsSingleLine → Rendered block →
      isHeader (Lines.ofText c).tail = false → annotate o path c block k = .ok (some t) →
      optedOut t = false → (SourceFile.ofText o.shape c).hasRegion = false →
      o.positionFor k = .before →
      strip o path t = .ok (some ((SourceFile.ofText o.shape c).directiveText ++
        Text.trimStart (SourceFile.ofText o.shape c).rest.toText)) := by
  intro h
  have hundone := h {} "user.rb" hiddenText baredText shortBlock .model rfl rfl
    Wrapper.isPlain_empty.toIsSingleLine rendered_shortBlock (by decide) annotate_hiddenText
    (by decide) (by decide) rfl
  have hseveral : strip {} "user.rb" baredText = .error (.severalRegions "user.rb" 2) :=
    strip_eq_severalRegions_iff.mpr ⟨by decide, by decide, count_baredText⟩
  rw [hseveral] at hundone
  cases hundone

end SchemaComment
