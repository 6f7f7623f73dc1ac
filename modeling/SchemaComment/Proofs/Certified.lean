/-
  WHAT A FROZEN BATCH CERTIFIES.

  A frozen batch that comes to its end has found nothing to write.  It finds that in two ways: the
  columns of a file agree with those of its block, or the file, written with the block, would be the
  same text again.

  1. **Program** — `annotateAll` with the option `frozen`, and `columnLines`.
  2. **Specification** — `annotateAll_certified`: after such a batch every file that did not fail,
     has not opted out and ends its lines with a newline alone has one region, and that has the
     columns of its block.
  3. **The crux** — if writing gives the same text again, the layout that was written is the one
     that the file already had (`SourceFile.Writes.region_of_text_eq`).  So its region holds the
     block, among empty lines that have no part in the columns (`tableLines_surrounded`).
-/
import SchemaComment.Proofs.DryRun
import SchemaComment.Proofs.Table

namespace SchemaComment

open Line

/-! ## Empty lines around a table -/

/-- An empty line names no table. -/
theorem not_namesTable_of_isEmpty {l : Line} (h : isEmpty l = true) : namesTable l = false := by
  rcases isEmpty_iff.mp h with rfl | rfl <;> rfl

/-- **Empty lines around it** are no part of the section of the table. -/
theorem tableLines_surrounded {es fs : List Line} (hes : ∀ l ∈ es, isEmpty l = true)
    (hfs : ∀ l ∈ fs, isEmpty l = true) (ls : List Line) :
    tableLines (es ++ ls ++ fs) = tableLines ls := by
  have hnone : ∀ l ∈ es ++ fs, namesTable l = false := fun l hl =>
    not_namesTable_of_isEmpty ((List.mem_append.mp hl).elim (hes l) (hfs l))
  refine tableLines_eq_iff.mpr ?_
  have htable := isTable_tableLines ls
  generalize tableLines ls = sec at htable
  cases htable with
  | absent h =>
    refine .absent fun l hl => ?_
    rw [List.mem_append, List.mem_append] at hl
    rcases hl with (hl | hl) | hl
    · exact hnone l (List.mem_append_left _ hl)
    · exact h l hl
    · exact hnone l (List.mem_append_right _ hl)
  | @present above below comments l hls habove hl hcomments hbelow =>
    refine @IsTable.present _ (es ++ above) (below ++ fs) comments l (by simp [hls]) ?_ hl hcomments ?_
    · intro k hk
      rcases List.mem_append.mp hk with hk | hk
      · exact hnone k (List.mem_append_left _ hk)
      · exact habove k hk
    · -- the section ends before the empty lines, if it has come so far
      cases below with
      | nil => exact fun k hk => not_isComment_of_isEmpty (hfs k (List.mem_of_head? hk))
      | cons b below => exact hbelow

/-- The columns of a text of lines are those of its table. -/
theorem columnLines_unlines {ls : List Line} (h : ∀ l ∈ ls, '\n' ∉ l) :
    columnLines (unlines ls) =
      sortLines (((tableLines ls).filter Column.describes).map Column.withoutReturns) := by
  rw [columnLines, Lines.ofText_unlines h]

/-- The columns of a region are those of its core. -/
theorem Region.Fits.columnLines_text {p : RegionShape} {r : Region} (h : r.Fits p)
    (hplain : ∀ l ∈ r.lines, '\n' ∉ l) : columnLines r.text = columnLines (unlines r.core) := by
  have hcore : ∀ l ∈ r.core, '\n' ∉ l := fun l hl => hplain l (by simp [Region.lines, hl])
  rw [Region.text, columnLines_unlines hplain, columnLines_unlines hcore, Region.lines,
    tableLines_surrounded h.isEmpty_leading h.ends.empty]

/-! ## Written again, the same text -/

namespace SourceFile

variable {p : RegionShape} {t : Text} {e : LineEnding} {core : List Line} {pos : Position}
  {a : Action} {L : Layout}

/-- The directives of the file begin those that an action writes. -/
theorem Writes.directives_prefix {f : SourceFile} (h : f.Writes e core pos a L) :
    f.directives <+: L.directives := by
  cases h with
  | before => exact List.prefix_rfl
  | after => exact List.prefix_append _ _
  | inPlace _ => exact List.prefix_rfl

/-- **If writing gives the same text again**, the layout fits: an open end that is a header would
    not have come back. -/
theorem Writes.fits_of_text_eq (hp : p.IsSingleLine) (h : (ofText p t).Writes e core pos a L)
    (hone : (ofText p t).regionCount ≤ 1) (hcore : p.IsCore core) (hplain : ∀ l ∈ core, '\n' ∉ l)
    (hmarks : (∀ l ∈ core.head?, isHeader l = true) → ∀ l, p.marks l = true → isHeader l = true)
    (htext : L.text = t) : L.Fits p := by
  cases h with
  | before => exact fits_layoutBefore hcore hplain
  | inPlace hr => exact fits_withCore hp hr hcore hplain hmarks
  | after =>
    -- the file ends in the block, so it has no open end
    have hwhole : unlines ((ofText p t).layoutAfter e core).lines = t :=
      (List.append_nil _).symm.trans htext
    have hread := Lines.ofText_unlines (not_mem_lines_layoutAfter p t e hplain)
    rw [hwhole] at hread
    exact fits_layoutAfter hp hone (by rw [hread]; rfl) hcore hplain

/-- **If writing gives the same text again**, the file has had the region that was written. -/
theorem Writes.region_of_text_eq (hp : p.IsSingleLine) (h : (ofText p t).Writes e core pos a L)
    (hfits : L.Fits p) (htext : L.text = t) : (ofText p t).region = some L.region := by
  have hlines := Layout.ofText_text hfits
  rw [htext, lines_ofText p t, Layout.lines] at hlines
  obtain ⟨hall, -⟩ := Lines.mk.inj hlines
  obtain ⟨-, hfirst⟩ := directives_ofText p t
  obtain ⟨more, hmore⟩ := h.directives_prefix
  rw [← hmore, List.append_assoc, List.append_cancel_left_eq] at hall
  refine (region_eq_some_iff hp).mpr ⟨?_, hfits.region⟩
  cases more with
  | nil => exact hall.symm
  | cons d ds =>
    -- one directive more would be the first line that is none
    have hnew : Line.isDirective d = true := hfits.directive d (by rw [← hmore]; simp)
    rw [hfirst d (by rw [hall]; rfl)] at hnew
    cases hnew

end SourceFile

/-! ## One file -/

section

variable {o : Options} {path : String} {c block : Text} {k : FileKind}

/-- Where there is nothing to do, the columns agree. -/
theorem SourceFile.columnLines_of_action?_eq_none {f : SourceFile} {force : Bool} {wrapped : Text}
    (hout : f.isOptedOut = false) (h : f.action? force wrapped = none) :
    (∃ r, f.region = some r) ∧ columnLines f.regionText = columnLines wrapped := by
  unfold action? at h
  rw [hout] at h
  simp only [Bool.false_eq_true, if_false] at h
  split at h
  · cases h
  · rename_i hregion
    rw [Bool.or_eq_true, not_or] at hregion
    split at h
    · cases h
    · rename_i hsame
      refine ⟨Option.ne_none_iff_exists'.mp (by simpa [hasRegion] using hregion.1), ?_⟩
      simpa [ColumnDiff.isChanged, diff, ColumnDiff.ofTexts] using hsame

/-- Where doing it gives the same text again, the block is in the file as it would be written, and
    the columns agree as well. -/
theorem columnLines_of_textAfter_eq {a : Action} (hw : o.wrapper.IsSingleLine) (hb : Rendered block)
    (hending : LineEnding.detect c = .lf) (hone : (SourceFile.ofText o.shape c).regionCount ≤ 1)
    (ha : (SourceFile.ofText o.shape c).action? o.force (o.wrapper.wrap block) = some a)
    (hsame : (SourceFile.ofText o.shape c).textAfter a (o.wrapper.wrap block) (o.positionFor k) = c) :
    (∃ r, (SourceFile.ofText o.shape c).region = some r) ∧
      columnLines (SourceFile.ofText o.shape c).regionText = columnLines (o.wrapper.wrap block) := by
  have hp := Options.isSingleLine_shape hw
  have hwritten := Wrapper.apply_wrap hw hb (LineEnding.detect c)
  obtain ⟨L, hwrites, htext⟩ := SourceFile.exists_writes ha hwritten (o.positionFor k)
  have htext : L.text = c := htext.trans hsame
  have hfits := hwrites.fits_of_text_eq hp hone (Wrapper.isCore_written (Or.inr rfl) hb _)
    (Wrapper.not_mem_written hw _) (fun hhead _ hm => Wrapper.isHeader_of_marks rfl hhead hm) htext
  have hregion := hwrites.region_of_text_eq hp hfits htext
  refine ⟨⟨_, hregion⟩, ?_⟩
  have hfound : L.region.Fits o.shape := hfits.region
  have hplain : ∀ l ∈ L.region.lines, '\n' ∉ l := fun l hl =>
    hfits.plain l (by simp [Layout.lines, Region.allLines, hl])
  have hregionText : (SourceFile.ofText o.shape c).regionText = L.region.text := by
    rw [SourceFile.regionText, hregion]
    rfl
  rw [hregionText, hfound.columnLines_text hplain, hwrites.core_eq, ← hwritten, hending,
    LineEnding.apply_lf]

/-- **A file that is left as it is** has one region, with the columns of the block. -/
theorem columnLines_of_annotate_eq_none (hw : o.wrapper.IsSingleLine) (hb : Rendered block)
    (hout : optedOut c = false) (hending : LineEnding.detect c = .lf)
    (h : annotate o path c block k = .ok none) :
    (SourceFile.ofText o.shape c).regionCount = 1 ∧
      columnLines (SourceFile.ofText o.shape c).regionText = columnLines (o.wrapper.wrap block) := by
  rcases annotate_eq_none_iff.mp h with hopted | ⟨hone, hsame⟩
  · rw [hout] at hopted
    cases hopted
  · obtain ⟨⟨r, hr⟩, hcolumns⟩ : (∃ r, (SourceFile.ofText o.shape c).region = some r) ∧
        columnLines (SourceFile.ofText o.shape c).regionText =
          columnLines (o.wrapper.wrap block) := by
      cases ha : (SourceFile.ofText o.shape c).action? o.force (o.wrapper.wrap block) with
      | none => exact SourceFile.columnLines_of_action?_eq_none hout ha
      | some a => exact columnLines_of_textAfter_eq hw hb hending hone ha (hsame a ha)
    have hcount := SourceFile.regionCount_of_region (Options.isSingleLine_shape hw) hr
    exact ⟨by omega, hcolumns⟩

end

/-! ## The whole batch -/

/-- A file that a frozen batch gets through is there, and is left as it is. -/
theorem annotate_eq_none_of_annotateFile_frozen {o : Options} {t : Target} {s : Memory} {b : Bool}
    (h : ((annotateFile Memory.storage { o with frozen := true } t).run s).1.result = .ok b) :
    ∃ c, s.lookup t.path = some c ∧
      annotate { o with frozen := true } t.path c t.block t.kind = .ok none := by
  rw [annotateFile, run_processFile, Memory.run_read, Memory.readText] at h
  cases hc : s.lookup t.path with
  | none =>
    rw [hc] at h
    cases h
  | some c =>
    refine ⟨c, rfl, ?_⟩
    rw [hc] at h
    simp only at h
    cases hedit : annotate { o with frozen := true } t.path c t.block t.kind with
    | error e =>
      rw [hedit] at h
      cases h
    | ok new =>
      cases new with
      | none => rfl
      | some u =>
        obtain ⟨-, -, hfrozen, -⟩ := annotate_eq_some_iff.mp hedit
        cases hfrozen

/-- **A frozen batch that comes to its end certifies its files.**  It leaves the store as it is, and
    every target that did not fail is a file there; unless that has opted out or its first line
    break is a carriage return and a newline, it has one region, with the columns of the block
    between its markers. -/
theorem annotateAll_certified {o : Options} {ts : List Target} {s : Memory} {r : Report}
    (hw : o.wrapper.IsSingleLine) (hb : ∀ t ∈ ts, Rendered t.block)
    (h : ((annotateAll Memory.storage { o with frozen := true } ts).run s).1.result = .ok r) :
    ((annotateAll Memory.storage { o with frozen := true } ts).run s).2 = s ∧
      ∀ t ∈ ts, t.path ∉ r.failures.map Failure.path →
        ∃ c, s.lookup t.path = some c ∧ (optedOut c = false → LineEnding.detect c = .lf →
          let f := SourceFile.ofText o.shape c
          f.regionCount = 1 ∧
            columnLines f.regionText = columnLines (o.wrapper.wrap t.block)) := by
  refine ⟨state_annotateAll_frozen o ts s, ?_⟩
  intro t ht hpath
  have hsame : ∀ x ∈ ts.map fun t =>
      (t.path, annotateFile Memory.storage { o with frozen := true } t), (x.2.run s).2 = s := by
    intro x hx
    obtain ⟨t, -, rfl⟩ := List.mem_map.mp hx
    exact state_annotateFile_frozen o t s
  have hfailed := mem_failures hsame h (t.path, _) (List.mem_map_of_mem ht)
  cases hresult : ((annotateFile Memory.storage { o with frozen := true } t).run s).1.result with
  | error e => exact absurd (List.mem_map_of_mem (f := Failure.path) (hfailed e hresult)) hpath
  | ok b =>
    obtain ⟨c, hc, hnone⟩ := annotate_eq_none_of_annotateFile_frozen hresult
    have hwrapper : ({ o with frozen := true } : Options).wrapper.IsSingleLine := hw
    refine ⟨c, hc, fun hout hending => ?_⟩
    have hclean := columnLines_of_annotate_eq_none hwrapper (hb t ht) hout hending hnone
    exact hclean

/-! ## A store that is up to date -/

/-- A file with its block on top. -/
def freshText : Text := columnBlock "integer" ++ "class User\nend\n".toList

/-- A store with that file. -/
def freshStore : Memory := { texts := [("user.rb", freshText)] }

/-- The target for that file, and one for a file that is not there. -/
def freshTargets : List Target :=
  [⟨"user.rb", .model, columnBlock "integer"⟩, ⟨"post.rb", .model, columnBlock "uuid"⟩]

/-- The batch over that store, forced and forbidden to write. -/
def freshRun : BatchRun :=
  ((annotateAll Memory.storage { force := true, frozen := true } freshTargets).run freshStore).1

/-- It comes to its end, and only the file that is not there has failed. -/
theorem result_freshRun :
    freshRun.result = .ok ⟨.annotate, [], [⟨"post.rb", "post.rb: not found"⟩]⟩ := by
  have hreport : freshRun.result.toOption =
      some ⟨.annotate, [], [⟨"post.rb", "post.rb: not found"⟩]⟩ := by decide +kernel
  cases hresult : freshRun.result with
  | error e =>
    rw [hresult] at hreport
    cases hreport
  | ok r =>
    rw [hresult] at hreport
    exact congrArg Except.ok (Option.some.inj hreport)

/-- The file would be written anew, and it would be the same text.  So it has one region, with the
    columns of the block. -/
theorem annotateAll_certified_freshStore :
    (SourceFile.ofText ({} : Options).shape freshText).regionCount = 1 ∧
      columnLines (SourceFile.ofText ({} : Options).shape freshText).regionText =
        ["#  id :integer".toList, "# Table name: users".toList] := by
  obtain ⟨-, hall⟩ := annotateAll_certified (o := { force := true })
    Wrapper.isPlain_empty.toIsSingleLine (by decide) result_freshRun
  obtain ⟨c, hc, hclean⟩ := hall freshTargets[0] (by simp [freshTargets]) (by simp [freshTargets])
  obtain rfl : freshText = c := Option.some.inj hc
  obtain ⟨hone, hcolumns⟩ := hclean (by decide) (by decide)
  exact ⟨hone, hcolumns.trans (by decide)⟩

end SchemaComment
