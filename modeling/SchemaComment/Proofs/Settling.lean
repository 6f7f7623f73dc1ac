/-
  FORCED RUNS.

  Under `force` a file is written anew each time, whether or not its columns have changed.  Then it
  is the writing alone that keeps a file from drifting from run to run: the directives, the trimmed
  body and the line ending have to come out of it as they went in.

  1. **Program** — `annotated`: the text that a file has after a run.
  2. **Specification** — `forced_runs_settle`: before the body the second run gives what the first
     one gave, unless that one bared a header of the body.  Behind the body it is the third that
     gives what the second one gave.
  3. **The crux** — where the directives and the trimmed body are the same, the same is written
     (`regenerate_congr`).  Behind the body the first run may bring to the top what had been below a
     region, and so change the directives and the line ending.  What it leaves has no directive more
     to give (`takeWhile_trimmedLines`), whatever the line ending.
-/
import SchemaComment.Proofs.Annotated

namespace SchemaComment

open Line

/-! ## The directives of a trimmed body -/

/-- Trimmed lines whose last one has been ended by a break, trimmed again and ended by another. -/
theorem trimmedLines_unlines {ls : List Line} {l : Line} (hls : ∀ k ∈ ls, '\n' ∉ k) (hl : '\n' ∉ l)
    (hlast : ∀ c ∈ (unlines ls ++ l).getLast?, Text.isBlank c = false) (e e' : LineEnding) :
    trimmedLines e' (unlines (ls ++ [l ++ e.onLine []])) = ls ++ [l ++ e'.onLine []] := by
  have htext : unlines (ls ++ [l ++ e.onLine []]) = unlines ls ++ l ++ e.text := by
    rw [unlines_append, ← LineEnding.append_text, List.append_assoc]
  have htrimmed : Text.trimEnd (unlines (ls ++ [l ++ e.onLine []])) = unlines ls ++ l := by
    rw [htext, Text.trimEnd_append_of_isBlank fun c hc => e.isBlank_of_mem_text hc,
      Text.trimEnd_of_getLast? hlast]
  have hread : Lines.ofText (unlines ls ++ l) = ⟨ls, l⟩ :=
    Lines.ofText_toText (s := ⟨ls, l⟩) hls hl
  rw [trimmedLines, htrimmed, hread]

/-- What is left behind the directives of trimmed lines is trimmed as they were. -/
theorem dropWhile_trimmedLines (e : LineEnding) (b : Text) :
    (trimmedLines e b).dropWhile Line.isDirective = [] ∨
      ∃ ls l, (trimmedLines e b).dropWhile Line.isDirective = ls ++ [l ++ e.onLine []] ∧
        (∀ k ∈ ls, '\n' ∉ k) ∧ '\n' ∉ l ∧
        ∀ c ∈ (unlines ls ++ l).getLast?, Text.isBlank c = false := by
  let s := Lines.ofText (Text.trimEnd b)
  have hwhole : unlines s.ended ++ s.tail = Text.trimEnd b := Lines.toText_ofText _
  have hsplit : Text.trimEnd b = unlines (s.ended.takeWhile Line.isDirective) ++
      (unlines (s.ended.dropWhile Line.isDirective) ++ s.tail) := by
    rw [← List.append_assoc, ← unlines_append, List.takeWhile_append_dropWhile]
    exact hwhole.symm
  have hlast : ∀ c ∈ (unlines (s.ended.dropWhile Line.isDirective) ++ s.tail).getLast?,
      Text.isBlank c = false := by
    intro c hc
    refine Text.isBlank_getLast_trimEnd (t := b) ?_
    rw [hsplit, List.getLast?_append, Option.mem_def.mp hc]
    rfl
  have hkept : ∀ k ∈ s.ended.dropWhile Line.isDirective, '\n' ∉ k := fun k hk =>
    Lines.not_mem_ended_ofText _ k ((List.dropWhile_suffix _).subset hk)
  have hstays : ∃ ls l, s.ended.dropWhile Line.isDirective ++ [s.tail ++ e.onLine []] =
      ls ++ [l ++ e.onLine []] ∧ (∀ k ∈ ls, '\n' ∉ k) ∧ '\n' ∉ l ∧
        ∀ c ∈ (unlines ls ++ l).getLast?, Text.isBlank c = false :=
    ⟨_, _, rfl, hkept, Lines.not_mem_tail_ofText _, hlast⟩
  show (s.ended ++ [s.tail ++ e.onLine []]).dropWhile Line.isDirective = [] ∨
    ∃ ls l, (s.ended ++ [s.tail ++ e.onLine []]).dropWhile Line.isDirective = _ ∧ _
  rw [List.dropWhile_append]
  by_cases hnone : (s.ended.dropWhile Line.isDirective).isEmpty = true
  · -- all that may stay is the last line
    rw [if_pos hnone]
    by_cases hd : Line.isDirective (s.tail ++ e.onLine []) = true
    · exact Or.inl (by rw [List.dropWhile_cons_of_pos hd]; rfl)
    · right
      rw [List.dropWhile_cons_of_neg hd]
      rwa [List.isEmpty_iff.mp hnone] at hstays
  · rw [if_neg hnone]
    exact Or.inr hstays

/-- **What is left behind the directives has no more to give**: trimmed again and ended by another
    line break, it does not open with a directive. -/
theorem takeWhile_trimmedLines (e e' : LineEnding) (b : Text) :
    (trimmedLines e' (unlines ((trimmedLines e b).dropWhile Line.isDirective))).takeWhile
      Line.isDirective = [] := by
  have hfirst : ∀ l ∈ ((trimmedLines e b).dropWhile Line.isDirective).head?,
      Line.isDirective l = false := fun l hl => not_of_mem_head?_dropWhile hl
  rcases dropWhile_trimmedLines e b with hnone | ⟨ls, l, hstays, hls, hl, hlast⟩
  · have hempty : Line.isDirective (e'.onLine []) = false :=
      not_isDirective_of_isEmpty e'.isEmpty_onLine_nil
    rw [hnone]
    show [e'.onLine []].takeWhile Line.isDirective = []
    rw [List.takeWhile_cons_of_neg (by simp [hempty])]
  · rw [hstays] at hfirst
    rw [hstays, trimmedLines_unlines hls hl hlast]
    cases ls with
    | cons k ks => rw [List.cons_append, List.takeWhile_cons_of_neg (by simp [hfirst k rfl])]
    | nil =>
      -- the open end of the text is no more a directive than before
      have hreturn : endsInReturn l = false := by
        cases h : endsInReturn l with
        | false => rfl
        | true => exact absurd (hlast '\r' (of_decide_eq_true h)) (by decide)
      have hd := hfirst _ rfl
      rw [LineEnding.isDirective_append_onLine_nil hreturn] at hd
      rw [List.nil_append, List.takeWhile_cons_of_neg]
      rw [LineEnding.isDirective_append_onLine_nil hreturn, hd]
      exact Bool.false_ne_true

/-! ## A run under force -/

/-- The text that a file has after a run. -/
def annotated (o : Options) (path : String) (block : Text) (k : FileKind) (c : Text) :
    Except Fault Text :=
  (annotate o path c block k).map fun new => new.getD c

section

variable {o : Options} {path : String} {c t block : Text} {k : FileKind} {L : Layout}

/-- A file that has opted out stays as it is. -/
theorem annotated_of_optedOut (h : optedOut c = true) : annotated o path block k c = .ok c := by
  rw [annotated, annotate_eq_none_iff.mpr (Or.inl h)]
  rfl

/-- A file with several regions is refused. -/
theorem annotated_of_several (hout : optedOut c = false)
    (hmany : 1 < (SourceFile.ofText o.shape c).regionCount) :
    annotated o path block k c =
      .error (.severalRegions path (SourceFile.ofText o.shape c).regionCount) := by
  rw [annotated, annotate_eq_severalRegions_iff.mpr ⟨hout, hmany, rfl⟩]
  rfl

/-- **Under force any other file is written anew**, which may leave it as it is. -/
theorem annotate_of_forced (path : String) (hforce : o.force = true) (hfrozen : o.frozen = false)
    (hout : optedOut c = false) (hone : (SourceFile.ofText o.shape c).regionCount ≤ 1)
    (ht : (SourceFile.ofText o.shape c).textAfter .regenerate (o.wrapper.wrap block)
      (o.positionFor k) = t) :
    (SourceFile.ofText o.shape c).action? o.force (o.wrapper.wrap block) = some .regenerate ∧
      annotate o path c block k = .ok (if t = c then none else some t) := by
  have haction : (SourceFile.ofText o.shape c).action? o.force (o.wrapper.wrap block) =
      some .regenerate := SourceFile.action?_eq_regenerate _ hout (Or.inr hforce)
  refine ⟨haction, ?_⟩
  by_cases hsame : t = c
  · rw [if_pos hsame]
    refine annotate_eq_none_iff.mpr (Or.inr ⟨hone, fun a ha => ?_⟩)
    obtain rfl : a = .regenerate := Option.some.inj (ha.symm.trans haction)
    exact ht.trans hsame
  · rw [if_neg hsame]
    exact annotate_eq_some_iff.mpr ⟨hout, hone, hfrozen, hsame, _, haction, ht⟩

/-- The text that it has then. -/
theorem annotated_of_forced (path : String) (block : Text) (k : FileKind) (hforce : o.force = true)
    (hfrozen : o.frozen = false) (hout : optedOut c = false)
    (hone : (SourceFile.ofText o.shape c).regionCount ≤ 1) :
    (SourceFile.ofText o.shape c).action? o.force (o.wrapper.wrap block) = some .regenerate ∧
      annotated o path block k c = .ok ((SourceFile.ofText o.shape c).textAfter .regenerate
        (o.wrapper.wrap block) (o.positionFor k)) := by
  obtain ⟨haction, hrun⟩ := annotate_of_forced path hforce hfrozen hout hone rfl
  refine ⟨haction, ?_⟩
  rw [annotated, hrun]
  split
  · rename_i hsame
    exact congrArg Except.ok hsame.symm
  · rfl

/-- What the first run makes of a file. -/
theorem exists_annotation_of_forced (path : String) (k : FileKind) (hforce : o.force = true)
    (hfrozen : o.frozen = false) (hw : o.wrapper.IsSingleLine) (hb : Rendered block)
    (hc : isHeader (Lines.ofText c).tail = false) (hout : optedOut c = false)
    (hone : (SourceFile.ofText o.shape c).regionCount ≤ 1) :
    ∃ L, Annotation o c block k .regenerate L ∧ annotated o path block k c = .ok L.text := by
  obtain ⟨haction, htext⟩ := annotated_of_forced path block k hforce hfrozen hout hone
  obtain ⟨L, hL, hsame⟩ := exists_annotation_of_chosen (k := k) hw hb (fun _ => hc) hone haction
  exact ⟨L, hL, by rw [hsame, htext]⟩

end

namespace SourceFile

variable {f g : SourceFile}

/-- **The same directives, the same line ending and the same trimmed body**: the same text. -/
theorem regenerate_congr {pos : Position} (hds : g.directives = f.directives)
    (hending : LineEnding.detect g.raw = LineEnding.detect f.raw)
    (hbody : match pos with
      | .before => Text.trimStart g.body = Text.trimStart f.body
      | .after => Text.trimEnd g.body = Text.trimEnd f.body) (wrapped : Text) :
    g.textAfter .regenerate wrapped pos = f.textAfter .regenerate wrapped pos := by
  cases pos with
  | before => simp only [textAfter, regenerate, directiveText, hds, hending, hbody]
  | after => simp only [textAfter, regenerate, directiveText, hds, hending, hbody]

end SourceFile

namespace Annotation

variable {o : Options} {path : String} {c block : Text} {k : FileKind} {a : Action} {L : Layout}

/-- The text of the layout is what the action gives. -/
theorem text_eq (h : Annotation o c block k a L) (hw : o.wrapper.IsSingleLine) (hb : Rendered block) :
    L.text = (SourceFile.ofText o.shape c).textAfter a (o.wrapper.wrap block) (o.positionFor k) := by
  obtain ⟨L', hwrites, htext⟩ := SourceFile.exists_writes h.chosen
    (Wrapper.apply_wrap hw hb (LineEnding.detect c)) (o.positionFor k)
  rw [h.writes.unique hwrites, htext]

/-- The body of an annotated file. -/
theorem body_readBack (h : Annotation o c block k a L) (hw : o.wrapper.IsPlain)
    (hb : Rendered block) : (SourceFile.ofText o.shape L.text).body =
      unlines (L.region.before ++ L.region.after) ++ L.tail := by
  rw [h.readBack hw hb]
  rfl

theorem eq_layoutBefore (h : Annotation o c block k .regenerate L) (hpos : o.positionFor k = .before) :
    L = (SourceFile.ofText o.shape c).layoutBefore (LineEnding.detect c)
      (o.wrapper.written (LineEnding.detect c) block) := by
  have hwrites := h.writes
  rw [hpos] at hwrites
  exact hwrites.unique .before

theorem eq_layoutAfter (h : Annotation o c block k .regenerate L) (hpos : o.positionFor k = .after) :
    L = (SourceFile.ofText o.shape c).layoutAfter (LineEnding.detect c)
      (o.wrapper.written (LineEnding.detect c) block) := by
  have hwrites := h.writes
  rw [hpos] at hwrites
  exact hwrites.unique .after

/-! ## Before the body -/

/-- **Written before its body**, a file would be written as it is. -/
theorem textAfter_before (h : Annotation o c block k .regenerate L) (hw : o.wrapper.IsPlain)
    (hb : Rendered block) (hpos : o.positionFor k = .before) :
    (SourceFile.ofText o.shape L.text).textAfter .regenerate (o.wrapper.wrap block)
      (o.positionFor k) = L.text := by
  have hlayout := h.eq_layoutBefore hpos
  have hending : LineEnding.detect L.text = LineEnding.detect c :=
    h.writes.detect_eq (Options.isSingleLine_shape hw.toIsSingleLine)
      (fun _ hafter => by rw [hpos] at hafter; cases hafter) h.fits
      (Wrapper.isCore_written (Or.inr rfl) hb _) (Wrapper.endsInReturn_written hw hb _)
  have hds : (SourceFile.ofText o.shape L.text).directives =
      (SourceFile.ofText o.shape c).directives := by
    rw [h.readBack hw hb, hlayout]
    rfl
  have hbody : (SourceFile.ofText o.shape L.text).body =
      Text.trimStart (SourceFile.ofText o.shape c).body := by
    rw [h.body_readBack hw hb, hlayout]
    exact Lines.toText_ofText _
  refine Eq.trans ?_ (h.text_eq hw.toIsSingleLine hb).symm
  refine SourceFile.regenerate_congr hds hending ?_ _
  rw [hpos]
  show Text.trimStart _ = _
  rw [hbody, Text.trimStart_trimStart]

/-- **A second run before the body** gives the same text, unless the first bared a header. -/
theorem annotated_before (h : Annotation o c block k .regenerate L) (hforce : o.force = true)
    (hfrozen : o.frozen = false) (hw : o.wrapper.IsPlain) (hb : Rendered block)
    (hpos : o.positionFor k = .before) :
    annotated o path block k L.text =
      if (SourceFile.ofText o.shape c).hidesHeader = true ∧ optedOut L.text = false
      then .error (.severalRegions path 2) else .ok L.text := by
  have hcount : (SourceFile.ofText o.shape L.text).regionCount =
      if (SourceFile.ofText o.shape c).hidesHeader then 2 else 1 := by
    rw [h.readBack hw hb]
    simp [SourceFile.baresHeader, hpos]
  by_cases hout : optedOut L.text = true
  · rw [if_neg (by simp [hout]), annotated_of_optedOut hout]
  · rw [Bool.not_eq_true] at hout
    by_cases hhides : (SourceFile.ofText o.shape c).hidesHeader = true
    · rw [if_pos hhides] at hcount
      rw [if_pos ⟨hhides, hout⟩, annotated_of_several hout (by omega), hcount]
    · rw [if_neg hhides] at hcount
      rw [if_neg fun hbad => hhides hbad.1,
        (annotated_of_forced path block k hforce hfrozen hout (by omega)).2,
        h.textAfter_before hw hb hpos]

/-! ## Behind the body -/

/-- The lines that stand between directives and block in a file written behind its body. -/
theorem body_after (h : Annotation o c block k .regenerate L) (hw : o.wrapper.IsPlain)
    (hb : Rendered block) (hpos : o.positionFor k = .after) :
    (SourceFile.ofText o.shape L.text).body = unlines L.region.before ∧
      L.region.before = (trimmedLines (LineEnding.detect c)
        (SourceFile.ofText o.shape c).body).dropWhile Line.isDirective := by
  have hbody := h.body_readBack hw hb
  have hlayout := h.eq_layoutAfter hpos
  rw [hlayout] at hbody ⊢
  refine ⟨?_, rfl⟩
  rw [hbody]
  simp [SourceFile.layoutAfter]

/-- Where such a file has no directives, its body shows the line ending of the file. -/
theorem detect_body_after (h : Annotation o c block k .regenerate L) (hw : o.wrapper.IsPlain)
    (hb : Rendered block) (hpos : o.positionFor k = .after) (hnone : L.directives = []) :
    LineEnding.detect (SourceFile.ofText o.shape L.text).body = LineEnding.detect L.text := by
  obtain ⟨hbody, hbefore⟩ := h.body_after hw hb hpos
  have hplain : ∀ l ∈ L.region.before, '\n' ∉ l := fun l hl =>
    h.fits.plain l (by simp [Layout.lines, Region.allLines, hl])
  have hfront : trimmedLines (LineEnding.detect c) (SourceFile.ofText o.shape c).body ≠ [] := by
    simp [trimmedLines]
  have hstays : L.region.before ≠ [] := by
    have hdirectives : (trimmedLines (LineEnding.detect c)
        (SourceFile.ofText o.shape c).body).takeWhile Line.isDirective = [] := by
      have hall := hnone
      rw [h.eq_layoutAfter hpos] at hall
      exact (List.append_eq_nil_iff.mp hall).2
    intro hnil
    rw [← List.takeWhile_append_dropWhile (p := Line.isDirective)
      (l := trimmedLines (LineEnding.detect c) (SourceFile.ofText o.shape c).body), hdirectives,
      ← hbefore, hnil] at hfront
    exact hfront rfl
  obtain ⟨l, ls, hls⟩ := List.exists_cons_of_ne_nil hstays
  rw [hbody]
  refine LineEnding.detect_congr ?_
  rw [Lines.ofText_unlines hplain, Layout.ofText_text h.fits]
  simp [Layout.lines, hnone, Region.allLines, hls]

/-- **Written a second time behind its body**, a file would be written as it is. -/
theorem textAfter_after {L' : Layout} (h : Annotation o c block k .regenerate L)
    (h' : Annotation o L.text block k .regenerate L') (hw : o.wrapper.IsPlain) (hb : Rendered block)
    (hpos : o.positionFor k = .after) :
    (SourceFile.ofText o.shape L'.text).textAfter .regenerate (o.wrapper.wrap block)
      (o.positionFor k) = L'.text := by
  obtain ⟨hbody, hbefore⟩ := h.body_after hw hb hpos
  obtain ⟨hbody', hbefore'⟩ := h'.body_after hw hb hpos
  -- the second run finds no more directives
  have hfront := takeWhile_trimmedLines (LineEnding.detect c) (LineEnding.detect L.text)
    (SourceFile.ofText o.shape c).body
  rw [← hbefore, ← hbody] at hfront
  have hkept := List.takeWhile_append_dropWhile (p := Line.isDirective)
    (l := trimmedLines (LineEnding.detect L.text) (SourceFile.ofText o.shape L.text).body)
  rw [hfront, List.nil_append, ← hbefore'] at hkept
  have hds : (SourceFile.ofText o.shape L'.text).directives =
      (SourceFile.ofText o.shape L.text).directives := by
    rw [h'.readBack hw hb, h'.eq_layoutAfter hpos]
    show _ ++ List.takeWhile Line.isDirective _ = _
    rw [hfront, List.append_nil]
  have hending : LineEnding.detect L'.text = LineEnding.detect L.text := by
    refine h'.writes.detect_eq (Options.isSingleLine_shape hw.toIsSingleLine) ?_ h'.fits
      (Wrapper.isCore_written (Or.inr rfl) hb _) (Wrapper.endsInReturn_written hw hb _)
    intro _ _ hnone
    rw [h.readBack hw hb] at hnone
    exact h.detect_body_after hw hb hpos hnone
  refine Eq.trans ?_ (h'.text_eq hw.toIsSingleLine hb).symm
  refine SourceFile.regenerate_congr hds hending ?_ _
  rw [hpos]
  show Text.trimEnd _ = Text.trimEnd _
  rw [hbody', hkept, unlines_trimmedLines,
    Text.trimEnd_append_of_isBlank fun c hc => LineEnding.isBlank_of_mem_text _ hc,
    Text.trimEnd_trimEnd]

/-- **A third run behind the body** gives the same text. -/
theorem annotated_after {L' : Layout} (h : Annotation o c block k .regenerate L)
    (h' : Annotation o L.text block k .regenerate L') (hforce : o.force = true)
    (hfrozen : o.frozen = false) (hw : o.wrapper.IsPlain) (hb : Rendered block)
    (hpos : o.positionFor k = .after) : annotated o path block k L'.text = .ok L'.text := by
  by_cases hout : optedOut L'.text = true
  · exact annotated_of_optedOut hout
  · rw [Bool.not_eq_true] at hout
    have hone : (SourceFile.ofText o.shape L'.text).regionCount ≤ 1 := by
      rw [h'.readBack hw hb]
      simp [SourceFile.baresHeader, hpos]
    rw [(annotated_of_forced path block k hforce hfrozen hout hone).2,
      h.textAfter_after h' hw hb hpos]

end Annotation

/-- **Forced runs settle.**  Before the body, the second run gives what the first one gave, unless
    that one bared a header.  Behind the body, the third run gives what the second one gave. -/
theorem forced_runs_settle {o : Options} {block c : Text} {k : FileKind} (hforce : o.force = true)
    (hfrozen : o.frozen = false) (hw : o.wrapper.IsPlain) (hb : Rendered block)
    (hone : (SourceFile.ofText o.shape c).regionCount ≤ 1)
    (hc : isHeader (Lines.ofText c).tail = false) (path : String) :
    (o.positionFor k = .before → ∃ t, annotated o path block k c = .ok t ∧
      annotated o path block k t =
        if optedOut c = false ∧ (SourceFile.ofText o.shape c).hidesHeader = true ∧ optedOut t = false
        then .error (.severalRegions path 2) else .ok t) ∧
    (o.positionFor k = .after → ∃ t u, annotated o path block k c = .ok t ∧
      annotated o path block k t = .ok u ∧ annotated o path block k u = .ok u) := by
  by_cases hout : optedOut c = true
  · have hstays : annotated o path block k c = .ok c := annotated_of_optedOut hout
    refine ⟨fun _ => ⟨c, hstays, ?_⟩, fun _ => ⟨c, c, hstays, hstays, hstays⟩⟩
    rw [if_neg (by simp [hout]), hstays]
  · rw [Bool.not_eq_true] at hout
    obtain ⟨L, hL, hfirst⟩ := exists_annotation_of_forced path k hforce hfrozen hw.toIsSingleLine hb
      hc hout hone
    refine ⟨fun hpos => ⟨L.text, hfirst, ?_⟩, fun hpos => ?_⟩
    · rw [hL.annotated_before hforce hfrozen hw hb hpos]
      simp [hout]
    · by_cases hout' : optedOut L.text = true
      · have hstays : annotated o path block k L.text = .ok L.text := annotated_of_optedOut hout'
        exact ⟨L.text, L.text, hfirst, hstays, hstays⟩
      · rw [Bool.not_eq_true] at hout'
        -- the first run ends the last line, so nothing is left open for the second
        have hc' : isHeader (Lines.ofText L.text).tail = false := by
          rw [Layout.ofText_text hL.fits, hL.eq_layoutAfter hpos]
          rfl
        have hone' : (SourceFile.ofText o.shape L.text).regionCount ≤ 1 := by
          rw [hL.readBack hw hb]
          simp [SourceFile.baresHeader, hpos]
        obtain ⟨L', hL', hsecond⟩ := exists_annotation_of_forced path k hforce hfrozen
          hw.toIsSingleLine hb hc' hout' hone'
        exact ⟨L.text, L'.text, hfirst, hsecond, hL.annotated_after hL' hforce hfrozen hw hb hpos⟩

/-- Options under which a block goes behind the body each time. -/
def forcedAfter : Options := { force := true, position := .after }

/-- A file with its block at the top, in another line ending than the rest. -/
def frontedText : Text := "# == Schema Info\r\n#  id :integer\r\n\nclass User\nend\n".toList

/-- The same file after one run, the line ending still that of the old block. -/
def movedText : Text :=
  "class User\nend\r\n\r\n# == Schema Info\r\n#  id :integer\r\n".toList

/-- The same file after two runs. -/
def settledText : Text := "class User\nend\n\n# == Schema Info\n#  id :integer\n".toList

theorem regionCount_frontedText :
    (SourceFile.ofText ({} : Options).shape frontedText).regionCount ≤ 1 := by
  rw [SourceFile.regionCount_ofText isSingleLine_usual]
  decide

theorem regionCount_movedText :
    (SourceFile.ofText ({} : Options).shape movedText).regionCount ≤ 1 := by
  rw [SourceFile.regionCount_ofText isSingleLine_usual]
  decide

theorem annotate_frontedText :
    annotate forcedAfter "user.rb" frontedText shortBlock .model = .ok (some movedText) :=
  annotate_eq_some_iff.mpr
    ⟨by decide, regionCount_frontedText, rfl, by decide, .regenerate, by decide, by decide⟩

theorem annotate_movedText :
    annotate forcedAfter "user.rb" movedText shortBlock .model = .ok (some settledText) :=
  annotate_eq_some_iff.mpr
    ⟨by decide, regionCount_movedText, rfl, by decide, .regenerate, by decide, by decide⟩

/-- The second run brings the line ending of the body to all of the file, and the third one changes
    nothing. -/
theorem forced_runs_settle_frontedText :
    annotated forcedAfter "user.rb" shortBlock .model frontedText = .ok movedText ∧
      annotated forcedAfter "user.rb" shortBlock .model movedText = .ok settledText ∧
      movedText ≠ settledText ∧
      annotated forcedAfter "user.rb" shortBlock .model settledText = .ok settledText := by
  have hfirst : annotated forcedAfter "user.rb" shortBlock .model frontedText = .ok movedText := by
    rw [annotated, annotate_frontedText]
    rfl
  have hsecond : annotated forcedAfter "user.rb" shortBlock .model movedText = .ok settledText := by
    rw [annotated, annotate_movedText]
    rfl
  obtain ⟨t, u, ht, hu, hsettled⟩ := (forced_runs_settle (o := forcedAfter) (c := frontedText)
    (k := .model) rfl rfl Wrapper.isPlain_empty rendered_shortBlock regionCount_frontedText
    (by decide) "user.rb").2 rfl
  obtain rfl : t = movedText := Except.ok.inj (ht.symm.trans hfirst)
  obtain rfl : u = settledText := Except.ok.inj (hu.symm.trans hsecond)
  exact ⟨hfirst, hsecond, by decide, hsettled⟩

/-- **Forced runs may fail the second time**, where the first one bared a header. -/
theorem not_forced_runs_settle :
    ¬ ∀ (o : Options) (path : String) (block c : Text) (k : FileKind), o.force = true →
      o.frozen = false → o.wrapper.IsPlain → Rendered block →
      (SourceFile.ofText o.shape c).regionCount ≤ 1 → isHeader (Lines.ofText c).tail = false →
      o.positionFor k = .before →
      (annotated o path block k c >>= annotated o path block k) = annotated o path block k c := by
  intro h
  have hruns := h { force := true } "user.rb" shortBlock hiddenText .model rfl rfl
    Wrapper.isPlain_empty rendered_shortBlock regionCount_hiddenText (by decide) rfl
  have hannotate : annotate { force := true } "user.rb" hiddenText shortBlock .model =
      .ok (some baredText) := annotate_eq_some_iff.mpr
    ⟨by decide, regionCount_hiddenText, rfl, by decide, .regenerate, by decide, by decide⟩
  have hfirst : annotated { force := true } "user.rb" shortBlock .model hiddenText =
      .ok baredText := by
    rw [annotated, hannotate]
    rfl
  have hseveral : annotate { force := true } "user.rb" baredText shortBlock .model =
      .error (.severalRegions "user.rb" 2) :=
    annotate_eq_severalRegions_iff.mpr ⟨by decide, by decide, regionCount_baredText⟩
  have hsecond : annotated { force := true } "user.rb" shortBlock .model baredText =
      .error (.severalRegions "user.rb" 2) := by
    rw [annotated, hseveral]
    rfl
  rw [hfirst] at hruns
  have hruns : annotated { force := true } "user.rb" shortBlock .model baredText = .ok baredText :=
    hruns
  rw [hsecond] at hruns
  cases hruns

end SchemaComment
