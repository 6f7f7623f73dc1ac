/-
  AN ANNOTATED FILE, READ BACK.

  1. **Program** — `SourceFile.Writes` names the layout that each action writes, and `Annotation`
     puts together what is known when a file was annotated.
  2. **Specification** — `exists_annotation`: a text that `annotate` gives is that of a layout which
     one of the actions wrote and which fits.  `Annotation.readBack`: it is taken apart into this
     layout.  `Annotation.count`: how many regions it has, under any markers.
  3. **The crux** — one region, but for one case: the file was written anew before its body, and the
     body hid a header (`baresHeader`).  Then there are two.
-/
import SchemaComment.Proofs.Writing
import SchemaComment.Annotation

namespace SchemaComment

open Line

namespace SourceFile

variable {f : SourceFile} {p : RegionShape} {t : Text} {e : LineEnding} {core : List Line}
  {pos : Position} {a : Action} {L : Layout}

/-! ## What an action writes -/

/-- The layout that an action writes at a position. -/
inductive Writes (f : SourceFile) (e : LineEnding) (core : List Line) :
    Position → Action → Layout → Prop
  | before : Writes f e core .before .regenerate (f.layoutBefore e core)
  | after : Writes f e core .after .regenerate (f.layoutAfter e core)
  | inPlace {pos : Position} {r : Region} (h : f.region = some r) :
      Writes f e core pos .substitute ((f.layout r).withCore core)

/-- Only a region can be substituted. -/
theorem exists_region_of_substitute {force : Bool} {wrapped : Text}
    (h : f.action? force wrapped = some .substitute) : ∃ r, f.region = some r := by
  unfold action? at h
  split at h
  · cases h
  · split at h
    · cases h
    · rename_i hregion
      rw [Bool.or_eq_true, not_or] at hregion
      exact Option.ne_none_iff_exists'.mp (by simpa [hasRegion] using hregion.1)

/-- Unless it is forced, a file is written anew only where it has no region. -/
theorem no_region_of_regenerate {wrapped : Text}
    (h : f.action? false wrapped = some .regenerate) : f.region = none := by
  unfold action? at h
  split at h
  · cases h
  · split at h
    · rename_i hregion
      simpa [hasRegion] using hregion
    · split at h <;> cases h

/-- **A file is written anew** exactly where it has no region or is forced. -/
theorem eq_regenerate_iff_of_force {force : Bool} {wrapped : Text}
    (h : f.action? force wrapped = some a) : a = .regenerate ↔ f.hasRegion = false ∨ force = true := by
  unfold action? at h
  split at h
  · cases h
  · split at h
    · rename_i hanew
      obtain rfl := Option.some.inj h
      simpa using hanew
    · rename_i hkept
      split at h
      · obtain rfl := Option.some.inj h
        simpa using hkept
      · cases h

/-- A file that has not opted out is written anew where it has no region, and under force. -/
theorem action?_eq_regenerate {force : Bool} (wrapped : Text) (hout : f.isOptedOut = false)
    (h : f.hasRegion = false ∨ force = true) : f.action? force wrapped = some .regenerate := by
  rcases h with h | h <;> simp [action?, hout, h]

/-- Unless it is forced, a file is written anew exactly where it has no region. -/
theorem eq_regenerate_iff {wrapped : Text} (h : f.action? false wrapped = some a) :
    a = .regenerate ↔ f.region = none := by
  rw [eq_regenerate_iff_of_force h]
  simp [hasRegion]

/-- **What an action gives** is the text of a layout. -/
theorem exists_writes {force : Bool} {wrapped : Text} (h : f.action? force wrapped = some a)
    (hcore : (LineEnding.detect f.raw).apply wrapped = unlines core) (pos : Position) :
    ∃ L, f.Writes (LineEnding.detect f.raw) core pos a L ∧ L.text = f.textAfter a wrapped pos := by
  cases a with
  | regenerate =>
    rw [textAfter, hcore]
    cases pos with
    | before => exact ⟨_, .before, text_layoutBefore f _ core⟩
    | after => exact ⟨_, .after, text_layoutAfter f _ core⟩
  | substitute =>
    obtain ⟨r, hr⟩ := exists_region_of_substitute h
    rw [textAfter, hcore]
    exact ⟨_, .inPlace hr, text_withCore hr core⟩

/-- What an action writes differs in its core only, whatever block it writes. -/
theorem Writes.withCore (h : f.Writes e core pos a L) (core' : List Line) :
    f.Writes e core' pos a (L.withCore core') := by
  cases h with
  | before => exact .before
  | after => exact .after
  | @inPlace pos r hr => exact .inPlace (r := r) hr

/-- It writes one layout. -/
theorem Writes.unique {L' : Layout} (h : f.Writes e core pos a L) (h' : f.Writes e core pos a L') :
    L = L' := by
  cases h with
  | before => cases h'; rfl
  | after => cases h'; rfl
  | @inPlace pos r hr =>
    cases h' with
    | @inPlace pos r' hr' =>
      obtain rfl : r = r' := Option.some.inj (hr.symm.trans hr')
      rfl

theorem Writes.core_eq (h : f.Writes e core pos a L) : L.region.core = core := by
  cases h <;> rfl

/-- **The layout fits.**  Behind the body it does so only where the file does not end in a header
    that a break would bring out. -/
theorem Writes.fits (hp : p.IsSingleLine) (h : (ofText p t).Writes e core pos a L)
    (hone : (ofText p t).regionCount ≤ 1)
    (htail : pos = .after → isHeader (Lines.ofText t).tail = false)
    (hcore : p.IsCore core) (hplain : ∀ l ∈ core, '\n' ∉ l)
    (hmarks : (∀ l ∈ core.head?, isHeader l = true) → ∀ l, p.marks l = true → isHeader l = true) :
    L.Fits p := by
  cases h with
  | before => exact fits_layoutBefore hcore hplain
  | after => exact fits_layoutAfter hp hone (htail rfl) hcore hplain
  | inPlace hr => exact fits_withCore hp hr hcore hplain hmarks

/-- Whether an action at a position makes a header of a line that was none. -/
def baresHeader (f : SourceFile) (a : Action) (pos : Position) : Bool :=
  a == .regenerate && pos == .before && f.hidesHeader

/-- **The regions behind the one that was written.** -/
theorem Writes.headings_after (hp : p.IsSingleLine) (h : (ofText p t).Writes e core pos a L)
    (hone : (ofText p t).regionCount ≤ 1) :
    headings false L.region.after = if (ofText p t).baresHeader a pos then 1 else 0 := by
  cases h with
  | before =>
    have hbody : ∀ l ∈ (Lines.ofText (ofText p t).body).ended, isHeader l = false := by
      rw [ofText_body hp]
      exact not_isHeader_bodyLines hp hone
    exact headings_trimStart hbody
  | after => rfl
  | @inPlace pos r hr =>
    have hcount := regionCount_of_region hp hr
    show headings false r.after = 0
    omega

/-- Where the file had no open end, the layout has none. -/
theorem Writes.tail_eq (hp : p.IsSingleLine) (h : (ofText p t).Writes e core pos a L)
    (htail : (Lines.ofText t).tail = []) : L.tail = [] := by
  rw [lines_ofText p t] at htail
  cases h with
  | before =>
    refine tail_trimStart ?_
    rw [ofText_body hp]
    exact htail
  | after => rfl
  | inPlace _ => exact htail

/-- Written anew, the first line behind the directives is none, unless it is the core that stands
    at the top of the file. -/
theorem Writes.not_isDirective_of_regenerate (h : f.Writes e core pos .regenerate L)
    (hcore : core ≠ [])
    (hfirst : pos = .before → f.directives = [] → ∀ l ∈ core.head?, Line.isDirective l = false) :
    ∀ l ∈ L.region.allLines.head?, Line.isDirective l = false := by
  have hempty : Line.isDirective (e.onLine []) = false :=
    not_isDirective_of_isEmpty e.isEmpty_onLine_nil
  cases h with
  | before =>
    obtain ⟨c, cs, rfl⟩ := List.exists_cons_of_ne_nil hcore
    intro l hl
    simp only [layoutBefore, Region.allLines, Region.lines, List.nil_append, List.append_assoc] at hl
    split at hl
    · rename_i hds
      exact hfirst rfl (List.isEmpty_iff.mp hds) l hl
    · obtain rfl := Option.some.inj hl
      exact hempty
  | after =>
    intro l hl
    cases hfront : (trimmedLines e f.body).dropWhile Line.isDirective with
    | nil =>
      simp only [layoutAfter, Region.allLines, Region.lines, hfront] at hl
      obtain rfl := Option.some.inj hl
      exact hempty
    | cons k ks =>
      simp only [layoutAfter, Region.allLines, Region.lines, hfront] at hl
      obtain rfl := Option.some.inj hl
      have hk : k ∈ ((trimmedLines e f.body).dropWhile Line.isDirective).head? := by
        rw [hfront]
        rfl
      exact not_of_mem_head?_dropWhile hk

/-- The first line behind the directives that were written is none. -/
theorem Writes.not_isDirective (hp : p.IsSingleLine) (h : (ofText p t).Writes e core pos a L)
    (hcore : p.IsCore core) (hfirst : ∀ l ∈ core.head?, Line.isDirective l = false) :
    ∀ l ∈ L.region.allLines.head?, Line.isDirective l = false := by
  cases a with
  | regenerate => exact h.not_isDirective_of_regenerate hcore.ne_nil fun _ _ => hfirst
  | substitute =>
    obtain ⟨r, hr⟩ : ∃ r, (ofText p t).region = some r := by
      cases h with
      | inPlace hr => exact ⟨_, hr⟩
    obtain rfl := h.unique (.inPlace hr)
    obtain ⟨-, -, hall⟩ := fits_layout hp hr
    have hold := (directives_ofText p t).2
    rw [← hall] at hold
    intro l hl
    rcases r.head?_withCore hcore.ne_nil with hsame | hcomes
    · exact hold l (hsame ▸ hl)
    · exact hfirst l (hcomes ▸ hl)

/-! ## The line ending of what was written -/

/-- The first line that is written is that of the file, or that of the core, or the first one of what
    the trimmed body leaves. -/
theorem Writes.head?_lines (hp : p.IsSingleLine) (h : (ofText p t).Writes e core pos a L)
    (hcore : core ≠ []) :
    L.lines.head? = (Lines.ofText t).ended.head? ∨ L.lines.head? = core.head? ∨
      (a = .regenerate ∧ pos = .after ∧ (ofText p t).directives = [] ∧
        L.lines.head? = (trimmedLines e (ofText p t).body).head?) := by
  rw [lines_ofText p t]
  cases hds : (ofText p t).directives with
  | cons d ds =>
    -- the first directive stays the first line
    left
    cases h with
    | before => simp [Layout.lines, layoutBefore, hds]
    | after => simp [Layout.lines, layoutAfter, hds]
    | inPlace _ => simp [Layout.lines, Layout.withCore, layout, hds]
  | nil =>
    cases h with
    | before =>
      obtain ⟨c, cs, rfl⟩ := List.exists_cons_of_ne_nil hcore
      exact Or.inr (Or.inl (by simp [Layout.lines, layoutBefore, hds, Region.allLines, Region.lines]))
    | after =>
      refine Or.inr (Or.inr ⟨rfl, rfl, rfl, ?_⟩)
      rw [lines_layoutAfter, hds, List.nil_append]
      cases hfront : trimmedLines e (ofText p t).body with
      | nil => simp [trimmedLines] at hfront
      | cons k ks => rfl
    | @inPlace pos r hr =>
      obtain ⟨-, -, hall⟩ := fits_layout hp hr
      have hlines : ((layout (ofText p t) r).withCore core).lines =
          ({ r with core := core } : Region).allLines := by
        simp [Layout.lines, Layout.withCore, layout, hds]
      rw [hlines, ← hall, List.nil_append]
      rcases r.head?_withCore hcore with hsame | hcomes
      · exact Or.inl hsame
      · exact Or.inr (Or.inl hcomes)

/-- **The line ending of a file is kept**, unless the file is written anew behind a body that is the
    first to show another one. -/
theorem Writes.detect_eq (hp : p.IsSingleLine)
    (h : (ofText p t).Writes (LineEnding.detect t) core pos a L)
    (hbody : a = .regenerate → pos = .after → (ofText p t).directives = [] →
      LineEnding.detect (ofText p t).body = LineEnding.detect t) (hfits : L.Fits p)
    (hcore : p.IsCore core)
    (hreturn : ∀ l ∈ core.head?, (endsInReturn l = true ↔ LineEnding.detect t = .crlf)) :
    LineEnding.detect L.text = LineEnding.detect t := by
  have hwritten : (Lines.ofText L.text).ended = L.lines := by rw [Layout.ofText_text hfits]
  have hshows : ∀ l ∈ L.lines.head?, (endsInReturn l = true ↔ LineEnding.detect t = .crlf) := by
    intro l hl
    rcases h.head?_lines hp hcore.ne_nil with hhead | hhead | ⟨ha, hpos, hnone, hhead⟩
    · exact LineEnding.endsInReturn_iff_of_head (hhead ▸ hl)
    · exact hreturn l (hhead ▸ hl)
    · have hsame := hbody ha hpos hnone
      rw [hhead, ← hsame] at hl
      rw [← hsame]
      exact endsInReturn_trimmedLines _ l hl
  cases hlines : L.lines with
  | cons l ls =>
    have hl : l ∈ L.lines.head? := by rw [hlines]; rfl
    exact LineEnding.detect_of_head (by rw [hwritten]; exact hl) (hshows l hl)
  | nil =>
    have hnil : L.region.core = [] := by
      simp only [Layout.lines, Region.allLines, Region.lines, List.append_eq_nil_iff] at hlines
      exact hlines.2.1.2.1.2
    exact absurd (h.core_eq.symm.trans hnil) hcore.ne_nil

/-- Without directives and without a region a file is all body. -/
theorem body_eq_of_no_region (h : (ofText p t).region = none) (hds : (ofText p t).directives = []) :
    (ofText p t).body = t := by
  have hraw := raw_eq_of_no_region h
  rw [directiveText, hds, unlines_nil, List.nil_append] at hraw
  exact hraw.symm

end SourceFile

/-! ## When a file is annotated -/

section Annotate

variable {o : Options} {path : String} {c t block : Text} {k : FileKind} {a : Action} {L : Layout}

/-- **When annotating gives a text**: the file has not opted out, has one region at the most and may
    be written, there is something to do, and doing it changes the text. -/
theorem annotate_eq_some_iff :
    annotate o path c block k = .ok (some t) ↔
      optedOut c = false ∧ (SourceFile.ofText o.shape c).regionCount ≤ 1 ∧ o.frozen = false ∧
        t ≠ c ∧ ∃ a, (SourceFile.ofText o.shape c).action? o.force (o.wrapper.wrap block) = some a ∧
          (SourceFile.ofText o.shape c).textAfter a (o.wrapper.wrap block) (o.positionFor k) = t := by
  have hraw : (SourceFile.ofText o.shape c).raw = c := rfl
  have hopted : (SourceFile.ofText o.shape c).isOptedOut = optedOut c := rfl
  constructor
  · intro h
    simp only [annotate, SourceFile.place, hopted, hraw] at h
    cases hout : optedOut c with
    | true => simp [hout] at h
    | false =>
      simp only [hout, Bool.not_false, Bool.true_and, Bool.false_eq_true, if_false] at h
      split at h
      · cases h
      · rename_i hone
        rw [decide_eq_true_eq, Nat.not_lt] at hone
        cases ha : (SourceFile.ofText o.shape c).action? o.force (o.wrapper.wrap block) with
        | none => simp [ha] at h
        | some a =>
          simp only [ha] at h
          by_cases hsame : (SourceFile.ofText o.shape c).textAfter a (o.wrapper.wrap block)
              (o.positionFor k) = c
          · simp [hsame] at h
          · rw [if_neg hsame] at h
            cases hfrozen : o.frozen with
            | true => simp [hfrozen] at h
            | false =>
              simp only [hfrozen, Bool.false_eq_true, if_false] at h
              cases h
              exact ⟨rfl, hone, rfl, hsame, a, rfl, rfl⟩
  · rintro ⟨hout, hone, hfrozen, hne, a, ha, rfl⟩
    have hmany : ¬ 1 < (SourceFile.ofText o.shape c).regionCount := by omega
    simp only [annotate, SourceFile.place, hopted, hraw, hout, ha, hfrozen, if_neg hne, hmany]
    rfl

/-- **When annotating leaves a text as it is**: the file has opted out; or it has one region at the
    most, and all there might be to do would not change the text. -/
theorem annotate_eq_none_iff :
    annotate o path c block k = .ok none ↔
      optedOut c = true ∨ ((SourceFile.ofText o.shape c).regionCount ≤ 1 ∧
        ∀ a, (SourceFile.ofText o.shape c).action? o.force (o.wrapper.wrap block) = some a →
          (SourceFile.ofText o.shape c).textAfter a (o.wrapper.wrap block) (o.positionFor k) = c) := by
  have hraw : (SourceFile.ofText o.shape c).raw = c := rfl
  have hopted : (SourceFile.ofText o.shape c).isOptedOut = optedOut c := rfl
  simp only [annotate, SourceFile.place, hopted, hraw]
  cases hout : optedOut c with
  | true => simp
  | false =>
    by_cases hmany : 1 < (SourceFile.ofText o.shape c).regionCount
    · simp [hmany, Nat.not_le.mpr hmany]
    · simp only [Bool.not_false, Bool.true_and, hmany, decide_false, Bool.false_eq_true, if_false,
        false_or, Nat.not_lt.mp hmany, true_and]
      cases ha : (SourceFile.ofText o.shape c).action? o.force (o.wrapper.wrap block) with
      | none => simp
      | some a =>
        simp only [Option.some.injEq, forall_eq']
        by_cases hsame : (SourceFile.ofText o.shape c).textAfter a (o.wrapper.wrap block)
            (o.positionFor k) = c
        · simp [hsame]
        · simp only [hsame, iff_false]
          cases o.frozen <;> simp

/-- Where nothing forbids writing, annotating gives a text, or nothing, or finds several regions. -/
theorem annotate_cases (hfrozen : o.frozen = false) :
    annotate o path c block k = .ok none ∨ (∃ u, annotate o path c block k = .ok (some u)) ∨
      ∃ n, annotate o path c block k = .error (.severalRegions path n) := by
  unfold annotate
  simp only
  split
  · exact Or.inr (Or.inr ⟨_, rfl⟩)
  · split
    · exact Or.inl rfl
    · exact Or.inl rfl
    · rename_i hrefused
      -- a refusal needs the option that forbids writing
      simp only [SourceFile.place, hfrozen] at hrefused
      split at hrefused
      · cases hrefused
      · split at hrefused
        · cases hrefused
        · split at hrefused <;> cases hrefused
    · exact Or.inr (Or.inl ⟨_, rfl⟩)

/-- **When annotating finds several regions.** -/
theorem annotate_eq_severalRegions_iff {n : Nat} :
    annotate o path c block k = .error (.severalRegions path n) ↔
      optedOut c = false ∧ 1 < n ∧ (SourceFile.ofText o.shape c).regionCount = n := by
  have hopted : (SourceFile.ofText o.shape c).isOptedOut = optedOut c := rfl
  constructor
  · intro h
    unfold annotate at h
    simp only [hopted] at h
    split at h
    · rename_i hmany
      cases h
      simp only [Bool.and_eq_true, Bool.not_eq_true', decide_eq_true_eq] at hmany
      exact ⟨hmany.1, hmany.2, rfl⟩
    · split at h <;> cases h
  · rintro ⟨hout, hmany, rfl⟩
    unfold annotate
    simp [hopted, hout, hmany]

/-- What is known of a file that was annotated. -/
structure Annotation (o : Options) (c block : Text) (k : FileKind) (a : Action) (L : Layout) :
    Prop where
  one : (SourceFile.ofText o.shape c).regionCount ≤ 1
  chosen : (SourceFile.ofText o.shape c).action? o.force (o.wrapper.wrap block) = some a
  writes : (SourceFile.ofText o.shape c).Writes (LineEnding.detect c)
    (o.wrapper.written (LineEnding.detect c) block) (o.positionFor k) a L
  fits : L.Fits o.shape

/-- **What is chosen for a file** gives the text of a layout that fits. -/
theorem exists_annotation_of_chosen (hw : o.wrapper.IsSingleLine) (hb : Rendered block)
    (hc : o.positionFor k = .after → isHeader (Lines.ofText c).tail = false)
    (hone : (SourceFile.ofText o.shape c).regionCount ≤ 1)
    (ha : (SourceFile.ofText o.shape c).action? o.force (o.wrapper.wrap block) = some a) :
    ∃ L, Annotation o c block k a L ∧ L.text =
      (SourceFile.ofText o.shape c).textAfter a (o.wrapper.wrap block) (o.positionFor k) := by
  have hp := Options.isSingleLine_shape hw
  have hcore := Wrapper.apply_wrap hw hb (LineEnding.detect c)
  obtain ⟨L, hwrites, htext⟩ := SourceFile.exists_writes ha hcore (o.positionFor k)
  have hfits : L.Fits o.shape := hwrites.fits hp hone hc (Wrapper.isCore_written (Or.inr rfl) hb _)
    (Wrapper.not_mem_written hw _) fun hhead _ hm => Wrapper.isHeader_of_marks rfl hhead hm
  exact ⟨L, ⟨hone, ha, hwrites, hfits⟩, htext⟩

/-- **A text that annotating gives** is that of a layout that fits, unless it ends a header that
    was left open. -/
theorem exists_annotation_at (hw : o.wrapper.IsSingleLine) (hb : Rendered block)
    (hc : o.positionFor k = .after → isHeader (Lines.ofText c).tail = false)
    (h : annotate o path c block k = .ok (some t)) :
    ∃ a L, Annotation o c block k a L ∧ L.text = t := by
  obtain ⟨-, hone, -, -, a, ha, rfl⟩ := annotate_eq_some_iff.mp h
  exact ⟨a, exists_annotation_of_chosen hw hb hc hone ha⟩

/-- The same where no header was left open. -/
theorem exists_annotation (hw : o.wrapper.IsSingleLine) (hb : Rendered block)
    (hc : isHeader (Lines.ofText c).tail = false)
    (h : annotate o path c block k = .ok (some t)) :
    ∃ a L, Annotation o c block k a L ∧ L.text = t := exists_annotation_at hw hb (fun _ => hc) h

/-- **A header that was left open** is a second region beside the block that is written behind it. -/
theorem two_le_count_textAfter (hw : o.wrapper.IsSingleLine) (hb : Rendered block)
    (hc : isHeader (Lines.ofText c).tail = true) :
    2 ≤ o.shape.count ((SourceFile.ofText o.shape c).textAfter .regenerate (o.wrapper.wrap block)
      .after) := by
  have hp := Options.isSingleLine_shape hw
  have hcore := Wrapper.isCore_written (p := o.shape) (Or.inr rfl) hb (LineEnding.detect c)
  have htext : (SourceFile.ofText o.shape c).textAfter .regenerate (o.wrapper.wrap block) .after =
      ((SourceFile.ofText o.shape c).layoutAfter (LineEnding.detect c)
        (o.wrapper.written (LineEnding.detect c) block)).text := by
    rw [SourceFile.text_layoutAfter, ← Wrapper.apply_wrap hw hb]
    rfl
  rw [htext, RegionShape.count_eq hp,
    SourceFile.ofText_text_layoutAfter o.shape c _ (Wrapper.not_mem_written hw _)]
  exact SourceFile.two_le_headings_layoutAfter hp hc hcore _

namespace Annotation

/-- **How many regions an annotated file has**, under any markers: one, or two where a header of
    the body was bared. -/
theorem count (h : Annotation o c block k a L) (hw : o.wrapper.IsSingleLine) {q : RegionShape}
    (hq : q.IsSingleLine) :
    q.count L.text =
      if (SourceFile.ofText o.shape c).baresHeader a (o.positionFor k) then 2 else 1 := by
  rw [Layout.count_text h.fits hq,
    h.writes.headings_after (Options.isSingleLine_shape hw) h.one]
  split <;> rfl

/-- What follows the directives of an annotated file does not open with one. -/
theorem not_isDirective (h : Annotation o c block k a L) (hw : o.wrapper.IsPlain)
    (hb : Rendered block) : ∀ l ∈ L.region.allLines.head?, Line.isDirective l = false :=
  h.writes.not_isDirective (Options.isSingleLine_shape hw.toIsSingleLine)
    (Wrapper.isCore_written (Or.inr rfl) hb _)
    (Wrapper.not_isDirective_head_written hw.not_isDirective_opening hb _)

/-- **An annotated file is taken apart** into the layout that was written. -/
theorem readBack (h : Annotation o c block k a L) (hw : o.wrapper.IsPlain) (hb : Rendered block) :
    SourceFile.ofText o.shape L.text =
      ⟨L.text, L.directives, ⟨L.region.allLines, L.tail⟩, some L.region,
        if (SourceFile.ofText o.shape c).baresHeader a (o.positionFor k) then 2 else 1⟩ := by
  have hp := Options.isSingleLine_shape hw.toIsSingleLine
  rw [SourceFile.ofText_text hp h.fits (h.not_isDirective hw hb), h.writes.headings_after hp h.one]
  split <;> rfl

/-- **What was written anew fits under another shape** too, if the written lines are a core there. -/
theorem fits_of_isCore {q : RegionShape} (h : Annotation o c block k .regenerate L)
    (hw : o.wrapper.IsSingleLine) (hc : isHeader (Lines.ofText c).tail = false)
    (hcore : q.IsCore (o.wrapper.written (LineEnding.detect c) block)) : L.Fits q := by
  have hplain := Wrapper.not_mem_written (b := block) hw (LineEnding.detect c)
  have hwrites := h.writes
  generalize o.positionFor k = pos at hwrites
  cases hwrites with
  | before => exact SourceFile.fits_layoutBefore hcore hplain
  | after => exact SourceFile.fits_layoutAfter (Options.isSingleLine_shape hw) h.one hc hcore hplain

/-- Unless it is forced, annotating keeps the line ending. -/
theorem detect_eq (h : Annotation o c block k a L) (hforce : o.force = false)
    (hw : o.wrapper.IsPlain) (hb : Rendered block) :
    LineEnding.detect L.text = LineEnding.detect c := by
  refine h.writes.detect_eq (Options.isSingleLine_shape hw.toIsSingleLine) ?_ h.fits
    (Wrapper.isCore_written (Or.inr rfl) hb _) (Wrapper.endsInReturn_written hw hb _)
  rintro rfl - hds
  have hchosen := h.chosen
  rw [hforce] at hchosen
  rw [SourceFile.body_eq_of_no_region (SourceFile.no_region_of_regenerate hchosen) hds]

end Annotation

end Annotate

/-! ## Two files -/

/-- A file with a directive, its lines ended by a carriage return and a newline. -/
def typedText : Text := "# typed: true\r\nclass User\r\nend\r\n".toList

/-- The same file with its block. -/
def typedAnnotated : Text :=
  "# typed: true\r\n\r\n# == Schema Info\r\n#  id :integer\r\nclass User\r\nend\r\n".toList

/-- The usual options know their region from whole lines. -/
theorem isSingleLine_usual : ({} : Options).shape.IsSingleLine :=
  Options.isSingleLine_shape Wrapper.isPlain_empty.toIsSingleLine

theorem regionCount_typedText :
    (SourceFile.ofText ({} : Options).shape typedText).regionCount ≤ 1 := by
  rw [SourceFile.regionCount_ofText isSingleLine_usual]
  decide

theorem annotate_typedText :
    annotate {} "user.rb" typedText shortBlock .model = .ok (some typedAnnotated) :=
  annotate_eq_some_iff.mpr
    ⟨by decide, regionCount_typedText, rfl, by decide, .regenerate, by decide, by decide⟩

/-- A file whose first line would be a header, were it not indented. -/
def hiddenText : Text := "  # == Schema Info\nclass User\nend\n".toList

/-- The same file with its block: the line is a header. -/
def baredText : Text :=
  "# == Schema Info\n#  id :integer\n\n# == Schema Info\nclass User\nend\n".toList

theorem regionCount_hiddenText :
    (SourceFile.ofText ({} : Options).shape hiddenText).regionCount ≤ 1 := by
  rw [SourceFile.regionCount_ofText isSingleLine_usual]
  decide

theorem regionCount_baredText :
    (SourceFile.ofText ({} : Options).shape baredText).regionCount = 2 := by
  rw [SourceFile.regionCount_ofText isSingleLine_usual]
  decide

theorem count_baredText : ({} : Options).shape.count baredText = 2 := by
  rw [SourceFile.count_eq_regionCount isSingleLine_usual isSingleLine_usual]
  exact regionCount_baredText

theorem annotate_hiddenText :
    annotate {} "user.rb" hiddenText shortBlock .model = .ok (some baredText) :=
  annotate_eq_some_iff.mpr
    ⟨by decide, regionCount_hiddenText, rfl, by decide, .regenerate, by decide, by decide⟩

end SchemaComment
