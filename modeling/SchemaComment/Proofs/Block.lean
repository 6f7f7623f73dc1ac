/-
  BLOCKS BETWEEN THEIR MARKERS.

  What goes into a file is a rendered block, perhaps between two marker lines, in the line ending of
  the file.  This module gives the lines of it.

  1. **The block** — `Rendered b`: whole comment lines, the first of them a header, and no carriage
     return.
  2. **The markers** — `Wrapper.IsSingleLine`: no marker holds a newline.  `Wrapper.IsPlain` asks
     besides that none holds a carriage return and that the opening one does not read as a
     directive.
  3. **The crux** — `Wrapper.written` are the lines that go into the file (`apply_wrap`), and they
     are the core of a region (`isCore_written`), whatever the line ending.
-/
import SchemaComment.Proofs.Count
import SchemaComment.Proofs.Joined
import SchemaComment.Options

namespace SchemaComment

open Line

/-! ## Rendered blocks -/

/-- A block as the renderer gives it. -/
structure Rendered (b : Text) : Prop where
  /-- Every line ends in a newline. -/
  whole : (Lines.ofText b).tail = []
  /-- No line ends in a carriage return, or holds one. -/
  noReturn : '\r' ∉ b
  /-- Every line is a comment line. -/
  comment : ∀ l ∈ (Lines.ofText b).ended, isComment l = true
  /-- The first line is there and is a header. -/
  header : (Lines.ofText b).ended.head?.any isHeader = true

instance (b : Text) : Decidable (Rendered b) :=
  decidable_of_iff
    ((Lines.ofText b).tail = [] ∧ '\r' ∉ b ∧ (∀ l ∈ (Lines.ofText b).ended, isComment l = true) ∧
      (Lines.ofText b).ended.head?.any isHeader = true)
    ⟨fun ⟨h1, h2, h3, h4⟩ => ⟨h1, h2, h3, h4⟩, fun ⟨h1, h2, h3, h4⟩ => ⟨h1, h2, h3, h4⟩⟩

namespace Rendered

variable {b : Text}

/-- A header with comment lines below it. -/
theorem exists_cons (h : Rendered b) : ∃ l ls, (Lines.ofText b).ended = l :: ls ∧
    isHeader l = true ∧ ∀ k ∈ ls, isComment k = true := by
  cases hls : (Lines.ofText b).ended with
  | nil =>
    have := h.header
    rw [hls] at this
    cases this
  | cons l ls =>
    have hhead := h.header
    rw [hls] at hhead
    exact ⟨l, ls, rfl, hhead, fun k hk => h.comment k (by rw [hls]; exact List.mem_cons_of_mem l hk)⟩

/-- No line of a rendered block holds a carriage return. -/
theorem not_mem_line (h : Rendered b) {l : Line} (hl : l ∈ (Lines.ofText b).ended) : '\r' ∉ l := by
  intro hr
  apply h.noReturn
  rw [← Lines.unlines_ended h.whole]
  exact List.mem_flatMap.mpr ⟨l, hl, List.mem_append_left _ hr⟩

end Rendered

/-- A short rendered block. -/
def shortBlock : Text := "# == Schema Info\n#  id :integer\n".toList

theorem rendered_shortBlock : Rendered shortBlock := by decide

/-- A block with one column of the type. -/
def columnBlock (type : String) : Text :=
  "# == Schema Info\n# Table name: users\n#  id :".toList ++ type.toList ++ ['\n']

/-! ## Lines in a line ending -/

namespace LineEnding

/-- A line in this line ending. -/
def onLine : LineEnding → Line → Line
  | .lf, l => l
  | .crlf, l => withReturn l

/-- The line break is an empty line of its ending. -/
theorem unlines_onLine_nil (e : LineEnding) : unlines [e.onLine []] = e.text := by
  cases e <;> rfl

theorem isEmpty_onLine_nil (e : LineEnding) : Line.isEmpty (e.onLine []) = true := by
  cases e <;> rfl

/-- A line break ends a line that no break has ended yet. -/
theorem append_text (e : LineEnding) (l : Line) : l ++ e.text = unlines [l ++ e.onLine []] := by
  cases e <;> simp [text, onLine, withReturn, endsInReturn]

theorem isBlank_of_mem_onLine_nil (e : LineEnding) {c : Char} (h : c ∈ e.onLine []) :
    Text.isBlank c = true := by
  cases e with
  | lf => cases h
  | crlf =>
    obtain rfl : c = '\r' := by simpa [onLine, withReturn, endsInReturn] using h
    rfl

/-- A line break is blank. -/
theorem isBlank_of_mem_text (e : LineEnding) {c : Char} (h : c ∈ e.text) :
    Text.isBlank c = true := by
  cases e with
  | lf =>
    obtain rfl := List.mem_singleton.mp h
    rfl
  | crlf =>
    rcases List.mem_cons.mp h with rfl | h
    · rfl
    · obtain rfl := List.mem_singleton.mp h
      rfl

@[simp] theorem isHeader_onLine (e : LineEnding) (l : Line) : isHeader (e.onLine l) = isHeader l := by
  cases e with
  | lf => rfl
  | crlf => exact isHeader_withReturn l

theorem isComment_onLine {l : Line} (h : isComment l = true) (e : LineEnding) :
    isComment (e.onLine l) = true := by
  cases e with
  | lf => exact h
  | crlf => exact isComment_withReturn h

theorem not_mem_onLine {l : Line} (h : '\n' ∉ l) (e : LineEnding) : '\n' ∉ e.onLine l := by
  cases e with
  | lf => exact h
  | crlf => exact not_mem_withReturn h

/-- The line ending takes no part in whether a line is a directive. -/
@[simp] theorem isDirective_onLine (e : LineEnding) (l : Line) :
    Line.isDirective (e.onLine l) = Line.isDirective l := by
  cases e with
  | lf => rfl
  | crlf =>
    show Line.isDirective (withReturn l) = Line.isDirective l
    unfold withReturn
    split
    · rfl
    · rename_i h
      rw [Line.isDirective, Line.isDirective, withoutReturn_append_return, withoutReturn, if_neg h]

/-- The line break behind a line has no part in whether it is a directive. -/
theorem isDirective_append_onLine_nil {l : Line} (h : endsInReturn l = false) (e : LineEnding) :
    Line.isDirective (l ++ e.onLine []) = Line.isDirective l := by
  have hbreak : l ++ e.onLine [] = e.onLine l := by
    cases e with
    | lf => exact List.append_nil l
    | crlf =>
      show l ++ ['\r'] = withReturn l
      rw [withReturn, h]
      rfl
  rw [hbreak, isDirective_onLine]

theorem prefix_onLine (e : LineEnding) (l : Line) : l <+: e.onLine l := by
  cases e with
  | lf => exact List.prefix_rfl
  | crlf =>
    show l <+: withReturn l
    unfold withReturn
    split
    · exact List.prefix_rfl
    · exact List.prefix_append _ _

/-- A line without a carriage return shows the ending that it was given. -/
theorem endsInReturn_onLine {l : Line} (h : '\r' ∉ l) (e : LineEnding) :
    endsInReturn (e.onLine l) = true ↔ e = .crlf := by
  cases e with
  | crlf => simp [onLine]
  | lf =>
    constructor
    · intro hl
      have hlast : l.getLast? = some '\r' := of_decide_eq_true hl
      exact absurd (List.mem_of_getLast? hlast) h
    · intro he
      cases he

/-- **A text in a line ending** is each of its lines in it. -/
theorem apply_unlines {ls : List Line} (h : ∀ l ∈ ls, '\n' ∉ l) (e : LineEnding) :
    e.apply (unlines ls) = unlines (ls.map e.onLine) := by
  cases e with
  | lf =>
    have hid : onLine .lf = id := rfl
    rw [apply_lf, hid, List.map_id]
  | crlf =>
    rw [apply, Lines.ofText_unlines h]
    simp only [Lines.withReturns, Lines.toText, List.append_nil]
    rfl

theorem tail_ofText_text (e : LineEnding) : (Lines.ofText e.text).tail = [] := by
  cases e <;> rfl

/-- Reading back a text in a line ending gives its lines in it, and its open end. -/
theorem ofText_apply (e : LineEnding) (t : Text) :
    Lines.ofText (e.apply t) = ⟨(Lines.ofText t).ended.map e.onLine, (Lines.ofText t).tail⟩ := by
  cases e with
  | lf =>
    have hid : onLine .lf = id := rfl
    rw [apply_lf, hid, List.map_id]
  | crlf => exact ofText_apply_crlf t

/-- The line ending of a text is that of its first line. -/
theorem detect_congr {s t : Text}
    (h : (Lines.ofText s).ended.head? = (Lines.ofText t).ended.head?) : detect s = detect t := by
  unfold detect
  cases hs : (Lines.ofText s).ended <;> cases ht : (Lines.ofText t).ended <;> simp_all

/-- A text whose first line shows a line ending has that one. -/
theorem detect_of_head {t : Text} {e : LineEnding} {l : Line} (hl : l ∈ (Lines.ofText t).ended.head?)
    (he : endsInReturn l = true ↔ e = .crlf) : detect t = e := by
  cases hls : (Lines.ofText t).ended with
  | nil =>
    rw [hls] at hl
    cases hl
  | cons k ks =>
    rw [hls] at hl
    obtain rfl := Option.some.inj hl
    simp only [detect, hls]
    cases e with
    | lf => exact if_neg fun h => absurd (he.mp h) (by simp)
    | crlf => exact if_pos (he.mpr rfl)

/-- The first line of a text shows its line ending. -/
theorem endsInReturn_iff_of_head {t : Text} {l : Line} (hl : l ∈ (Lines.ofText t).ended.head?) :
    endsInReturn l = true ↔ detect t = .crlf := by
  cases hls : (Lines.ofText t).ended with
  | nil =>
    rw [hls] at hl
    cases hl
  | cons k ks =>
    rw [hls] at hl
    obtain rfl := Option.some.inj hl
    simp only [detect, hls]
    split <;> simp_all

end LineEnding

/-! ## The markers -/

namespace Wrapper

variable {w : Wrapper} {b : Text} {p : RegionShape}

/-- Neither marker breaks the line it stands on. -/
structure IsSingleLine (w : Wrapper) : Prop where
  opening : ∀ m ∈ w.opening, '\n' ∉ m
  closing : ∀ m ∈ w.closing, '\n' ∉ m

/-- The markers are single lines in any line ending, and the opening one is no directive. -/
structure IsPlain (w : Wrapper) : Prop extends IsSingleLine w where
  openingReturn : ∀ m ∈ w.opening, '\r' ∉ m
  closingReturn : ∀ m ∈ w.closing, '\r' ∉ m
  directive : ∀ m ∈ w.opening, isDirective (commented m) = false

instance (w : Wrapper) : Decidable w.IsPlain :=
  decidable_of_iff
    ((∀ m ∈ w.opening, '\n' ∉ m) ∧ (∀ m ∈ w.closing, '\n' ∉ m) ∧ (∀ m ∈ w.opening, '\r' ∉ m) ∧
      (∀ m ∈ w.closing, '\r' ∉ m) ∧ ∀ m ∈ w.opening, isDirective (commented m) = false)
    ⟨fun ⟨h1, h2, h3, h4, h5⟩ => ⟨⟨h1, h2⟩, h3, h4, h5⟩,
      fun ⟨⟨h1, h2⟩, h3, h4, h5⟩ => ⟨h1, h2, h3, h4, h5⟩⟩

theorem isPlain_empty : ({} : Wrapper).IsPlain := by decide

/-- The lines of a block between its markers. -/
def lines (w : Wrapper) (b : Text) : List Line :=
  w.opening.toList.map commented ++ (Lines.ofText b).ended ++ w.closing.toList.map commented

/-- The lines of a block between its markers, in a line ending. -/
def written (w : Wrapper) (e : LineEnding) (b : Text) : List Line := (w.lines b).map e.onLine

theorem markerLine_eq (m : Option Text) : markerLine m = unlines (m.toList.map commented) := by
  cases m <;> simp [markerLine, commented]

theorem wrap_eq (hb : Rendered b) : w.wrap b = unlines (w.lines b) := by
  rw [wrap, lines, unlines_append, unlines_append, markerLine_eq, markerLine_eq,
    Lines.unlines_ended hb.whole]

theorem not_mem_lines (hw : w.IsSingleLine) : ∀ l ∈ w.lines b, '\n' ∉ l := by
  have hmarker : ∀ {o : Option Text}, (∀ m ∈ o, '\n' ∉ m) →
      ∀ l ∈ o.toList.map commented, '\n' ∉ l := by
    intro o ho l hl
    obtain ⟨m, hm, rfl⟩ := List.mem_map.mp hl
    have := ho m (Option.mem_toList.mp hm)
    simp [commented, this]
  intro l hl
  rcases List.mem_append.mp hl with hl | hl
  · rcases List.mem_append.mp hl with hl | hl
    · exact hmarker hw.opening l hl
    · exact Lines.not_mem_ended_ofText b l hl
  · exact hmarker hw.closing l hl

/-- **What goes into the file** are the written lines. -/
theorem apply_wrap (hw : w.IsSingleLine) (hb : Rendered b) (e : LineEnding) :
    e.apply (w.wrap b) = unlines (w.written e b) := by
  rw [wrap_eq hb, LineEnding.apply_unlines (not_mem_lines hw), written]

theorem not_mem_written (hw : w.IsSingleLine) (e : LineEnding) :
    ∀ l ∈ w.written e b, '\n' ∉ l := by
  intro l hl
  obtain ⟨k, hk, rfl⟩ := List.mem_map.mp hl
  exact LineEnding.not_mem_onLine (not_mem_lines hw k hk) e

/-! ## The written lines as a core -/

/-- Without an opening marker a header comes first, and that is a core for every shape. -/
theorem written_of_no_opening (ho : w.opening = none) (hb : Rendered b) (e : LineEnding) :
    ∃ h cs, w.written e b = h :: cs ∧ isHeader h = true ∧ ∀ l ∈ cs, isComment l = true := by
  obtain ⟨l, ls, hls, hl, hcs⟩ := hb.exists_cons
  refine ⟨e.onLine l, (ls ++ w.closing.toList.map commented).map e.onLine, ?_, ?_, ?_⟩
  · simp [written, lines, ho, hls]
  · rw [LineEnding.isHeader_onLine]
    exact hl
  · intro k hk
    obtain ⟨j, hj, rfl⟩ := List.mem_map.mp hk
    refine LineEnding.isComment_onLine ?_ e
    rcases List.mem_append.mp hj with hj | hj
    · exact hcs j hj
    · obtain ⟨m, -, rfl⟩ := List.mem_map.mp hj
      rfl

/-- With an opening marker that comes first, and then the rest as without it. -/
theorem written_of_opening {m : Text} (ho : w.opening = some m) (e : LineEnding) :
    w.written e b = e.onLine (commented m) :: written { w with opening := none } e b := by
  simp [written, lines, ho]

/-- **The written lines are a core** for shapes with the same opening marker, and without one for
    all. -/
theorem isCore_written (hp : w.opening = none ∨ w.opening = p.opening) (hb : Rendered b)
    (e : LineEnding) : p.IsCore (w.written e b) := by
  cases ho : w.opening with
  | none =>
    obtain ⟨h, cs, hw, hh, hcs⟩ := written_of_no_opening ho hb e
    rw [hw]
    exact .plain hh hcs
  | some m =>
    have hm : p.opening = some m := by simpa [ho, eq_comm] using hp
    obtain ⟨h, cs, hw, hh, hcs⟩ := written_of_no_opening (w := { w with opening := none }) rfl hb e
    rw [written_of_opening ho, hw]
    exact .marked (RegionShape.marks_iff.mpr ⟨m, hm, LineEnding.prefix_onLine e _⟩) hh hcs

/-- Where the written lines begin with a header, all marker lines are headers: either there is no
    marker, or it reads as a header itself. -/
theorem isHeader_of_marks (hp : p.opening = w.opening) {e : LineEnding}
    (hh : ∀ l ∈ (w.written e b).head?, isHeader l = true) {l : Line} (hl : p.marks l = true) :
    isHeader l = true := by
  obtain ⟨m, hm, k, rfl⟩ := RegionShape.marks_iff.mp hl
  have hfirst := hh (e.onLine (commented m)) (by rw [written_of_opening (by rw [← hp, hm])]; rfl)
  rw [LineEnding.isHeader_onLine] at hfirst
  exact isHeader_append hfirst k

/-- The line of a plain opening marker is no directive. -/
theorem IsPlain.not_isDirective_opening (hw : w.IsPlain) :
    ∀ m ∈ w.opening, Line.isDirective (commented m) = false := by
  intro m ho
  have hreturn : '\r' ∉ commented m := by
    have := hw.openingReturn m ho
    simp [commented, this]
  rcases eq_withoutReturn_or (commented m) with h | h
  · rw [Line.isDirective, ← h]
    exact hw.directive m ho
  · rw [h] at hreturn
    simp at hreturn

/-- The first written line is no directive, if the line of the opening marker is none. -/
theorem not_isDirective_head_written (hw : ∀ m ∈ w.opening, Line.isDirective (commented m) = false)
    (hb : Rendered b) (e : LineEnding) : ∀ l ∈ (w.written e b).head?, Line.isDirective l = false := by
  intro l hl
  cases ho : w.opening with
  | none =>
    obtain ⟨h, cs, hlines, hh, -⟩ := written_of_no_opening ho hb e
    rw [hlines] at hl
    obtain rfl := Option.some.inj hl
    exact not_isDirective_of_isHeader hh
  | some m =>
    rw [written_of_opening ho] at hl
    obtain rfl := Option.some.inj hl
    rw [LineEnding.isDirective_onLine]
    exact hw m ho

/-- The first written line shows the line ending. -/
theorem endsInReturn_written (hw : w.IsPlain) (hb : Rendered b) (e : LineEnding) :
    ∀ l ∈ (w.written e b).head?, (endsInReturn l = true ↔ e = .crlf) := by
  intro l hl
  cases ho : w.opening with
  | none =>
    obtain ⟨k, ks, hks, -, -⟩ := hb.exists_cons
    have hl' : some (e.onLine k) = some l := by
      simpa [written, lines, ho, hks] using hl
    obtain rfl := Option.some.inj hl'
    exact LineEnding.endsInReturn_onLine (hb.not_mem_line (by rw [hks]; simp)) e
  | some m =>
    rw [written_of_opening ho] at hl
    obtain rfl := Option.some.inj hl
    have := hw.openingReturn m ho
    exact LineEnding.endsInReturn_onLine (by simp [commented, this]) e

end Wrapper

/-! ## The shape of the options -/

/-- The shape that options ask for is one of single lines, if the opening marker is one. -/
theorem Options.isSingleLine_shape_of_opening {o : Options} (h : ∀ m ∈ o.wrapper.opening, '\n' ∉ m) :
    o.shape.IsSingleLine :=
  have hheader : '\n' ∉ plainHeader := by decide
  have hknown : "== Schema Info".toList <+: plainHeader := by decide
  ⟨hheader, ⟨_, List.mem_cons_self, hknown⟩, h⟩

/-- The shape that options ask for is one of single lines. -/
theorem Options.isSingleLine_shape {o : Options} (hw : o.wrapper.IsSingleLine) :
    o.shape.IsSingleLine := isSingleLine_shape_of_opening hw.opening

end SchemaComment
