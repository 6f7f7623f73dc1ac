/-
  HEADER LINES.

  A region stands or falls with its header.  Both usual headers and any header a shape may ask for
  begin with one of the two short ones, so one test on a line decides for all shapes whether a
  region may have its header there.

  1. **The line** — `Line.isHeader`.  A header is a comment line, so it is no empty line, and it is
     no directive (`not_isDirective_of_isHeader`).
  2. **The shapes** — `RegionShape.IsSingleLine`: header and opening marker are one line each.  For
     these shapes the recognisers of a region read one line at a time.
  3. **The crux** — whether a line is a header is settled by its first characters, and the last of
     those is no blank.  So blanks added or cut off behind, a carriage return among them, never make
     or break a header (`isHeader_append_blank`).  Blanks cut off in front may.
-/
import SchemaComment.Region
import SchemaComment.Directive

namespace SchemaComment

/-! ## The line -/

/-- Whether the line is a header, in any spelling. -/
def Line.isHeader (l : Line) : Bool := shortHeaders.any fun h => (commented h).isPrefixOf l

namespace Line

theorem isHeader_iff {l : Line} : isHeader l = true ↔ ∃ h ∈ shortHeaders, commented h <+: l := by
  simp [isHeader]

/-- What runs on behind a header leaves it one. -/
theorem isHeader_append {l : Line} (h : isHeader l = true) (m : Line) : isHeader (l ++ m) = true := by
  obtain ⟨s, hs, hl⟩ := isHeader_iff.mp h
  exact isHeader_iff.mpr ⟨s, hs, hl.trans (List.prefix_append _ _)⟩

/-- A line that begins another is no header when the other is none. -/
theorem not_isHeader_of_begins {k l : Line} (h : k <+: l) (hl : isHeader l = false) :
    isHeader k = false := by
  obtain ⟨m, rfl⟩ := h
  cases hk : isHeader k with
  | false => rfl
  | true => rw [isHeader_append hk] at hl; exact hl

/-- A short header ends in a letter. -/
theorem exists_commented_eq {s : Text} (h : s ∈ shortHeaders) : ∃ r, commented s = r ++ ['o'] := by
  simp only [shortHeaders, List.mem_cons, List.not_mem_nil, or_false] at h
  rcases h with rfl | rfl
  · exact ⟨"# == Schema Inf".toList, by decide⟩
  · exact ⟨"# ## Schema Inf".toList, by decide⟩

/-- **Blanks at the end take no part** in whether a line is a header. -/
theorem isHeader_append_blank {l b : Line} (hb : ∀ c ∈ b, Text.isBlank c = true) :
    isHeader (l ++ b) = isHeader l := by
  cases hlb : isHeader (l ++ b) with
  | false => exact (not_isHeader_of_begins (List.prefix_append l b) hlb).symm
  | true =>
    symm
    obtain ⟨s, hs, hpre⟩ := isHeader_iff.mp hlb
    obtain ⟨r, hr⟩ := exists_commented_eq hs
    -- the header ends within `l`, or runs on into the blanks
    rcases List.prefix_or_prefix_of_prefix hpre (List.prefix_append l b) with hp | ⟨m, hm⟩
    · exact isHeader_iff.mpr ⟨s, hs, hp⟩
    · -- a header that reached into the blanks would end in one
      rw [← hm, List.prefix_append_right_inj] at hpre
      rcases List.eq_nil_or_concat m with rfl | ⟨m', c, rfl⟩
      · rw [List.append_nil] at hm
        exact isHeader_iff.mpr ⟨s, hs, hm ▸ List.prefix_rfl⟩
      · have hlast : (l ++ m') ++ [c] = r ++ ['o'] := by rw [← hr, ← hm]; simp
        have hc : c = 'o' := by simpa using (List.append_inj' hlast rfl).2
        have := hb c (hpre.subset (by simp))
        rw [hc] at this
        exact absurd this (by decide)

/-! ## Comment lines and empty lines -/

theorem isComment_iff {l : Line} : isComment l = true ↔ ∃ r, l = '#' :: r := by
  cases l <;> simp [isComment, eq_comm]

theorem isComment_of_isHeader {l : Line} (h : isHeader l = true) : isComment l = true := by
  obtain ⟨s, -, r, rfl⟩ := isHeader_iff.mp h
  rfl

theorem isEmpty_iff {l : Line} : isEmpty l = true ↔ l = [] ∨ l = ['\r'] := by
  simp [isEmpty]

/-- An empty line is no comment line. -/
theorem not_isComment_of_isEmpty {l : Line} (h : isEmpty l = true) : isComment l = false := by
  rcases isEmpty_iff.mp h with rfl | rfl <;> rfl

/-- A comment line is no empty line. -/
theorem not_isEmpty_of_isComment {l : Line} (h : isComment l = true) : isEmpty l = false := by
  cases he : isEmpty l with
  | false => rfl
  | true => rw [not_isComment_of_isEmpty he] at h; cases h

theorem not_isHeader_of_not_isComment {l : Line} (h : isComment l = false) : isHeader l = false := by
  cases hl : isHeader l with
  | false => rfl
  | true => rw [isComment_of_isHeader hl] at h; exact h

theorem not_isHeader_of_isEmpty {l : Line} (h : isEmpty l = true) : isHeader l = false :=
  not_isHeader_of_not_isComment (not_isComment_of_isEmpty h)

theorem isBlank_of_isEmpty {l : Line} (h : isEmpty l = true) : isBlank l = true := by
  rcases isEmpty_iff.mp h with rfl | rfl <;> rfl

/-- The text of empty lines is all blank. -/
theorem isBlank_of_mem_unlines {ls : List Line} (h : ∀ l ∈ ls, isEmpty l = true) {c : Char}
    (hc : c ∈ unlines ls) : Text.isBlank c = true := by
  obtain ⟨l, hl, hcl⟩ := List.mem_flatMap.mp hc
  rcases List.mem_append.mp hcl with hcl | hcl
  · exact List.all_eq_true.mp (isBlank_of_isEmpty (h l hl)) c hcl
  · obtain rfl := List.mem_singleton.mp hcl
    exact Text.isBlank_newline

theorem not_isBlank_of_isComment {l : Line} (h : isComment l = true) : isBlank l = false := by
  obtain ⟨r, rfl⟩ := isComment_iff.mp h
  rfl

/-! ## Carriage returns -/

@[simp] theorem isHeader_withReturn (l : Line) : isHeader (withReturn l) = isHeader l := by
  unfold withReturn
  split
  · rfl
  · exact isHeader_append_blank (by simp [Text.isBlank_return])

theorem isComment_withReturn {l : Line} (h : isComment l = true) :
    isComment (withReturn l) = true := by
  obtain ⟨r, rfl⟩ := isComment_iff.mp h
  unfold withReturn
  split <;> rfl

/-- A line is its part without the carriage return, and perhaps that return. -/
theorem eq_withoutReturn_or (l : Line) : l = withoutReturn l ∨ l = withoutReturn l ++ ['\r'] := by
  unfold withoutReturn
  split
  · rename_i h
    right
    simp only [endsInReturn, decide_eq_true_eq] at h
    obtain ⟨k, rfl⟩ := List.getLast?_eq_some_iff.mp h
    simp
  · exact Or.inl rfl

theorem isHeader_withoutReturn (l : Line) : isHeader (withoutReturn l) = isHeader l := by
  rcases eq_withoutReturn_or l with h | h
  · rw [← h]
  · conv => rhs; rw [h]
    exact (isHeader_append_blank (by simp [Text.isBlank_return])).symm

/-! ## Directives -/

/-- A header is no directive. -/
theorem not_isDirective_of_isHeader {l : Line} (h : isHeader l = true) : isDirective l = false := by
  rw [← isHeader_withoutReturn] at h
  obtain ⟨s, hs, r, hr⟩ := isHeader_iff.mp h
  rw [isDirective, ← hr]
  simp only [shortHeaders, List.mem_cons, List.not_mem_nil, or_false] at hs
  rcases hs with rfl | rfl <;> rfl

/-- A directive is no header. -/
theorem not_isHeader_of_isDirective {l : Line} (h : isDirective l = true) : isHeader l = false := by
  cases hl : isHeader l with
  | false => rfl
  | true => rw [not_isDirective_of_isHeader hl] at h; cases h

/-- An empty line is no directive. -/
theorem not_isDirective_of_isEmpty {l : Line} (h : isEmpty l = true) : isDirective l = false := by
  rcases isEmpty_iff.mp h with rfl | rfl <;> rfl

/-- A directive is no empty line. -/
theorem not_isEmpty_of_isDirective {l : Line} (h : isDirective l = true) : isEmpty l = false := by
  cases hl : isEmpty l with
  | false => rfl
  | true => rw [not_isDirective_of_isEmpty hl] at h; cases h

end Line

/-! ## The shapes -/

namespace RegionShape

/-- Header and opening marker are one line each, and the header is a form of a short one. -/
structure IsSingleLine (p : RegionShape) : Prop where
  header : '\n' ∉ p.header
  known : ∃ s ∈ shortHeaders, s <+: p.header
  opening : ∀ m ∈ p.opening, '\n' ∉ m

/-- Whether the line may be the opening marker. -/
def marks (p : RegionShape) (l : Line) : Bool := p.opening.any fun m => (commented m).isPrefixOf l

theorem marks_iff {p : RegionShape} {l : Line} :
    p.marks l = true ↔ ∃ m, p.opening = some m ∧ commented m <+: l := by
  cases h : p.opening <;> simp [marks, h]

theorem isComment_of_marks {p : RegionShape} {l : Line} (h : p.marks l = true) :
    Line.isComment l = true := by
  obtain ⟨m, -, r, rfl⟩ := marks_iff.mp h
  rfl

/-- Without an opening marker no line is one. -/
theorem not_marks {p : RegionShape} (h : p.opening = none) (l : Line) : p.marks l = false := by
  simp [marks, h]

end RegionShape

end SchemaComment
