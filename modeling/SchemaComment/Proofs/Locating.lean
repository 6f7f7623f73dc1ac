/-
  WHERE THE FIRST SCHEMA COMMENT OF A TEXT LIES.

  The search goes through lines, and what it finds is five lists of them.  This module tells the same
  in the text itself: between which places the region stands, what it consists of, and what cannot
  stand around it.

  1. **Program** — `RegionShape.locate`, and `RegionShape.isMatch`, which asks for no more than that
     there is a region.  `Text.surroundings?` reads the blanks at either end of a region off the
     characters of the region alone, without its lines; `locate` takes only a region where it can.
  2. **Specification** — `locates_first`: a region is found just where some line that ends in a
     newline is a header.  What is found `Spans` the text from one place to another, and its pieces
     are those that `RegionShape.Locates` names.
  3. **The crux** — a region starts as early and ends as late as it can.  What follows is told by its
     first line: an empty one would belong to the blanks of the region, and a comment to its core,
     unless blanks have come between.
-/
import SchemaComment.Proofs.Block

namespace SchemaComment

open Line

/-! ## Blanks at either end of a text -/

namespace Text

theorem closingBreak?_line {l : Line} (h : '\n' ∉ l) (t : Text) :
    closingBreak? (l ++ '\n' :: t) = if t.all isBlank = true then some t else closingBreak? t := by
  induction l with
  | nil => simp [closingBreak?]
  | cons c l ih =>
    rw [List.mem_cons, not_or] at h
    rw [List.cons_append, closingBreak?, if_neg fun hc => h.1 hc.1.symm, ih h.2]

/-- The newline of the last comment line is the closing one. -/
theorem closingBreak?_comments {ls : List Line} (hne : ls ≠ [])
    (hcomment : ∀ l ∈ ls, isComment l = true) (hplain : ∀ l ∈ ls, '\n' ∉ l) {back : Text}
    (hback : back.all isBlank = true) : closingBreak? (unlines ls ++ back) = some back := by
  induction ls with
  | nil => exact absurd rfl hne
  | cons l ls ih =>
    rw [unlines_cons, List.append_assoc, List.cons_append,
      closingBreak?_line (hplain l List.mem_cons_self)]
    cases ls with
    | nil => rw [unlines_nil, List.nil_append, if_pos hback]
    | cons k ks =>
      -- a comment line follows, and its hash is no blank
      obtain ⟨r, rfl⟩ := isComment_iff.mp (hcomment k (by simp))
      have hsolid : (unlines (('#' :: r) :: ks) ++ back).all isBlank = false := by
        simp [isBlank_hash]
      rw [hsolid, if_neg Bool.false_ne_true]
      exact ih (by simp) (fun l hl => hcomment l (List.mem_cons_of_mem _ hl)) fun l hl =>
        hplain l (List.mem_cons_of_mem _ hl)

/-- Blanks set in front are taken along. -/
theorem surroundings?_append {front t u back : Text} (hfront : ∀ c ∈ front, isBlank c = true)
    (h : surroundings? t = some (u, back)) : surroundings? (front ++ t) = some (front ++ u, back) := by
  induction front with
  | nil => exact h
  | cons c front ih =>
    have hrest := ih fun d hd => hfront d (List.mem_cons_of_mem c hd)
    rw [List.cons_append, surroundings?]
    simp only [hfront c List.mem_cons_self, if_true, hrest]
    rfl

/-- **Around comment lines the blanks are told from them.** -/
theorem surroundings?_comments {ls : List Line} (hne : ls ≠ [])
    (hcomment : ∀ l ∈ ls, isComment l = true) (hplain : ∀ l ∈ ls, '\n' ∉ l) {front back : Text}
    (hfront : front.all isBlank = true) (hback : back.all isBlank = true) :
    surroundings? (front ++ unlines ls ++ back) = some (front, back) := by
  have hclosing := closingBreak?_comments hne hcomment hplain hback
  obtain ⟨l, ls, rfl⟩ := List.exists_cons_of_ne_nil hne
  obtain ⟨r, rfl⟩ := isComment_iff.mp (hcomment l List.mem_cons_self)
  rw [unlines_cons, List.cons_append, List.cons_append] at hclosing
  have hcore : surroundings? (unlines (('#' :: r) :: ls) ++ back) = some ([], back) := by
    rw [unlines_cons, List.cons_append, List.cons_append, surroundings?]
    simp only [isBlank_hash, Bool.false_eq_true, if_false, hclosing]
    rfl
  have hwhole := surroundings?_append (List.all_eq_true.mp hfront) hcore
  rwa [List.append_nil, ← List.append_assoc] at hwhole

end Text

/-! ## Empty lines as line breaks -/

/-- An empty line is a line break of one of the two endings. -/
theorem Line.exists_ending_of_isEmpty {l : Line} (h : Line.isEmpty l = true) :
    ∃ e : LineEnding, l ++ ['\n'] = e.text := by
  rcases isEmpty_iff.mp h with rfl | rfl
  · exact ⟨.lf, rfl⟩
  · exact ⟨.crlf, rfl⟩

/-- Empty lines are a run of line breaks. -/
theorem exists_endings_of_isEmpty {ls : List Line} (h : ∀ l ∈ ls, Line.isEmpty l = true) :
    ∃ es : List LineEnding, unlines ls = es.flatMap LineEnding.text := by
  induction ls with
  | nil => exact ⟨[], rfl⟩
  | cons l ls ih =>
    obtain ⟨e, he⟩ := Line.exists_ending_of_isEmpty (h l List.mem_cons_self)
    obtain ⟨es, hes⟩ := ih fun k hk => h k (List.mem_cons_of_mem l hk)
    refine ⟨e :: es, ?_⟩
    rw [List.flatMap_cons, ← he, ← hes, unlines_cons, List.append_assoc]
    rfl

/-- A text that begins with a line break has an empty line first. -/
theorem head?_ended_of_text_prefix {e : LineEnding} {t : Text} (h : e.text <+: t) :
    (Lines.ofText t).ended.head?.any Line.isEmpty = true := by
  obtain ⟨u, rfl⟩ := h
  have hbreak : e.text ++ u = e.onLine [] ++ '\n' :: u := by
    rw [← e.unlines_onLine_nil, unlines_cons, unlines_nil, List.append_assoc, List.singleton_append]
  rw [hbreak, Lines.ofText_line_append (LineEnding.not_mem_onLine List.not_mem_nil e)]
  exact e.isEmpty_onLine_nil

/-! ## The place of a region -/

/-- How a region lies in a text between what is above it and what is below it. -/
structure Region.Spans (p : RegionShape) (r : Region) (t above below : Text) : Prop where
  text : t = above ++ r.text ++ below
  start : r.start = Text.size above
  stop : r.stop = Text.size (above ++ r.text)
  /-- It starts where the text or a line does. -/
  line_start : above = [] ∨ above.getLast? = some '\n'
  /-- It is the first one. -/
  no_header : ∀ l ∈ (Lines.ofText above).ended, isHeader l = false
  /-- No empty line stands above that it could open with. -/
  no_empty : r.leading = [] → ∀ l ∈ (Lines.ofText above).ended.getLast?, Line.isEmpty l = false
  /-- No marker stands above a header that it could open with. -/
  no_marker : r.leading = [] → (∀ l ∈ r.core.head?, isHeader l = true) →
    ∀ l ∈ (Lines.ofText above).ended.getLast?, p.marks l = false
  /-- No line break follows that could be one more of its blanks. -/
  no_break : ∀ e : LineEnding, ¬ e.text <+: below
  /-- No comment line follows that could be one more of its core. -/
  no_comment : r.trailing = [] → ∀ l ∈ (Lines.ofText below).ended.head?, isComment l = false

/-- What a search finds in a text. -/
structure RegionShape.Locates (p : RegionShape) (t : Text) (r : Region) : Prop where
  span : ∃ above below, r.Spans p t above below
  pieces : r.text = unlines r.leading ++ unlines r.core ++ unlines r.trailing
  /-- It opens with one line break or with none. -/
  leading : unlines r.leading = [] ∨ ∃ e : LineEnding, unlines r.leading = e.text
  /-- It closes with line breaks. -/
  trailing : ∃ es : List LineEnding, unlines r.trailing = es.flatMap LineEnding.text
  /-- The blanks at its ends are those of its text. -/
  blanks : Text.surroundings? r.text = some (unlines r.leading, unlines r.trailing)
  /-- In between there are comment lines only. -/
  core : r.core ≠ [] ∧ ∀ l ∈ r.core, isComment l = true ∧ '\n' ∉ l
  /-- The first of these that is a header is the first of all, or comes right below the marker. -/
  header : (∃ h cs, r.core = h :: cs ∧ isHeader h = true) ∨
    ∃ m h cs, r.core = m :: h :: cs ∧ p.marks m = true ∧ isHeader m = false ∧ isHeader h = true

namespace RegionShape

variable {p : RegionShape}

/-- A core opens with its header, or with the marker and then its header. -/
theorem IsCore.header_first {core : List Line} (h : p.IsCore core) :
    (∃ k cs, core = k :: cs ∧ isHeader k = true) ∨
      ∃ m k cs, core = m :: k :: cs ∧ p.marks m = true ∧ isHeader m = false ∧ isHeader k = true := by
  cases h with
  | plain hh _ => exact Or.inl ⟨_, _, rfl, hh⟩
  | @marked m k cs hm hh _ =>
    -- a marker may read as a header itself
    cases hmh : isHeader m with
    | true => exact Or.inl ⟨m, _, rfl, hmh⟩
    | false => exact Or.inr ⟨m, k, cs, rfl, hm, hmh, hh⟩

end RegionShape

namespace Region.Fits

variable {p : RegionShape} {r : Region} {tail : Line}

/-- **A region that fits** spans the text between the lines before it and what follows it. -/
theorem spans (h : r.Fits p) (hplain : ∀ l ∈ r.allLines, '\n' ∉ l) (htail : '\n' ∉ tail) :
    r.Spans p (unlines r.allLines ++ tail) (unlines r.before) (unlines r.after ++ tail) := by
  have hends : RegionShape.Ends r.trailing r.after := h.ends
  have hbefore : Lines.ofText (unlines r.before) = ⟨r.before, []⟩ :=
    Lines.ofText_unlines fun l hl => hplain l (by simp [allLines, hl])
  have hafter : Lines.ofText (unlines r.after ++ tail) = ⟨r.after, tail⟩ :=
    Lines.ofText_toText (s := ⟨r.after, tail⟩) (fun l hl => hplain l (by simp [allLines, hl])) htail
  refine ⟨by simp [allLines, Region.text, List.append_assoc], rfl, ?_, ?_, ?_, ?_, ?_, ?_, ?_⟩
  · rw [Text.size_append]
    rfl
  · rcases List.eq_nil_or_concat r.before with hnil | ⟨bs, b, hb⟩
    · exact Or.inl (by rw [hnil, unlines_nil])
    · right
      rw [hb, List.concat_eq_append, unlines_append, unlines_cons, unlines_nil, ← List.append_assoc,
        List.getLast?_concat]
  · rw [hbefore]
    exact h.before
  · rw [hbefore]
    exact h.start_empty
  · rw [hbefore]
    exact h.start_marker
  · intro e hbreak
    have hempty := head?_ended_of_text_prefix hbreak
    rw [hafter] at hempty
    obtain ⟨l, hl, hle⟩ := (Option.any_eq_true _ _).mp hempty
    rw [hends.solid l hl] at hle
    cases hle
  · rw [hafter]
    exact hends.apart

/-- **What its pieces are.** -/
theorem locates (h : r.Fits p) (hplain : ∀ l ∈ r.allLines, '\n' ∉ l) (htail : '\n' ∉ tail) :
    p.Locates (unlines r.allLines ++ tail) r := by
  have hcore : p.IsCore r.core := h.core
  have hends : RegionShape.Ends r.trailing r.after := h.ends
  have hline : ∀ l ∈ r.core, '\n' ∉ l := fun l hl => hplain l (by simp [allLines, lines, hl])
  have hpieces : r.text = unlines r.leading ++ unlines r.core ++ unlines r.trailing := by
    simp [Region.text, lines]
  refine ⟨⟨_, _, h.spans hplain htail⟩, hpieces, ?_, exists_endings_of_isEmpty hends.empty, ?_,
    ⟨hcore.ne_nil, fun l hl => ⟨hcore.comment l hl, hline l hl⟩⟩, hcore.header_first⟩
  · rcases h.leading with hnil | ⟨l, hl, hone⟩
    · exact Or.inl (by rw [hnil, unlines_nil])
    · obtain ⟨e, he⟩ := Line.exists_ending_of_isEmpty hl
      exact Or.inr ⟨e, by rw [hone, ← he]; simp⟩
  · rw [hpieces]
    exact Text.surroundings?_comments hcore.ne_nil hcore.comment hline
      (List.all_eq_true.mpr fun _ => Line.isBlank_of_mem_unlines h.isEmpty_leading)
      (List.all_eq_true.mpr fun _ => Line.isBlank_of_mem_unlines hends.empty)

end Region.Fits

/-! ## What is found -/

/-- **The first schema comment is found.**  There is one just where a line that ends in a newline is
    a header, and then it lies as `Locates` says. -/
theorem locates_first {o : Options} (hopen : ∀ m ∈ o.wrapper.opening, '\n' ∉ m) (t : Text) :
    ((o.shape.locate t).isSome = true ↔ ∃ l ∈ (Lines.ofText t).ended, isHeader l = true) ∧
      o.shape.isMatch t = (o.shape.locate t).isSome ∧
      (0 < o.shape.count t ↔ (o.shape.locate t).isSome = true) ∧
      ∀ r, o.shape.locate t = some r → o.shape.Locates t r := by
  have hp := Options.isSingleLine_shape_of_opening hopen
  have hfound : (o.shape.locate t).isSome = true ↔
      ∃ l ∈ (Lines.ofText t).ended, isHeader l = true := by
    rw [Option.isSome_iff_ne_none, ne_eq, RegionShape.locate_eq, RegionShape.first?_eq_none_iff hp]
    simp
  refine ⟨hfound, by rw [RegionShape.locate_eq, RegionShape.isMatch], ?_, fun r hr => ?_⟩
  · rw [RegionShape.count_eq hp, Nat.pos_iff_ne_zero, ne_eq, headings_eq_zero_iff, hfound]
    simp
  · rw [RegionShape.locate_eq] at hr
    obtain ⟨hall, hfits⟩ := (RegionShape.first?_eq_some_iff hp).mp hr
    have hplain := Lines.not_mem_ended_ofText t
    rw [← hall] at hplain
    have hlocates := hfits.locates hplain (Lines.not_mem_tail_ofText t)
    have hwhole := Lines.toText_ofText t
    rw [Lines.toText, ← hall] at hwhole
    rwa [hwhole] at hlocates

/-- Options with an opening marker. -/
def startOptions : Options := { wrapper := ⟨some "START".toList, none⟩ }

/-- A file whose schema comment stands between blank lines, below another comment. -/
def framedText : Text :=
  "# A user.\n\n# START\n# == Schema Info\r\n#  id :integer\n\r\n\nclass User\n".toList

/-- The blank line above the marker and those below the columns belong to the region. -/
theorem locates_first_framedText : ∃ r, startOptions.shape.locate framedText = some r ∧
    startOptions.shape.Locates framedText r ∧ r.start = 10 ∧ r.stop = 55 ∧
    r.text = "\n# START\n# == Schema Info\r\n#  id :integer\n\r\n\n".toList := by
  obtain ⟨-, -, -, hlocates⟩ := locates_first (o := startOptions) (by decide) framedText
  exact ⟨_, rfl, hlocates _ rfl, by decide, by decide, by decide⟩

end SchemaComment
