/-
  WHAT A TEXT SAYS, LINE BY LINE.

  A file that is written anew may lose blank lines and blanks at the ends of lines.  To say what it
  keeps, a text is read as its pieces between the newlines, the open end among them.

  1. **Program** — `Lines.pieces` are these pieces and `solidLines` those that are not all blank.
     `sourceLines` are the solid lines without the blanks at their ends, `bareLines` those without
     the blanks at either end.
  2. **Specification** — blanks added at the end of a text take no part in either list
     (`sourceLines_append_blank`).  Trimming the front of a text takes the indentation off its first
     solid line and changes nothing else (`sourceLines_trimStart`), so that the bare lines stay.
  3. **The crux** — the open end of a text runs on into the first piece of what is set behind it
     (`pieces_ofText_append`).  So only the one line at a seam can change
     (`exists_bareLines_append`).
-/
import Mathlib.Data.List.TakeWhile
import SchemaComment.Proofs.Header
import SchemaComment.Proofs.Joined

namespace SchemaComment

namespace Lines

/-! ## The pieces -/

/-- What stands between the newlines of a text: its lines, and what follows the last newline. -/
def pieces (s : Lines) : List Line := s.ended ++ [s.tail]

theorem exists_pieces_eq_cons (s : Lines) : ∃ l ls, s.pieces = l :: ls :=
  List.exists_cons_of_ne_nil (by simp [pieces])

/-- One more character in front begins a piece, or runs on into the first one. -/
theorem pieces_cons (c : Char) (s : Lines) :
    (cons c s).pieces = if c = '\n' then [] :: s.pieces else s.pieces.modifyHead (c :: ·) := by
  unfold cons
  split
  · rfl
  · split <;> simp_all [pieces]

/-- **The open end runs on** into the first piece of what follows. -/
theorem pieces_ofText_append {u v : Text} {l : Line} {ls : List Line}
    (h : (ofText v).pieces = l :: ls) :
    (ofText (u ++ v)).pieces = (ofText u).ended ++ ((ofText u).tail ++ l) :: ls := by
  rw [ofText_append, append]
  cases hv : (ofText v).ended with
  | nil =>
    rw [pieces, hv] at h
    obtain ⟨rfl, rfl⟩ := List.cons.inj h
    rfl
  | cons k ks =>
    rw [pieces, hv] at h
    obtain ⟨rfl, rfl⟩ := List.cons.inj h
    simp [pieces]

/-- Whole lines in front are pieces. -/
theorem pieces_ofText_unlines_append {ls : List Line} (h : ∀ l ∈ ls, '\n' ∉ l) (t : Text) :
    (ofText (unlines ls ++ t)).pieces = ls ++ (ofText t).pieces := by
  rw [ofText_unlines_append h, pieces, pieces, List.append_assoc]

/-- A piece stands in the text. -/
theorem infix_of_mem_pieces {t : Text} {l : Line} (h : l ∈ (ofText t).pieces) : l <:+: t := by
  have hwhole := toText_ofText t
  rw [toText] at hwhole
  rcases List.mem_append.mp h with h | h
  · obtain ⟨as, bs, hsplit⟩ := List.append_of_mem h
    rw [← hwhole, hsplit]
    exact ⟨unlines as, '\n' :: (unlines bs ++ (ofText t).tail), by simp⟩
  · rw [List.mem_singleton.mp h]
    exact ⟨unlines (ofText t).ended, [], by rw [List.append_nil, hwhole]⟩

end Lines

/-! ## Trimming next to a solid piece -/

namespace Text

theorem trimStart_of_blank {t : Text} (h : ∀ c ∈ t, isBlank c = true) : trimStart t = [] :=
  List.dropWhile_eq_nil_iff.mpr h

theorem trimStart_append_of_blank {b : Text} (h : ∀ c ∈ b, isBlank c = true) (t : Text) :
    trimStart (b ++ t) = trimStart t := List.dropWhile_append_of_pos h

/-- Trimming at both ends may begin at either. -/
theorem trimStart_trimEnd (t : Text) : trimStart (trimEnd t) = trim t := by
  by_cases h : ∃ c ∈ trimEnd t, isBlank c = false
  · have hlast : ∀ c ∈ (trimStart (trimEnd t)).getLast?, isBlank c = false := by
      intro c hc
      refine isBlank_getLast_trimEnd (t := t) ?_
      have hsuffix : trimStart (trimEnd t) <:+ trimEnd t := List.dropWhile_suffix _
      obtain ⟨as, has⟩ := hsuffix
      rw [← has, List.getLast?_append, Option.mem_def.mp hc]
      rfl
    conv => rhs; rw [← trimEnd_append_blankEnd t]
    rw [trim, trimStart_append_of_solid h, trimEnd_append_of_isBlank fun c hc =>
      isBlank_of_mem_blankEnd hc, trimEnd_of_getLast? hlast]
  · -- all of the text is blank
    simp only [not_exists, not_and, Bool.not_eq_false] at h
    have hblank : ∀ c ∈ t, isBlank c = true := by
      intro c hc
      rw [← trimEnd_append_blankEnd t] at hc
      rcases List.mem_append.mp hc with hc | hc
      · exact h c hc
      · exact isBlank_of_mem_blankEnd hc
    rw [trim, trimStart_of_blank h, trimStart_of_blank hblank]
    rfl

/-! ## Solid lines -/

/-- The pieces of a text that are not all blank. -/
def solidLines (t : Text) : List Line := (Lines.ofText t).pieces.filter fun l => !Line.isBlank l

/-- The solid lines without the blanks at their ends. -/
def sourceLines (t : Text) : List Line := (solidLines t).map trimEnd

/-- The solid lines without the blanks at either end. -/
def bareLines (t : Text) : List Line := (solidLines t).map trim

/-- The bare lines are the source lines without their indentation. -/
theorem bareLines_eq (t : Text) : bareLines t = (sourceLines t).map trimStart := by
  simp [bareLines, sourceLines, trimStart_trimEnd]

theorem solidLines_unlines_append {ls : List Line} (h : ∀ l ∈ ls, '\n' ∉ l) (t : Text) :
    solidLines (unlines ls ++ t) = (ls.filter fun l => !Line.isBlank l) ++ solidLines t := by
  rw [solidLines, Lines.pieces_ofText_unlines_append h, List.filter_append, solidLines]

theorem solidLines_unlines {ls : List Line} (h : ∀ l ∈ ls, '\n' ∉ l) :
    solidLines (unlines ls) = ls.filter fun l => !Line.isBlank l := by
  have halone := solidLines_unlines_append h []
  have hnone : solidLines [] = [] := rfl
  rwa [List.append_nil, hnone, List.append_nil] at halone

/-- Whole lines in front have their source lines in front. -/
theorem sourceLines_unlines_append {ls : List Line} (h : ∀ l ∈ ls, '\n' ∉ l) (t : Text) :
    sourceLines (unlines ls ++ t) = sourceLines (unlines ls) ++ sourceLines t := by
  rw [sourceLines, solidLines_unlines_append h, List.map_append, sourceLines, solidLines_unlines h,
    sourceLines]

/-- Whole lines in front have their bare lines in front. -/
theorem bareLines_unlines_append {ls : List Line} (h : ∀ l ∈ ls, '\n' ∉ l) (t : Text) :
    bareLines (unlines ls ++ t) = bareLines (unlines ls) ++ bareLines t := by
  rw [bareLines_eq, bareLines_eq, bareLines_eq, sourceLines_unlines_append h, List.map_append]

/-- All pieces of a blank text are blank. -/
theorem isBlank_of_mem_pieces {b : Text} (h : ∀ c ∈ b, isBlank c = true) {l : Line}
    (hl : l ∈ (Lines.ofText b).pieces) : Line.isBlank l = true :=
  List.all_eq_true.mpr fun c hc => h c ((Lines.infix_of_mem_pieces hl).subset hc)

/-- Among blank lines none is solid. -/
theorem filter_solid_eq_nil {ls : List Line} (h : ∀ l ∈ ls, Line.isBlank l = true) :
    (ls.filter fun l => !Line.isBlank l) = [] := by
  simpa [List.filter_eq_nil_iff] using h

/-- A blank text has no solid line. -/
theorem solidLines_of_blank {b : Text} (h : ∀ c ∈ b, isBlank c = true) : solidLines b = [] :=
  filter_solid_eq_nil fun _ hl => isBlank_of_mem_pieces h hl

/-- A line stays solid, and stays blank, when blanks are set behind it. -/
theorem isBlank_append_blank {b : Line} (h : Line.isBlank b = true) (l : Line) :
    Line.isBlank (l ++ b) = Line.isBlank l := by
  rw [Line.isBlank] at h
  rw [Line.isBlank, List.all_append, h, Bool.and_true, Line.isBlank]

/-- **Blanks at the end of a text** take no part in its source lines. -/
theorem sourceLines_append_blank {b : Text} (h : ∀ c ∈ b, isBlank c = true) (t : Text) :
    sourceLines (t ++ b) = sourceLines t := by
  obtain ⟨l, ls, hb⟩ := Lines.exists_pieces_eq_cons (Lines.ofText b)
  have hl : Line.isBlank l = true := isBlank_of_mem_pieces h (by simp [hb])
  have hls : (ls.filter fun k => !Line.isBlank k) = [] :=
    filter_solid_eq_nil fun k hk => isBlank_of_mem_pieces h (by simp [hb, hk])
  have htrim : trimEnd ((Lines.ofText t).tail ++ l) = trimEnd (Lines.ofText t).tail :=
    trimEnd_append_of_isBlank (List.all_eq_true.mp hl) _
  rw [sourceLines, sourceLines, solidLines, solidLines, Lines.pieces_ofText_append hb, Lines.pieces,
    List.filter_append, List.filter_append, List.filter_cons, List.filter_cons,
    isBlank_append_blank hl, hls, List.filter_nil]
  -- the open end is the one piece that the blanks run on behind
  split
  · simp only [List.map_append, List.map_cons, List.map_nil, htrim]
  · rfl

/-- The first piece of a text begins with its first character, unless that is a newline. -/
theorem exists_pieces_of_solid {c : Char} (hc : isBlank c = false) (r : Text) :
    ∃ l ls, (Lines.ofText (c :: r)).pieces = (c :: l) :: ls := by
  obtain ⟨l, ls, hr⟩ := Lines.exists_pieces_eq_cons (Lines.ofText r)
  have hbreak : c ≠ '\n' := by
    rintro rfl
    cases hc
  exact ⟨l, ls, by rw [Lines.ofText, Lines.pieces_cons, if_neg hbreak, hr, List.modifyHead_cons]⟩

/-- **Trimming the front of a text** takes the indentation off its first solid line. -/
theorem solidLines_trimStart (t : Text) :
    solidLines (trimStart t) = (solidLines t).modifyHead trimStart := by
  have hfront : ∀ c ∈ t.takeWhile isBlank, isBlank c = true := List.all_eq_true.mp List.all_takeWhile
  have hwhole := takeWhile_append_trimStart t
  cases ht : trimStart t with
  | nil =>
    rw [ht, List.append_nil] at hwhole
    rw [← hwhole, solidLines_of_blank hfront]
    rfl
  | cons c r =>
    rw [ht] at hwhole
    have hc : isBlank c = false := isBlank_head_trimStart (t := t) (by rw [ht]; rfl)
    obtain ⟨l, ls, hpieces⟩ := exists_pieces_of_solid hc r
    -- the blanks of the front run on into this piece, and the lines above it are blank
    have htail : ∀ d ∈ (Lines.ofText (t.takeWhile isBlank)).tail, isBlank d = true :=
      List.all_eq_true.mp (isBlank_of_mem_pieces hfront (by simp [Lines.pieces]))
    have hended :
        ((Lines.ofText (t.takeWhile isBlank)).ended.filter fun k => !Line.isBlank k) = [] :=
      filter_solid_eq_nil fun k hk => isBlank_of_mem_pieces hfront (by simp [Lines.pieces, hk])
    have hsolid : Line.isBlank (c :: l) = false := by simp [Line.isBlank, hc]
    have hsolid' : Line.isBlank ((Lines.ofText (t.takeWhile isBlank)).tail ++ c :: l) = false := by
      simp [Line.isBlank, hc]
    have htrim : trimStart ((Lines.ofText (t.takeWhile isBlank)).tail ++ c :: l) = c :: l := by
      rw [trimStart_append_of_blank htail, trimStart, List.dropWhile_cons_of_neg (by simp [hc])]
    conv => rhs; rw [← hwhole]
    rw [solidLines, solidLines, Lines.pieces_ofText_append hpieces, hpieces, List.filter_append,
      hended]
    simp [hsolid, hsolid', htrim]

/-- Trimming the front of a text takes the indentation off its first source line. -/
theorem sourceLines_trimStart (t : Text) :
    sourceLines (trimStart t) = (sourceLines t).modifyHead trimStart := by
  rw [sourceLines, sourceLines, solidLines_trimStart]
  cases solidLines t with
  | nil => rfl
  | cons l ls => simp [trimStart_trimEnd, trim]

/-- Without their indentation all lines are the same, whether the first one had lost it or not. -/
theorem map_trimStart_modifyHead (ls : List Line) :
    (ls.modifyHead trimStart).map trimStart = ls.map trimStart := by
  cases ls with
  | nil => rfl
  | cons l ls => simp [trimStart_trimStart]

/-! ## Bare lines at a seam -/

theorem trim_eq_nil_iff {l : Line} : trim l = [] ↔ Line.isBlank l = true := by
  constructor
  · intro h
    rw [← trimStart_trimEnd] at h
    have hfront := List.dropWhile_eq_nil_iff.mp h
    refine List.all_eq_true.mpr fun c hc => ?_
    rw [← trimEnd_append_blankEnd l] at hc
    rcases List.mem_append.mp hc with hc | hc
    · exact hfront c hc
    · exact isBlank_of_mem_blankEnd hc
  · intro h
    rw [trim, trimStart_of_blank (List.all_eq_true.mp h)]
    rfl

/-- Set behind a comment, a line becomes another one. -/
theorem trim_append_ne {l m : Line} (hl : Line.isComment l = true) (hm : Line.isBlank m = false) :
    trim (l ++ m) ≠ trim m := by
  obtain ⟨r, rfl⟩ := Line.isComment_iff.mp hl
  have hsolid : ∃ c ∈ m, isBlank c = false := by
    simpa [Line.isBlank, List.all_eq_false] using hm
  have hjoined : trim ('#' :: r ++ m) = '#' :: r ++ trimEnd m := by
    rw [trim, List.cons_append, trimStart_of_head? (t := '#' :: (r ++ m)) fun c hc => ?_,
      ← List.cons_append, trimEnd_append_of_solid hsolid]
    obtain rfl := Option.some.inj hc
    exact isBlank_hash
  intro hsame
  have hshorter : (trim m).length ≤ (trimEnd m).length := by
    rw [← trimStart_trimEnd]
    exact (List.dropWhile_suffix _).length_le
  rw [← hsame, hjoined] at hshorter
  simp only [List.length_append, List.length_cons] at hshorter
  omega

/-- A text without a newline is one line at the most. -/
theorem bareLines_of_not_mem {l : Line} (h : '\n' ∉ l) :
    bareLines l = if Line.isBlank l then [] else [trim l] := by
  rw [bareLines, solidLines, Lines.ofText_of_not_mem h]
  cases hblank : Line.isBlank l <;> simp [Lines.pieces, hblank]

/-- A text that begins with a comment sign, and holds no newline, is one. -/
theorem bareLines_comment_append {l m : Line} (hl : Line.isComment l = true) (hplain : '\n' ∉ l)
    (hm : '\n' ∉ m) : bareLines (l ++ m) = [trim (l ++ m)] := by
  have hnone : '\n' ∉ l ++ m := by simp [hplain, hm]
  have hsolid : Line.isBlank (l ++ m) = false := by
    obtain ⟨r, rfl⟩ := Line.isComment_iff.mp hl
    rfl
  rw [bareLines_of_not_mem hnone, hsolid]
  rfl

/-- What is set in front of a line leaves it a bare line, if that is nothing or the line is blank. -/
theorem bareLines_subset_append {l : Line} (hl : '\n' ∉ l) {u : Text}
    (h : u = [] ∨ Line.isBlank l = true) : bareLines l ⊆ bareLines (u ++ l) := by
  rcases h with hnil | hblank
  · rw [hnil]
    exact List.Subset.refl _
  · rw [bareLines_of_not_mem hl, if_pos hblank]
    exact List.nil_subset _

theorem bareLines_append_of_whole {u : Text} (h : (Lines.ofText u).tail = []) (v : Text) :
    bareLines (u ++ v) = bareLines u ++ bareLines v := by
  rw [← Lines.unlines_ended h]
  exact bareLines_unlines_append (Lines.not_mem_ended_ofText u) v

theorem bareLines_trimStart (t : Text) : bareLines (trimStart t) = bareLines t := by
  rw [bareLines_eq, sourceLines_trimStart, map_trimStart_modifyHead, bareLines_eq]

theorem bareLines_append_blank {b : Text} (h : ∀ c ∈ b, isBlank c = true) (t : Text) :
    bareLines (t ++ b) = bareLines t := by
  rw [bareLines_eq, sourceLines_append_blank h, bareLines_eq]

/-- Blanks at a seam take no part in the bare lines on either side. -/
theorem bareLines_seam {u b b' : Text} (hu : (Lines.ofText u).tail = [])
    (hb : ∀ c ∈ b, isBlank c = true) (hb' : ∀ c ∈ b', isBlank c = true) (v : Text) :
    bareLines (u ++ b) ++ bareLines (b' ++ v) = bareLines (u ++ v) := by
  have hback : bareLines (b' ++ v) = bareLines v := by
    rw [← bareLines_trimStart, trimStart_append_of_blank hb', bareLines_trimStart]
  rw [bareLines_append_blank hb, hback, bareLines_append_of_whole hu]

/-- What an open end in front of a text runs into: the text up to its first newline. -/
def firstLine (t : Text) : Line := t.takeWhile (· ≠ '\n')

theorem not_mem_firstLine (t : Text) : '\n' ∉ firstLine t := by
  intro h
  simpa using List.mem_takeWhile_imp h

theorem exists_pieces_eq_firstLine_cons (t : Text) :
    ∃ ls, (Lines.ofText t).pieces = firstLine t :: ls := by
  induction t with
  | nil => exact ⟨[], rfl⟩
  | cons c t ih =>
    obtain ⟨ls, hls⟩ := ih
    rw [Lines.ofText, Lines.pieces_cons, hls]
    by_cases hc : c = '\n'
    · exact ⟨firstLine t :: ls, by simp [firstLine, hc]⟩
    · exact ⟨ls, by simp [firstLine, hc]⟩

/-- **An open end changes the first line** of what is set behind it, and no other. -/
theorem exists_bareLines_append (t : Text) :
    ∃ ls, bareLines t = bareLines (firstLine t) ++ ls ∧
      ∀ l, '\n' ∉ l → bareLines (l ++ t) = bareLines (l ++ firstLine t) ++ ls := by
  obtain ⟨ls, hls⟩ := exists_pieces_eq_firstLine_cons t
  have hbehind : ∀ l, '\n' ∉ l → bareLines (l ++ t) =
      bareLines (l ++ firstLine t) ++ (ls.filter fun k => !Line.isBlank k).map trim := by
    intro l hl
    have hjoined : '\n' ∉ l ++ firstLine t := by simp [hl, not_mem_firstLine]
    rw [bareLines_of_not_mem hjoined, bareLines, solidLines, Lines.pieces_ofText_append hls,
      Lines.ofText_of_not_mem hl, List.nil_append]
    cases hblank : Line.isBlank (l ++ firstLine t) <;> simp [hblank]
  exact ⟨_, hbehind [] List.not_mem_nil, hbehind⟩

/-- Whether a solid line is a bare line of whole lines can be told without its blanks. -/
theorem trim_mem_bareLines_unlines {ls : List Line} (h : ∀ l ∈ ls, '\n' ∉ l) {m : Line}
    (hm : Line.isBlank m = false) :
    trim m ∈ bareLines (unlines ls) ↔ trim m ∈ ls.map trim := by
  rw [bareLines, solidLines_unlines h, List.mem_map, List.mem_map]
  constructor
  · rintro ⟨l, hl, heq⟩
    exact ⟨l, (List.mem_filter.mp hl).1, heq⟩
  · rintro ⟨l, hl, heq⟩
    refine ⟨l, List.mem_filter.mpr ⟨hl, ?_⟩, heq⟩
    cases hblank : Line.isBlank l with
    | false => rfl
    | true =>
      rw [trim_eq_nil_iff.mpr hblank, eq_comm, trim_eq_nil_iff, hm] at heq
      cases heq

end Text
end SchemaComment
