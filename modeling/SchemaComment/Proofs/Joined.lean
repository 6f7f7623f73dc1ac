/-
  TEXTS SET ONE AFTER THE OTHER, READ AS LINES.

  A file is written by setting texts one after the other, and it is read back line by line.  This
  module says how the two go together.

  1. **The join** — `Lines.append`: the open end of the first text runs on into the first line of
     the second, and all other lines stay what they were (`ofText_append`).
  2. **Whole lines** — a text of terminated lines is read back as these lines, whatever follows it
     (`ofText_unlines_append`).
  3. **The crux** — trimming cuts a piece off one end of a text.  What it leaves has the lines of the
     text but for one at the seam: `trimStart` may shorten the first line that it leaves
     (`ended_of_append_right`), `trimEnd` the last (`ended_of_append_left`).
-/
import SchemaComment.LineEnding
import SchemaComment.Text.Blank

namespace SchemaComment

namespace Lines

/-! ## The join -/

/-- The lines of two texts one after the other. -/
def append (s t : Lines) : Lines :=
  match t.ended with
  | [] => ⟨s.ended, s.tail ++ t.tail⟩
  | l :: ls => ⟨s.ended ++ (s.tail ++ l) :: ls, t.tail⟩

theorem cons_append (c : Char) (s t : Lines) : (cons c s).append t = cons c (s.append t) := by
  obtain ⟨ls, tail⟩ := t
  cases ls with
  | nil =>
    simp only [append, cons]
    split
    · rfl
    · cases s.ended <;> rfl
  | cons l ls =>
    simp only [append, cons]
    split
    · rfl
    · cases s.ended <;> rfl

/-- **Reading goes piece by piece**: the lines of a joined text are the joined lines. -/
theorem ofText_append (u v : Text) : ofText (u ++ v) = (ofText u).append (ofText v) := by
  induction u with
  | nil =>
    show ofText v = (⟨[], []⟩ : Lines).append (ofText v)
    obtain ⟨ls, tail⟩ := ofText v
    cases ls <;> rfl
  | cons c u ih =>
    show cons c (ofText (u ++ v)) = (cons c (ofText u)).append (ofText v)
    rw [ih, cons_append]

/-! ## Whole lines in front -/

/-- Whole lines are read back as they are, whatever follows. -/
theorem ofText_unlines_append {ls : List Line} (h : ∀ l ∈ ls, '\n' ∉ l) (t : Text) :
    ofText (unlines ls ++ t) = ⟨ls ++ (ofText t).ended, (ofText t).tail⟩ := by
  have hls : ofText (unlines ls) = ⟨ls, []⟩ := by
    have := ofText_toText (s := ⟨ls, []⟩) h (by simp)
    simpa [toText] using this
  rw [ofText_append, hls]
  obtain ⟨ks, tail⟩ := ofText t
  cases ks <;> simp [append]

/-- Whole lines alone are read back as they are. -/
theorem ofText_unlines {ls : List Line} (h : ∀ l ∈ ls, '\n' ∉ l) :
    ofText (unlines ls) = ⟨ls, []⟩ := by
  have := ofText_unlines_append h []
  simpa [ofText] using this

/-- A text without an open end is its lines put together. -/
theorem unlines_ended {t : Text} (h : (ofText t).tail = []) : unlines (ofText t).ended = t := by
  have := toText_ofText t
  rwa [toText, h, List.append_nil] at this

/-- With a newline at the end the open end becomes a line. -/
theorem ofText_append_newline (t : Text) :
    ofText (t ++ ['\n']) = ⟨(ofText t).ended ++ [(ofText t).tail], []⟩ := by
  have hbreak : ofText ['\n'] = ⟨[[]], []⟩ := rfl
  simp only [ofText_append, hbreak, append, List.append_nil]

theorem tail_ofText_append_newline (t : Text) : (ofText (t ++ ['\n'])).tail = [] := by
  rw [ofText_append_newline]

/-- Behind a text without an open end a text keeps its own. -/
theorem tail_ofText_append {u : Text} (hu : (ofText u).tail = []) (v : Text) :
    (ofText (u ++ v)).tail = (ofText v).tail := by
  rw [ofText_append, append]
  split
  · rw [hu, List.nil_append]
  · rfl

theorem tail_ofText_unlines (ls : List Line) : (ofText (unlines ls)).tail = [] := by
  induction ls with
  | nil => rfl
  | cons l ls ih =>
    have hcons : unlines (l :: ls) = (l ++ ['\n']) ++ unlines ls := by simp
    rw [hcons, tail_ofText_append (tail_ofText_append_newline l), ih]

/-! ## A piece cut off -/

/-- Behind a piece that was cut off the front, all lines but the first are lines of the whole. -/
theorem ended_of_append_right {u v : Text} {l : Line} {ls : List Line}
    (h : (ofText v).ended = l :: ls) :
    (ofText (u ++ v)).ended = (ofText u).ended ++ ((ofText u).tail ++ l) :: ls := by
  rw [ofText_append, append, h]

/-- The lines in front of a piece that was cut off the end begin the lines of the whole. -/
theorem ended_of_append_left (u v : Text) : (ofText u).ended <+: (ofText (u ++ v)).ended := by
  rw [ofText_append, append]
  split
  · exact List.prefix_rfl
  · exact List.prefix_append _ _

/-- The open end in front of a piece that was cut off begins a line of the whole, or its open end. -/
theorem tail_of_append_left (u v : Text) :
    (∃ l ∈ (ofText (u ++ v)).ended, (ofText u).tail <+: l) ∨
      (ofText u).tail <+: (ofText (u ++ v)).tail := by
  rw [ofText_append, append]
  split
  · exact Or.inr (List.prefix_append _ _)
  · rename_i l ls _
    exact Or.inl ⟨(ofText u).tail ++ l, by simp, List.prefix_append _ _⟩

end Lines

/-! ## The ends of a trimmed text -/

namespace Text

/-- What is trimmed off the front. -/
theorem takeWhile_append_trimStart (t : Text) : t.takeWhile isBlank ++ trimStart t = t :=
  List.takeWhile_append_dropWhile

/-- A trimmed text does not begin with a blank. -/
theorem isBlank_head_trimStart {t : Text} {c : Char} (h : c ∈ (trimStart t).head?) :
    isBlank c = false := by
  have hhead := List.head?_dropWhile_not isBlank t
  rw [trimStart] at h
  rw [Option.mem_def.mp h] at hhead
  simpa using hhead

/-- A trimmed text does not end in a blank. -/
theorem isBlank_getLast_trimEnd {t : Text} {c : Char} (h : c ∈ (trimEnd t).getLast?) :
    isBlank c = false := by
  rw [trimEnd, List.getLast?_reverse] at h
  exact isBlank_head_trimStart (t := t.reverse) h

/-- A text that begins with no blank is trimmed. -/
theorem trimStart_of_head? {t : Text} (h : ∀ c ∈ t.head?, isBlank c = false) : trimStart t = t := by
  cases t with
  | nil => rfl
  | cons c t => simp [trimStart, h c rfl]

theorem trimStart_trimStart (t : Text) : trimStart (trimStart t) = trimStart t :=
  trimStart_of_head? fun _ h => isBlank_head_trimStart h

/-- Blanks at the end take no part. -/
theorem trimEnd_append_of_isBlank {b : Text} (h : ∀ c ∈ b, isBlank c = true) (t : Text) :
    trimEnd (t ++ b) = trimEnd t := by
  have hreverse : ∀ c ∈ b.reverse, isBlank c = true := fun c hc => h c (List.mem_reverse.mp hc)
  rw [trimEnd, trimEnd, List.reverse_append, List.dropWhile_append_of_pos hreverse]

/-- A text that ends in no blank is trimmed. -/
theorem trimEnd_of_getLast? {t : Text} (h : ∀ c ∈ t.getLast?, isBlank c = false) : trimEnd t = t := by
  have hreverse : trimStart t.reverse = t.reverse := by
    refine trimStart_of_head? fun c hc => h c ?_
    rwa [List.head?_reverse] at hc
  rw [trimStart] at hreverse
  rw [trimEnd, hreverse, List.reverse_reverse]

theorem trimEnd_trimEnd (t : Text) : trimEnd (trimEnd t) = trimEnd t :=
  trimEnd_of_getLast? fun _ h => isBlank_getLast_trimEnd h

/-- Trimming the front stops at the first piece that is not all blank. -/
theorem trimStart_append_of_solid {u : Text} (h : ∃ c ∈ u, isBlank c = false) (v : Text) :
    trimStart (u ++ v) = trimStart u ++ v := by
  have hstops : u.dropWhile isBlank ≠ [] := by
    intro hnil
    obtain ⟨c, hc, hsolid⟩ := h
    have hall := List.takeWhile_append_dropWhile (p := isBlank) (l := u)
    rw [hnil, List.append_nil] at hall
    have hblank := List.all_eq_true.mp (List.all_takeWhile (p := isBlank)) c (hall.symm ▸ hc)
    rw [hsolid] at hblank
    cases hblank
  rw [trimStart, trimStart, List.dropWhile_append, if_neg (by simpa using hstops)]

/-- Trimming the end stops at the last piece that is not all blank. -/
theorem trimEnd_append_of_solid {v : Text} (h : ∃ c ∈ v, isBlank c = false) (u : Text) :
    trimEnd (u ++ v) = u ++ trimEnd v := by
  have hreverse : ∃ c ∈ v.reverse, isBlank c = false := by simpa using h
  have hstops := trimStart_append_of_solid hreverse u.reverse
  rw [trimStart, trimStart] at hstops
  rw [trimEnd, trimEnd, List.reverse_append, hstops, List.reverse_append, List.reverse_reverse]

end Text

end SchemaComment
